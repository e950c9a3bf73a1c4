import Mathlib.Data.List.Basic
import Workflow.Graph.Basic
import Workflow.Proofs.FirstOccurrences

/-!
The order of a search. A stack of ids is visited like its ids one after the other, each with all
that is below it before the next one: what an id on the stack leads to goes on top, and an id that
was visited in the meantime is passed over. So what can be reached is listed in the order of visits
that go down at once, an id before its successors, and these in the order of the references.
-/
namespace Workflow

namespace Text

/-- First occurrences stand in the order in which they occur. -/
theorem pairwise_idxOf_distinct (names : List String) :
    (distinct names).Pairwise fun x y => names.idxOf x < names.idxOf y := by
  induction names with
  | nil => exact List.Pairwise.nil
  | cons name rest ih =>
    have hlater {x : String} (hx : x ≠ name) : (name :: rest).idxOf x = rest.idxOf x + 1 :=
      List.idxOf_cons_ne _ (Ne.symm hx)
    have hne {x : String} (hx : x ∈ (distinct rest).filter (· ≠ name)) : x ≠ name :=
      of_decide_eq_true (List.mem_filter.1 hx).2
    refine List.pairwise_cons.2 ⟨fun y hy => ?_, (ih.filter _).imp_of_mem fun hx hy hlt => ?_⟩
    · rw [List.idxOf_cons_self, hlater (hne hy)]
      exact Nat.succ_pos _
    · rw [hlater (hne hx), hlater (hne hy)]
      exact Nat.succ_lt_succ hlt

end Text

/-- All that the nodes with an id refer to, in the order of the nodes, with repetitions and with ids
that do not exist. -/
def Definition.named (d : Definition) (id : String) : List String :=
  (d.nodes.filter (·.id = id)).flatMap NodeDefinition.references

theorem Definition.mem_successors_iff_named {d : Definition} {id y : String} :
    y ∈ d.successors id ↔ y ∈ d.nodeIds ∧ y ∈ d.named id := by
  rw [successors, Text.mem_distinct, List.mem_filter, decide_eq_true_eq, and_comm, named]

theorem Definition.pairwise_successors (d : Definition) (id : String) :
    (d.successors id).Pairwise fun x y => (d.named id).idxOf x < (d.named id).idxOf y := by
  rw [successors, Text.distinct_filter]
  exact (Text.pairwise_idxOf_distinct (d.named id)).sublist List.filter_sublist

namespace Graph

variable {successors : String → List String}

mutual

/-- The ids that a visit of an id lists: nothing if it was visited before, else the id itself and
then what the visits of its successors list. -/
def preorder (successors : String → List String) (unvisited : List String) (id : String) :
    List String :=
  if id ∈ unvisited then id :: preorderEach successors (unvisited.erase id) (successors id) else []
termination_by (unvisited.length, 0)
decreasing_by
  have := List.length_erase_of_mem ‹id ∈ unvisited›
  have := List.length_pos_of_mem ‹id ∈ unvisited›
  exact Prod.Lex.left _ _ (by omega)

/-- The ids that visits list one after the other; what one of them lists was visited before the
next one. -/
def preorderEach (successors : String → List String) (unvisited : List String) :
    List String → List String
  | [] => []
  | id :: rest =>
    let listed := preorder successors unvisited id
    listed ++ preorderEach successors (unvisited.filter (· ∉ listed)) rest
termination_by ids => (unvisited.length, ids.length)
decreasing_by
  · exact Prod.Lex.right _ (by simp)
  · have hle : (unvisited.filter (· ∉ listed)).length ≤ unvisited.length :=
      List.length_filter_le _ _
    rcases Nat.lt_or_eq_of_le hle with hlt | heq
    · exact Prod.Lex.left _ _ hlt
    · rw [heq]
      exact Prod.Lex.right _ (by simp)

end

theorem preorderEach_nil (unvisited : List String) : preorderEach successors unvisited [] = [] := by
  rw [preorderEach]

theorem preorderEach_cons (unvisited : List String) (id : String) (rest : List String) :
    preorderEach successors unvisited (id :: rest) =
      preorder successors unvisited id ++
        preorderEach successors (unvisited.filter (· ∉ preorder successors unvisited id)) rest := by
  rw [preorderEach]

theorem preorder_of_mem {unvisited : List String} {id : String} (h : id ∈ unvisited) :
    preorder successors unvisited id =
      id :: preorderEach successors (unvisited.erase id) (successors id) := by
  rw [preorder, if_pos h]

theorem preorder_of_notMem {unvisited : List String} {id : String} (h : id ∉ unvisited) :
    preorder successors unvisited id = [] := by
  rw [preorder, if_neg h]

theorem preorderEach_append (unvisited ids others : List String) :
    preorderEach successors unvisited (ids ++ others) =
      preorderEach successors unvisited ids ++
        preorderEach successors (unvisited.filter (· ∉ preorderEach successors unvisited ids))
          others := by
  induction ids generalizing unvisited with
  | nil => simp [preorderEach_nil]
  | cons id rest ih =>
    rw [List.cons_append, preorderEach_cons, preorderEach_cons, ih, List.append_assoc,
      List.filter_filter]
    congr 3
    apply List.filter_congr
    intro x _
    simp [Bool.and_comm]

/-- Ids that were visited before may be left out. -/
theorem preorderEach_filter {p : String → Bool} {unvisited : List String}
    (h : ∀ x ∈ unvisited, p x = true) (ids : List String) :
    preorderEach successors unvisited (ids.filter p) = preorderEach successors unvisited ids := by
  induction ids generalizing unvisited with
  | nil => rfl
  | cons id rest ih =>
    have hrest : preorderEach successors
          (unvisited.filter (· ∉ preorder successors unvisited id)) (rest.filter p) =
        preorderEach successors (unvisited.filter (· ∉ preorder successors unvisited id)) rest :=
      ih fun x hx => h x (List.mem_of_mem_filter hx)
    by_cases hid : p id = true
    · rw [List.filter_cons_of_pos hid, preorderEach_cons, preorderEach_cons, hrest]
    · have hvisited : id ∉ unvisited := fun hmem => hid (h id hmem)
      have hnothing : preorder successors unvisited id = [] := preorder_of_notMem hvisited
      rw [List.filter_cons_of_neg hid, ih h, preorderEach_cons, hnothing]
      simp

theorem filter_notMem_cons {unvisited : List String} (h : unvisited.Nodup) (id : String)
    (listed : List String) : unvisited.filter (· ∉ id :: listed) =
      (unvisited.erase id).filter (· ∉ listed) := by
  rw [h.erase_eq_filter, List.filter_filter]
  apply List.filter_congr
  intro x _
  by_cases hx : x = id <;> simp [hx]

/-- The stack of a search holds the visits to come: those of the innermost id on top, and below them
the visits that are left of the ids around it. -/
theorem search_eq_preorderEach {unvisited : List String} (h : unvisited.Nodup)
    (stack : List String) :
    search successors unvisited stack = preorderEach successors unvisited stack := by
  fun_induction search successors unvisited stack with
  | case1 unvisited => rw [preorderEach_nil]
  | case2 unvisited id rest hid ih =>
    have hleft : ∀ x ∈ unvisited.erase id, decide (x ∈ unvisited.erase id) = true :=
      fun x hx => decide_eq_true hx
    rw [ih (h.erase id), preorderEach_append, preorderEach_filter hleft, preorderEach_cons,
      preorder_of_mem hid, filter_notMem_cons h, List.cons_append]
  | case3 unvisited id rest hid ih =>
    rw [ih h, preorderEach_cons, preorder_of_notMem hid]
    simp

/-- What can be reached is listed in the order of visits that begin with the start node and go down
at once: an id before its successors, with all that is below one successor before the next one. The
successors of an id are the ids that exist among those that its nodes name, each once, in the order
in which they are first named. -/
theorem reachable_preorder (d : Definition) :
    (ofDefinition d).reachable =
        preorder d.successors (Text.distinct d.nodeIds) d.startNode ∧
      ∀ id, (d.successors id).Nodup ∧
        (∀ y, y ∈ d.successors id ↔ y ∈ d.nodeIds ∧ y ∈ d.named id) ∧
        (d.successors id).Pairwise fun x y => (d.named id).idxOf x < (d.named id).idxOf y := by
  constructor
  · have hnodup := Text.nodup_distinct d.nodeIds
    unfold reachable
    rw [ofDefinition_successors, ofDefinition_nodes, search_eq_preorderEach hnodup]
    by_cases hstart : d.startNode ∈ d.nodeIds
    · have heq : (ofDefinition d).start = some d.startNode := if_pos hstart
      rw [heq, Option.toList_some, preorderEach_cons, preorderEach_nil, List.append_nil]
    · have heq : (ofDefinition d).start = none := if_neg hstart
      have hunknown : d.startNode ∉ Text.distinct d.nodeIds := by rwa [Text.mem_distinct]
      rw [heq, Option.toList_none, preorderEach_nil, preorder_of_notMem hunknown]
  · intro id
    exact ⟨Text.nodup_distinct _, fun y => Definition.mem_successors_iff_named,
      d.pairwise_successors id⟩

end Graph

end Workflow
