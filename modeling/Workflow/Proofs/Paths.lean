import Mathlib.Logic.Relation
import Workflow.Proofs.NameSets
import Workflow.Proofs.Search
import Workflow.Proofs.Validity

/-!
What can be reached in the graph of a definition, valid or not: whatever references lead to from the
start, along a path of ids that exist. A search lists each of these ids once and nothing else.
-/
namespace Workflow

open Relation (ReflTransGen)

/-- A reference from one id to another, both of which exist: some node with the first id refers to
the second one. -/
def Definition.Leads (d : Definition) (x y : String) : Prop :=
  y ∈ d.nodeIds ∧ ∃ n ∈ d.nodes, n.id = x ∧ n.RefersTo y

theorem Definition.mem_successors_iff {d : Definition} {x y : String} :
    y ∈ d.successors x ↔ d.Leads x y := by
  unfold successors Leads
  rw [Text.mem_distinct, List.mem_filter, List.mem_flatMap, decide_eq_true_eq, and_comm]
  simp only [List.mem_filter, decide_eq_true_eq, NodeDefinition.mem_references_iff, and_assoc]

namespace Graph

/-! ## Searches -/

section Search

variable {successors : String → List String} {unvisited stack : List String} {x y : String}

/-- Whatever a search lists can be reached from an id on its stack. -/
theorem exists_path_of_mem_search (h : x ∈ search successors unvisited stack) :
    ∃ y ∈ stack, ReflTransGen (fun a b => b ∈ successors a) y x := by
  fun_induction search successors unvisited stack with
  | case1 unvisited => cases h
  | case2 unvisited id rest hid ih =>
    rcases List.mem_cons.1 h with rfl | h
    · exact ⟨x, List.mem_cons_self, .refl⟩
    obtain ⟨y, hy, hpath⟩ := ih h
    rcases List.mem_append.1 hy with hy | hy
    · exact ⟨id, List.mem_cons_self, .head (List.mem_filter.1 hy).1 hpath⟩
    · exact ⟨y, List.mem_cons_of_mem _ hy, hpath⟩
  | case3 unvisited id rest hid ih =>
    obtain ⟨y, hy, hpath⟩ := ih h
    exact ⟨y, List.mem_cons_of_mem _ hy, hpath⟩

/-- A search lists an id once only, since it takes it from those that were not visited. -/
theorem nodup_search (h : unvisited.Nodup) : (search successors unvisited stack).Nodup := by
  fun_induction search successors unvisited stack with
  | case1 unvisited => exact List.nodup_nil
  | case2 unvisited id rest hid ih =>
    refine List.nodup_cons.2 ⟨?_, ih (h.erase id)⟩
    intro hmem
    exact h.not_mem_erase (mem_unvisited_of_mem_search hmem)
  | case3 unvisited id rest hid ih => exact ih h

end Search

/-! ## Graphs -/

variable {d : Definition} {x : String}

theorem leads_ofDefinition (d : Definition) :
    (fun a b => b ∈ (ofDefinition d).successors a) = d.Leads := by
  funext a b
  rw [ofDefinition_successors, Definition.mem_successors_iff]

theorem head?_reachable : (ofDefinition d).reachable.head? = (ofDefinition d).start := by
  unfold reachable
  by_cases hstart : d.startNode ∈ d.nodeIds
  · have heq : (ofDefinition d).start = some d.startNode := if_pos hstart
    have hmem : d.startNode ∈ (ofDefinition d).nodes := Text.mem_distinct.2 hstart
    rw [heq, Option.toList_some, search, if_pos hmem, List.head?_cons]
  · have heq : (ofDefinition d).start = none := if_neg hstart
    rw [heq, Option.toList_none, search, List.head?_nil]

theorem mem_reachable_iff : x ∈ (ofDefinition d).reachable ↔
    d.startNode ∈ d.nodeIds ∧ ReflTransGen d.Leads d.startNode x := by
  constructor
  · intro hx
    obtain ⟨y, hy, hpath⟩ := exists_path_of_mem_search hx
    obtain ⟨hstart, ⟨⟩⟩ := Option.ite_none_right_eq_some.1 (Option.mem_toList.1 hy)
    rw [leads_ofDefinition] at hpath
    exact ⟨hstart, hpath⟩
  · rintro ⟨hstart, hpath⟩
    induction hpath with
    | refl => exact startNode_mem_reachable hstart
    | tail _ hleads ih =>
      apply mem_reachable_of_mem_successors ih
      rw [ofDefinition_successors, Definition.mem_successors_iff]
      exact hleads

theorem mem_unreachable_iff :
    x ∈ (ofDefinition d).unreachable ↔ x ∈ d.nodeIds ∧ x ∉ (ofDefinition d).reachable := by
  unfold unreachable
  rw [Text.mem_nameSet, List.mem_filter, ofDefinition_nodes, Text.mem_distinct, decide_eq_true_eq]

/-- What can be reached in a definition and what cannot. The list of what can be reached has no id
twice and begins with the start node, if that exists, and else it is empty; an id is in it just if
there is a path of references from the start node to it. The other ids that exist are those that
cannot be reached, in increasing order. -/
theorem reachable_paths (d : Definition) :
    let g := ofDefinition d
    g.reachable.Nodup ∧
    (d.startNode ∈ d.nodeIds → g.reachable.head? = some d.startNode) ∧
    (d.startNode ∉ d.nodeIds → g.reachable = []) ∧
    (∀ x, x ∈ g.reachable ↔
      d.startNode ∈ d.nodeIds ∧ ReflTransGen d.Leads d.startNode x) ∧
    g.unreachable.Pairwise (· < ·) ∧
    ∀ x, x ∈ g.unreachable ↔ x ∈ d.nodeIds ∧ x ∉ g.reachable := by
  intro g
  refine ⟨nodup_search g.nodup, ?_, ?_, fun x => mem_reachable_iff, Text.pairwise_nameSet _,
    fun x => mem_unreachable_iff⟩
  · intro hstart
    rw [head?_reachable]
    exact if_pos hstart
  · intro hstart
    rw [← List.head?_eq_none_iff, head?_reachable]
    exact if_neg hstart

end Graph

end Workflow
