import Mathlib.Data.List.Perm.Basic
import Workflow.Proofs.Cycles
import Workflow.Proofs.Schedule

/-!
The order of the nodes of a definition. The nodes of a valid definition have distinct ids, and
whatever is asked about them is asked by id or does not depend on their order; so a definition
whose nodes are listed in another order is valid too, has the same graph, and runs the same.
-/
namespace Workflow

open Fallible (bind_eq_ok mapM_eq_ok)

/-! ## Lists in another order -/

/-- The elements with a key do not depend on the order of a list with distinct keys. -/
theorem filter_key_of_perm {α : Type} {key : α → String} {as bs : List α} (hperm : as.Perm bs)
    (hnodup : (bs.map key).Nodup) (x : String) :
    as.filter (key · = x) = bs.filter (key · = x) := by
  have hfiltered : (as.filter (key · = x)).Perm (bs.filter (key · = x)) := hperm.filter _
  have hkey : ∀ b ∈ bs.filter (key · = x), key b = x := by
    intro b hb
    simpa using (List.mem_filter.1 hb).2
  have hdistinct : ((bs.filter (key · = x)).map key).Nodup :=
    hnodup.sublist (List.filter_sublist.map key)
  -- Two elements with one key would be a key that occurs twice.
  generalize bs.filter (key · = x) = found at hfiltered hkey hdistinct
  match found with
  | [] => exact List.perm_nil.1 hfiltered
  | [b] => exact List.perm_singleton.1 hfiltered
  | b :: c :: rest =>
    have hb : key b = x := hkey b (by simp)
    have hc : key c = x := hkey c (by simp)
    simp [hb, hc] at hdistinct

theorem find?_key_of_perm {α : Type} {key : α → String} {as bs : List α} (hperm : as.Perm bs)
    (hnodup : (bs.map key).Nodup) (x : String) :
    as.find? (key · = x) = bs.find? (key · = x) := by
  rw [← List.head?_filter, ← List.head?_filter, filter_key_of_perm hperm hnodup]

/-! ## Validity -/

namespace Definition

/-- A definition with its nodes in another order. -/
def reorder (d : Definition) (nodes : List NodeDefinition) : Definition := { d with nodes }

variable {d : Definition} {nodes : List NodeDefinition}

@[simp]
theorem reorder_id : (d.reorder nodes).id = d.id := rfl

@[simp]
theorem reorder_startNode : (d.reorder nodes).startNode = d.startNode := rfl

theorem perm_nodeIds (hperm : nodes.Perm d.nodes) : (d.reorder nodes).nodeIds.Perm d.nodeIds :=
  hperm.map NodeDefinition.id

theorem mem_nodeIds_reorder (hperm : nodes.Perm d.nodes) {x : String} :
    x ∈ (d.reorder nodes).nodeIds ↔ x ∈ d.nodeIds :=
  (perm_nodeIds hperm).mem_iff

theorem sound_reorder (h : d.Sound) (hperm : nodes.Perm d.nodes) : (d.reorder nodes).Sound where
  start_mem := (mem_nodeIds_reorder hperm).2 h.start_mem
  nodup := (perm_nodeIds hperm).nodup_iff.2 h.nodup
  references_mem := fun n hn x hx =>
    (mem_nodeIds_reorder hperm).2 (h.references_mem n (hperm.mem_iff.1 hn) x hx)

theorem successors_reorder (h : d.nodeIds.Nodup) (hperm : nodes.Perm d.nodes) :
    (d.reorder nodes).successors = d.successors := by
  funext id
  have hnodes : nodes.filter (·.id = id) = d.nodes.filter (·.id = id) :=
    filter_key_of_perm hperm h id
  simp only [successors, mem_nodeIds_reorder hperm]
  rw [← hnodes]
  rfl

end Definition

/-! ## The graph -/

namespace Graph

/-- What a search finds does not depend on the order of the ids that were not visited. -/
theorem search_of_perm {successors : String → List String} {unvisited others stack : List String}
    (h : others.Perm unvisited) :
    search successors others stack = search successors unvisited stack := by
  fun_induction search successors unvisited stack generalizing others with
  | case1 unvisited => rw [search]
  | case2 unvisited id rest hid ih =>
    have hleft : (others.erase id).Perm (unvisited.erase id) := h.erase id
    rw [search, if_pos (h.mem_iff.2 hid)]
    simp only [hleft.mem_iff]
    rw [ih hleft]
  | case3 unvisited id rest hid ih =>
    rw [search, if_neg (mt h.mem_iff.1 hid), ih h]

variable {g g' : Graph}

theorem reachable_of_perm (hnodes : g'.nodes.Perm g.nodes)
    (hsuccessors : g'.successors = g.successors) (hstart : g'.start = g.start) :
    g'.reachable = g.reachable := by
  rw [reachable, hsuccessors, hstart, search_of_perm hnodes, ← reachable]

theorem unreachable_of_perm (hnodes : g'.nodes.Perm g.nodes)
    (hreachable : g'.reachable = g.reachable) : g'.unreachable = g.unreachable := by
  rw [unreachable, unreachable, hreachable]
  apply Text.nameSet_eq
  intro x
  rw [List.mem_filter, List.mem_filter, hnodes.mem_iff]

/-- Whether there is a cycle hangs on the successors alone. -/
theorem hasCycle_congr (hsuccessors : g'.successors = g.successors) :
    g'.hasCycle = g.hasCycle := by
  rw [Bool.eq_iff_iff, hasCycle_iff, hasCycle_iff, hsuccessors]

variable {d : Definition} {nodes : List NodeDefinition}

theorem nodes_reorder (hperm : nodes.Perm d.nodes) :
    (ofDefinition (d.reorder nodes)).nodes.Perm (ofDefinition d).nodes :=
  Text.distinct_perm fun _ => Definition.mem_nodeIds_reorder hperm

theorem successors_reorder (h : d.nodeIds.Nodup) (hperm : nodes.Perm d.nodes) :
    (ofDefinition (d.reorder nodes)).successors = (ofDefinition d).successors := by
  rw [ofDefinition_successors, ofDefinition_successors, Definition.successors_reorder h hperm]

theorem start_reorder (hperm : nodes.Perm d.nodes) :
    (ofDefinition (d.reorder nodes)).start = (ofDefinition d).start :=
  if_congr (Definition.mem_nodeIds_reorder hperm) rfl rfl

end Graph

/-! ## The run -/

namespace Run

variable {σ : Type}

/-- A traversal sees its nodes by their ids only. -/
theorem traverse_congr {nodes others : List (Prepared σ)}
    (hfind : ∀ x, others.find? (·.id = x) = nodes.find? (·.id = x)) (deadline : Option Deadline)
    (limit left : Nat) (s : State) (m : Moment σ) :
    traverse others deadline limit left s m = traverse nodes deadline limit left s m := by
  induction left generalizing s m with
  | zero => rw [traverse, traverse]
  | succ left ih =>
    simp only [traverse, hfind, ih]

namespace Engine

variable {e : Engine σ} {d : Definition} {nodes : List (Prepared σ)}
  {reordered : List NodeDefinition}

/-- The nodes of a definition in another order are made as before, in that order. -/
theorem prepare_of_perm (h : e.prepare d = .ok nodes) (hperm : reordered.Perm d.nodes) :
    ∃ others, e.prepare (d.reorder reordered) = .ok others ∧ others.Perm nodes := by
  have hmade := mapM_eq_ok.1 (prepare_eq_ok h).2
  obtain ⟨others, hothers, hsame⟩ := List.perm_comp_forall₂ hperm hmade
  have hvalid : (d.reorder reordered).validate = .ok () :=
    Definition.validate_of_sound (Definition.sound_reorder (sound_of_prepare h) hperm)
  refine ⟨others, ?_, hsame⟩
  rw [prepare, hvalid]
  simp only [Definition.reorder, mapM_eq_ok.2 hothers]
  rfl

end Engine

/-- The order of the nodes of a definition does not matter: with its nodes in another order it can
run as well, has the same graph, and runs the same, whatever the input, the moment of a
cancellation, the id and the start of the run and the world. -/
theorem execute_of_perm {e : Engine σ} {d : Definition} {nodes : List (Prepared σ)}
    {reordered : List NodeDefinition} (h : e.prepare d = .ok nodes)
    (hperm : reordered.Perm d.nodes) :
    let d' := d.reorder reordered
    let g := Graph.ofDefinition d
    let g' := Graph.ofDefinition d'
    d'.validate = .ok () ∧ (∃ others, e.prepare d' = .ok others) ∧
      g'.reachable = g.reachable ∧ g'.unreachable = g.unreachable ∧ g'.hasCycle = g.hasCycle ∧
      ∀ input cancellation id start world,
        e.execute d' input cancellation id start world =
          e.execute d input cancellation id start world := by
  intro d' g g'
  have hsound := Engine.sound_of_prepare h
  obtain ⟨others, hothers, hsame⟩ := Engine.prepare_of_perm h hperm
  have hnodes : g'.nodes.Perm g.nodes := Graph.nodes_reorder hperm
  have hsuccessors : g'.successors = g.successors := Graph.successors_reorder hsound.nodup hperm
  have hreachable : g'.reachable = g.reachable :=
    Graph.reachable_of_perm hnodes hsuccessors (Graph.start_reorder hperm)
  have hfind : ∀ x, others.find? (·.id = x) = nodes.find? (·.id = x) := by
    apply find?_key_of_perm hsame
    rw [Engine.ids_of_prepare h]
    exact hsound.nodup
  refine ⟨(Engine.prepare_eq_ok hothers).1, ⟨others, hothers⟩, hreachable,
    Graph.unreachable_of_perm hnodes hreachable, Graph.hasCycle_congr hsuccessors, ?_⟩
  intro input cancellation id start world
  simp only [Engine.execute, d', hothers, h, traverse_congr hfind,
    Definition.reorder_id, Definition.reorder_startNode]

/-- The workflow with a cycle and an error handler, listed from its last node to its first. -/
theorem execute_of_perm_roundTrip :
    let d' := roundTrip.reorder roundTrip.nodes.reverse
    d'.nodes.map NodeDefinition.id = ["join", "right", "left", "root"] ∧
      d'.validate = .ok () ∧
      (Graph.ofDefinition d').reachable = (Graph.ofDefinition roundTrip).reachable ∧
      (roundTripEngine.execute d' [] .never ⟨[]⟩ ⟨0, 0⟩ ()).state.executed =
        ["root", "left", "right", "join"] := by
  obtain ⟨nodes, h⟩ : ∃ nodes, roundTripEngine.prepare roundTrip = .ok nodes := ⟨_, rfl⟩
  obtain ⟨hvalid, -, hreachable, -, -, hsame⟩ :=
    execute_of_perm h (List.reverse_perm roundTrip.nodes)
  refine ⟨rfl, hvalid, hreachable, ?_⟩
  rw [hsame]
  decide +kernel

end Run

end Workflow
