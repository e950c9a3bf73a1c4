import Workflow.Graph.Basic

/-!
What a search finds. It lists every id on its stack that was not visited, and whatever a listed id
leads to that was not visited; so what can be reached from the start of a graph is closed under
successors, and has nothing in common with what cannot be reached.
-/
namespace Workflow.Graph

variable {successors : String → List String} {unvisited stack : List String} {x y : String}

/-- A search lists only ids that were not visited. -/
theorem mem_unvisited_of_mem_search (h : x ∈ search successors unvisited stack) :
    x ∈ unvisited := by
  fun_induction search successors unvisited stack with
  | case1 unvisited => cases h
  | case2 unvisited id rest hid ih =>
    rcases List.mem_cons.1 h with rfl | hrest
    · exact hid
    · exact List.mem_of_mem_erase (ih hrest)
  | case3 unvisited id rest hid ih => exact ih h

theorem mem_search_of_mem_stack (hx : x ∈ stack) (h : x ∈ unvisited) :
    x ∈ search successors unvisited stack := by
  fun_induction search successors unvisited stack with
  | case1 unvisited => cases hx
  | case2 unvisited id rest hid ih =>
    by_cases heq : x = id
    · exact List.mem_cons.2 (Or.inl heq)
    · have hrest : x ∈ rest := (List.mem_cons.1 hx).resolve_left heq
      have hleft : x ∈ unvisited.erase id := (List.mem_erase_of_ne heq).2 h
      exact List.mem_cons_of_mem _ (ih (List.mem_append_right _ hrest) hleft)
  | case3 unvisited id rest hid ih =>
    rcases List.mem_cons.1 hx with rfl | hrest
    · exact absurd h hid
    · exact ih hrest h

/-- The successors of a listed id are on the stack after it, so they are listed unless they were
visited. -/
theorem mem_search_of_mem_successors (hx : x ∈ search successors unvisited stack)
    (hy : y ∈ successors x) (h : y ∈ unvisited) : y ∈ search successors unvisited stack := by
  fun_induction search successors unvisited stack with
  | case1 unvisited => cases hx
  | case2 unvisited id rest hid ih =>
    by_cases heq : y = id
    · exact List.mem_cons.2 (Or.inl heq)
    refine List.mem_cons_of_mem _ ?_
    have hleft : y ∈ unvisited.erase id := (List.mem_erase_of_ne heq).2 h
    rcases List.mem_cons.1 hx with rfl | hrest
    · have hstack : y ∈ (successors x).filter (· ∈ unvisited.erase x) :=
        List.mem_filter.2 ⟨hy, decide_eq_true hleft⟩
      exact mem_search_of_mem_stack (List.mem_append_left _ hstack) hleft
    · exact ih hrest hleft
  | case3 unvisited id rest hid ih => exact ih hx h

/-- Whatever an id that can be reached leads to can be reached. -/
theorem mem_reachable_of_mem_successors {g : Graph} (hx : x ∈ g.reachable)
    (hy : y ∈ g.successors x) : y ∈ g.reachable :=
  mem_search_of_mem_successors hx hy (g.ends_mem hy).2

variable {d : Definition}

theorem mem_nodeIds_of_mem_reachable (h : x ∈ (ofDefinition d).reachable) : x ∈ d.nodeIds := by
  have hmem := mem_unvisited_of_mem_search h
  rwa [ofDefinition_nodes, Text.mem_distinct] at hmem

theorem startNode_mem_reachable (h : d.startNode ∈ d.nodeIds) :
    d.startNode ∈ (ofDefinition d).reachable := by
  have hstart : (ofDefinition d).start = some d.startNode := if_pos h
  rw [reachable, hstart, ofDefinition_nodes]
  exact mem_search_of_mem_stack List.mem_cons_self (Text.mem_distinct.2 h)

/-- Whatever a node that can be reached refers to can be reached. -/
theorem mem_reachable_of_mem_references {n : NodeDefinition} (hn : n ∈ d.nodes)
    (hreachable : n.id ∈ (ofDefinition d).reachable) (hx : x ∈ n.references)
    (h : x ∈ d.nodeIds) : x ∈ (ofDefinition d).reachable := by
  apply mem_reachable_of_mem_successors hreachable
  rw [ofDefinition_successors, Definition.successors, Text.mem_distinct, List.mem_filter,
    List.mem_flatMap]
  exact ⟨⟨n, List.mem_filter.2 ⟨hn, decide_eq_true rfl⟩, hx⟩, decide_eq_true h⟩

theorem notMem_reachable_of_mem_unreachable {g : Graph} (h : x ∈ g.unreachable) :
    x ∉ g.reachable := by
  rw [unreachable, Text.mem_nameSet, List.mem_filter] at h
  exact of_decide_eq_true h.2

end Workflow.Graph
