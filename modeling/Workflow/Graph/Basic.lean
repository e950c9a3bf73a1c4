import Workflow.Graph.Validation
import Workflow.Text.Names

/-!
The graph of a definition: every reference that a run could follow. References to nodes that do
not exist are left out, and the references of all nodes with one id count together. A search takes
nodes from a stack and looks at each node once, so it ends; it lists what can be reached. Visits
that keep the path to the current node tell whether there is a cycle.
-/
namespace Workflow

/-- A directed graph on distinct ids; an id of the graph leads to ids of the graph, and no other id
leads anywhere. -/
structure Graph where
  nodes : List String
  successors : String → List String
  /-- The id that runs start with, if it exists. -/
  start : Option String
  nodup : nodes.Nodup
  ends_mem : ∀ {x y : String}, y ∈ successors x → x ∈ nodes ∧ y ∈ nodes

/-- The existing ids that the nodes with an id refer to, in the order of the nodes, each once. -/
def Definition.successors (d : Definition) (id : String) : List String :=
  Text.distinct
    (((d.nodes.filter (·.id = id)).flatMap NodeDefinition.references).filter (· ∈ d.nodeIds))

theorem Definition.successors_eq_nil {d : Definition} {id : String} (h : id ∉ d.nodeIds) :
    d.successors id = [] := by
  have : d.nodes.filter (·.id = id) = [] := by
    rw [List.filter_eq_nil_iff]
    intro n hn hid
    exact h (List.mem_map.2 ⟨n, hn, by simpa using hid⟩)
  simp [Definition.successors, this, Text.distinct]

theorem Definition.ends_mem_nodeIds {d : Definition} {x y : String} (h : y ∈ d.successors x) :
    x ∈ d.nodeIds ∧ y ∈ d.nodeIds := by
  constructor
  · apply Decidable.byContradiction
    intro hx
    rw [successors_eq_nil hx] at h
    cases h
  · rw [successors, Text.mem_distinct] at h
    exact of_decide_eq_true (List.mem_filter.1 h).2

namespace Graph

theorem getD_lookup_map (f : String → List String) (ids : List String) (id : String) :
    ((ids.map fun i => (i, f i)).lookup id).getD [] = if id ∈ ids then f id else [] := by
  induction ids with
  | nil => rfl
  | cons i rest ih =>
    by_cases h : id = i
    · simp [h]
    · have hne : (id == i) = false := by simpa using h
      simp [List.lookup_cons, hne, h, ih]

theorem lookup_successors (d : Definition) (id : String) :
    (((Text.distinct d.nodeIds).map fun i => (i, d.successors i)).lookup id).getD [] =
      d.successors id := by
  refine (getD_lookup_map d.successors (Text.distinct d.nodeIds) id).trans ?_
  by_cases h : id ∈ d.nodeIds
  · simp [Text.mem_distinct, h]
  · simp [Text.mem_distinct, h, Definition.successors_eq_nil]

/-- The graph of a definition. The successors are looked up in a table that is made once. -/
def ofDefinition (d : Definition) : Graph :=
  let ids := Text.distinct d.nodeIds
  let table := ids.map fun id => (id, d.successors id)
  { nodes := ids
    successors := fun id => (table.lookup id).getD []
    start := if d.startNode ∈ d.nodeIds then some d.startNode else none
    nodup := Text.nodup_distinct d.nodeIds
    ends_mem := by
      intro x y hy
      rw [lookup_successors] at hy
      rw [Text.mem_distinct, Text.mem_distinct]
      exact Definition.ends_mem_nodeIds hy }

@[simp]
theorem ofDefinition_nodes (d : Definition) :
    (ofDefinition d).nodes = Text.distinct d.nodeIds := rfl

@[simp]
theorem ofDefinition_successors (d : Definition) : (ofDefinition d).successors = d.successors :=
  funext (lookup_successors d)

/-- Takes ids from the stack and lists those that were not visited before; the successors of a
listed id go on the stack, the first one on top. -/
def search (successors : String → List String) (unvisited stack : List String) : List String :=
  match stack with
  | [] => []
  | id :: rest =>
    if id ∈ unvisited then
      id :: search successors (unvisited.erase id)
        ((successors id).filter (· ∈ unvisited.erase id) ++ rest)
    else search successors unvisited rest
termination_by (unvisited.length, stack.length)
decreasing_by
  · have := List.length_erase_of_mem ‹id ∈ unvisited›
    have := List.length_pos_of_mem ‹id ∈ unvisited›
    exact Prod.Lex.left _ _ (by omega)
  · exact Prod.Lex.right _ (by simp)

/-- The ids that can be reached from the start, in the order of a search that goes deep first. -/
def reachable (g : Graph) : List String := search g.successors g.nodes g.start.toList

/-- The ids that no run can reach, in increasing order. -/
def unreachable (g : Graph) : List String :=
  Text.nameSet (g.nodes.filter (· ∉ g.reachable))

/-- An id whose visit is under way, with the successors that it has not looked at. -/
structure Visit where
  id : String
  ahead : List String

/-- Visits ids until one leads back into a visit that is under way. Every visit goes through the
successors of its id and visits those that were not visited before; a successor that is neither
unvisited nor on the path of visits has been visited to its end. When the path is empty, the next
unvisited id is taken. -/
def closesCycle (successors : String → List String) (unvisited : List String)
    (path : List Visit) : Bool :=
  match path with
  | [] =>
    match unvisited with
    | [] => false
    | id :: rest => closesCycle successors rest [⟨id, successors id⟩]
  | ⟨_, []⟩ :: outer => closesCycle successors unvisited outer
  | ⟨id, next :: ahead⟩ :: outer =>
    if next ∈ unvisited then
      closesCycle successors (unvisited.erase next)
        (⟨next, successors next⟩ :: ⟨id, ahead⟩ :: outer)
    else if next = id ∨ next ∈ outer.map Visit.id then true
    else closesCycle successors unvisited (⟨id, ahead⟩ :: outer)
termination_by (unvisited.length, (path.flatMap Visit.ahead).length + path.length)
decreasing_by
  · exact Prod.Lex.left _ _ (by simp)
  · exact Prod.Lex.right _ (by simp)
  · have := List.length_erase_of_mem ‹next ∈ unvisited›
    have := List.length_pos_of_mem ‹next ∈ unvisited›
    exact Prod.Lex.left _ _ (by omega)
  · exact Prod.Lex.right _ (by simp)

def hasCycle (g : Graph) : Bool := closesCycle g.successors g.nodes []

end Graph

/-- Findings about a definition that do not keep it from running. -/
def Definition.lint (d : Definition) : List String :=
  let g := Graph.ofDefinition d
  (g.unreachable.map fun id => s!"Node '{id}' is unreachable from start node '{d.startNode}'")
    ++ if g.hasCycle then
      ["Workflow graph contains a cycle; nodes already executed are not run again"]
    else []

end Workflow
