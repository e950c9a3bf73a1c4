import Workflow.Proofs.Paths

/-!
Cycles. While the ids of a graph are visited, those whose visit is over stand in an order in which
whatever an id leads to is behind it: the last one to end comes first. So if no visit leads back to
one that is under way, all ids end up in such an order, and no path of references comes back.
-/
namespace Workflow

open Relation (TransGen)

namespace Graph

/-! ## Orders -/

section Orders

variable {successors : String → List String} {order : List String} {x y : String}

/-- Whatever an id of a list leads to stands behind it. -/
def Forward (successors : String → List String) : List String → Prop
  | [] => True
  | x :: rest => (∀ y ∈ successors x, y ∈ rest) ∧ Forward successors rest

theorem Forward.mem (h : Forward successors order) (hx : x ∈ order) (hy : y ∈ successors x) :
    y ∈ order := by
  induction order with
  | nil => cases hx
  | cons z rest ih =>
    rcases List.mem_cons.1 hx with rfl | hx
    · exact List.mem_cons_of_mem _ (h.1 y hy)
    · exact List.mem_cons_of_mem _ (ih h.2 hx)

theorem Forward.idxOf_lt (h : Forward successors order) (hnodup : order.Nodup) (hx : x ∈ order)
    (hy : y ∈ successors x) : order.idxOf x < order.idxOf y := by
  induction order with
  | nil => cases hx
  | cons z rest ih =>
    obtain ⟨hz, hnodup⟩ := List.nodup_cons.1 hnodup
    have hyrest : y ∈ rest := by
      rcases List.mem_cons.1 hx with rfl | hx
      · exact h.1 y hy
      · exact h.2.mem hx hy
    have hyz : z ≠ y := by
      rintro rfl
      exact hz hyrest
    rw [List.idxOf_cons_ne _ hyz]
    rcases List.mem_cons.1 hx with rfl | hx
    · rw [List.idxOf_cons_self]
      exact Nat.succ_pos _
    · have hxz : z ≠ x := by
        rintro rfl
        exact hz hx
      rw [List.idxOf_cons_ne _ hxz]
      exact Nat.succ_lt_succ (ih h.2 hnodup hx)

theorem not_transGen_of_idxOf_lt {leads : String → String → Prop}
    (h : ∀ a b, leads a b → order.idxOf a < order.idxOf b) : ¬ TransGen leads x x := by
  have hpath {z : String} (hz : TransGen leads x z) : order.idxOf x < order.idxOf z := by
    induction hz with
    | single hxb => exact h _ _ hxb
    | tail _ hbc ih => exact ih.trans (h _ _ hbc)
  intro hcycle
  exact Nat.lt_irrefl _ (hpath hcycle)

end Orders

/-! ## Visits -/

variable {g : Graph} {unvisited finished ahead : List String} {path outer : List Visit}
  {inner : Option String} {id next : String}

/-- A visit under way, and the visit inside it, if there is one: whatever its id leads to is ahead,
has been visited to its end, or is being visited inside. -/
structure Visit.Underway (successors : String → List String) (finished : List String)
    (inner : Option String) (v : Visit) : Prop where
  leads : ∀ y, y ∈ v.ahead ∨ inner = some y → y ∈ successors v.id
  covers : ∀ y ∈ successors v.id, y ∈ v.ahead ∨ y ∈ finished ∨ inner = some y

/-- The visits of a path are under way, each inside the next one. -/
def Nested (successors : String → List String) (finished : List String) :
    Option String → List Visit → Prop
  | _, [] => True
  | inner, v :: outer =>
    v.Underway successors finished inner ∧ Nested successors finished (some v.id) outer

theorem Visit.Underway.finish {successors : String → List String} {v : Visit}
    (h : v.Underway successors finished inner) (x : String) :
    v.Underway successors (x :: finished) inner where
  leads := h.leads
  covers := by
    intro y hy
    rcases h.covers y hy with hahead | hfinished | hinner
    · exact Or.inl hahead
    · exact Or.inr (Or.inl (List.mem_cons_of_mem _ hfinished))
    · exact Or.inr (Or.inr hinner)

theorem Nested.finish {successors : String → List String}
    (h : Nested successors finished inner path) (x : String) :
    Nested successors (x :: finished) inner path := by
  induction path generalizing inner with
  | nil => trivial
  | cons v outer ih => exact ⟨h.1.finish x, ih h.2⟩

theorem Nested.leave {successors : String → List String} {x : String}
    (h : Nested successors finished (some x) path) :
    Nested successors (x :: finished) none path := by
  cases path with
  | nil => trivial
  | cons v outer =>
    refine ⟨⟨?_, ?_⟩, h.2.finish x⟩
    · rintro y (hahead | hnone)
      · exact h.1.leads y (Or.inl hahead)
      · cases hnone
    · intro y hy
      rcases h.1.covers y hy with hahead | hfinished | hinner
      · exact Or.inl hahead
      · exact Or.inr (Or.inl (List.mem_cons_of_mem _ hfinished))
      · cases hinner
        exact Or.inr (Or.inl List.mem_cons_self)

/-- Every id of a path leads to what is inside. -/
theorem Nested.transGen {successors : String → List String} {x y : String}
    (h : Nested successors finished (some y) path) (hx : x ∈ path.map Visit.id) :
    TransGen (fun a b => b ∈ successors a) x y := by
  induction path generalizing y with
  | nil => cases hx
  | cons v outer ih =>
    have hstep : y ∈ successors v.id := h.1.leads y (Or.inr rfl)
    rcases List.mem_cons.1 hx with rfl | hx
    · exact .single hstep
    · exact .tail (ih h.2 hx) hstep

/-- How far the visits of a graph have come: every id is unvisited, on the path, or one whose visit
is over. -/
structure Progress (g : Graph) (unvisited : List String) (path : List Visit)
    (finished : List String) : Prop where
  perm : (unvisited ++ (path.map Visit.id ++ finished)).Perm g.nodes
  nested : Nested g.successors finished none path
  forward : Forward g.successors finished

namespace Progress

theorem start (g : Graph) : g.Progress g.nodes [] [] where
  perm := by simp
  nested := trivial
  forward := trivial

theorem take {rest : List String} (h : g.Progress (id :: rest) [] finished) :
    g.Progress rest [⟨id, g.successors id⟩] finished where
  perm := List.perm_middle.trans h.perm
  nested := ⟨⟨by simp, fun y hy => Or.inl hy⟩, trivial⟩
  forward := h.forward

theorem leave (h : g.Progress unvisited (⟨id, []⟩ :: outer) finished) :
    g.Progress unvisited outer (id :: finished) where
  perm := (List.perm_middle.append_left unvisited).trans h.perm
  nested := h.nested.2.leave
  forward := by
    refine ⟨?_, h.forward⟩
    intro y hy
    rcases h.nested.1.covers y hy with hahead | hfinished | hinner
    · cases hahead
    · exact hfinished
    · cases hinner

/-- The path with a look at the next successor as a visit inside. -/
theorem nested_some (h : g.Progress unvisited (⟨id, next :: ahead⟩ :: outer) finished) :
    Nested g.successors finished (some next) (⟨id, ahead⟩ :: outer) := by
  refine ⟨⟨?_, ?_⟩, h.nested.2⟩
  · rintro y (hahead | hinner)
    · exact h.nested.1.leads y (Or.inl (List.mem_cons_of_mem _ hahead))
    · cases hinner
      exact h.nested.1.leads next (Or.inl List.mem_cons_self)
  · intro y hy
    rcases h.nested.1.covers y hy with hahead | hfinished | hinner
    · rcases List.mem_cons.1 hahead with rfl | hahead
      · exact Or.inr (Or.inr rfl)
      · exact Or.inl hahead
    · exact Or.inr (Or.inl hfinished)
    · cases hinner

theorem descend (h : g.Progress unvisited (⟨id, next :: ahead⟩ :: outer) finished)
    (hnext : next ∈ unvisited) :
    g.Progress (unvisited.erase next) (⟨next, g.successors next⟩ :: ⟨id, ahead⟩ :: outer)
      finished where
  perm := List.perm_middle.trans
    (((List.perm_cons_erase hnext).symm.append_right _).trans h.perm)
  nested := ⟨⟨by simp, fun y hy => Or.inl hy⟩, h.nested_some⟩
  forward := h.forward

/-- A successor that is neither unvisited nor on the path has been visited to its end. -/
theorem pass (h : g.Progress unvisited (⟨id, next :: ahead⟩ :: outer) finished)
    (hvisited : next ∉ unvisited) (hclosed : ¬ (next = id ∨ next ∈ outer.map Visit.id)) :
    g.Progress unvisited (⟨id, ahead⟩ :: outer) finished where
  perm := h.perm
  nested := by
    have hmem : next ∈ g.nodes :=
      (g.ends_mem (h.nested.1.leads next (Or.inl List.mem_cons_self))).2
    rw [← h.perm.mem_iff, List.mem_append, List.mem_append, List.map_cons, List.mem_cons] at hmem
    have hfinished : next ∈ finished := (hmem.resolve_left hvisited).resolve_left hclosed
    obtain ⟨⟨hleads, hcovers⟩, houter⟩ := h.nested_some
    refine ⟨⟨?_, ?_⟩, houter⟩
    · rintro y (hahead | hnone)
      · exact hleads y (Or.inl hahead)
      · cases hnone
    · intro y hy
      rcases hcovers y hy with hahead | hover | hinner
      · exact Or.inl hahead
      · exact Or.inr (Or.inl hover)
      · cases hinner
        exact Or.inr (Or.inl hfinished)
  forward := h.forward

/-- A successor that is on the path leads back to itself. -/
theorem transGen (h : g.Progress unvisited (⟨id, next :: ahead⟩ :: outer) finished)
    (hclosed : next = id ∨ next ∈ outer.map Visit.id) :
    TransGen (fun a b => b ∈ g.successors a) next next :=
  h.nested_some.transGen (List.mem_cons.2 hclosed)

/-- What the visits come to: a cycle, or an order of all ids. -/
theorem closesCycle_spec (h : g.Progress unvisited path finished) :
    if closesCycle g.successors unvisited path then
      ∃ x, TransGen (fun a b => b ∈ g.successors a) x x
    else ∃ order : List String, order.Perm g.nodes ∧ Forward g.successors order := by
  fun_induction closesCycle g.successors unvisited path generalizing finished with
  | case1 => exact ⟨finished, h.perm, h.forward⟩
  | case2 id rest ih => exact ih h.take
  | case3 unvisited id outer ih => exact ih h.leave
  | case4 unvisited id next ahead outer hnext ih => exact ih (h.descend hnext)
  | case5 unvisited id next ahead outer hnext hclosed => exact ⟨next, h.transGen hclosed⟩
  | case6 unvisited id next ahead outer hnext hclosed ih => exact ih (h.pass hnext hclosed)

end Progress

/-! ## Graphs -/

theorem exists_transGen_of_hasCycle (h : g.hasCycle = true) :
    ∃ x, TransGen (fun a b => b ∈ g.successors a) x x := by
  have hspec := (Progress.start g).closesCycle_spec
  rwa [show closesCycle g.successors g.nodes [] = true from h] at hspec

theorem exists_order_of_hasCycle_eq_false (h : g.hasCycle = false) : ∃ order : List String,
    order.Perm g.nodes ∧ ∀ x y, y ∈ g.successors x → order.idxOf x < order.idxOf y := by
  have hspec := (Progress.start g).closesCycle_spec
  rw [show closesCycle g.successors g.nodes [] = false from h] at hspec
  obtain ⟨order, hperm, hforward⟩ := hspec
  refine ⟨order, hperm, ?_⟩
  intro x y hy
  have hx : x ∈ order := hperm.mem_iff.2 (g.ends_mem hy).1
  exact hforward.idxOf_lt (hperm.nodup_iff.2 g.nodup) hx hy

theorem hasCycle_iff :
    g.hasCycle = true ↔ ∃ x, TransGen (fun a b => b ∈ g.successors a) x x := by
  refine ⟨exists_transGen_of_hasCycle, ?_⟩
  rintro ⟨x, hx⟩
  by_contra h
  obtain ⟨order, -, horder⟩ := exists_order_of_hasCycle_eq_false (Bool.eq_false_of_not_eq_true h)
  exact not_transGen_of_idxOf_lt horder hx

/-- A graph has no cycle just if its ids can be ordered so that every id comes before whatever it
leads to. -/
theorem hasCycle_eq_false_iff : g.hasCycle = false ↔ ∃ order : List String,
    order.Perm g.nodes ∧ ∀ x y, y ∈ g.successors x → order.idxOf x < order.idxOf y := by
  refine ⟨exists_order_of_hasCycle_eq_false, ?_⟩
  rintro ⟨order, -, horder⟩
  apply Bool.eq_false_of_not_eq_true
  intro h
  obtain ⟨x, hx⟩ := exists_transGen_of_hasCycle h
  exact not_transGen_of_idxOf_lt horder hx

/-- Whether a definition has a cycle. It has one just if a path of one or more references leads from
some id back to it, and it has none just if the ids can be listed, each once, so that every
reference leads from an id to one that stands behind it. -/
theorem hasCycle_paths (d : Definition) :
    ((ofDefinition d).hasCycle = true ↔ ∃ x ∈ d.nodeIds, TransGen d.Leads x x) ∧
    ((ofDefinition d).hasCycle = false ↔ ∃ order : List String, order.Nodup ∧
      (∀ x, x ∈ order ↔ x ∈ d.nodeIds) ∧
      ∀ x y, d.Leads x y → order.idxOf x < order.idxOf y) := by
  constructor
  · rw [hasCycle_iff, leads_ofDefinition]
    constructor
    · rintro ⟨x, hx⟩
      obtain ⟨y, -, hy⟩ := TransGen.tail'_iff.1 hx
      exact ⟨x, hy.1, hx⟩
    · rintro ⟨x, -, hx⟩
      exact ⟨x, hx⟩
  · rw [hasCycle_eq_false_iff]
    simp only [ofDefinition_successors, Definition.mem_successors_iff]
    refine exists_congr fun order => ?_
    rw [← and_assoc]
    refine and_congr_left fun _ => ?_
    constructor
    · intro hperm
      refine ⟨hperm.nodup_iff.2 (ofDefinition d).nodup, ?_⟩
      intro x
      rw [hperm.mem_iff, ofDefinition_nodes, Text.mem_distinct]
    · rintro ⟨hnodup, hmem⟩
      rw [List.perm_ext_iff_of_nodup hnodup (ofDefinition d).nodup]
      intro x
      rw [hmem, ofDefinition_nodes, Text.mem_distinct]

end Graph

end Workflow
