import Mathlib.Data.Nat.Init
import Mathlib.Logic.Relation
import Workflow.Proofs.FirstOccurrences

/-!
Breadth-first order. The order lists the start, then what it leads to, then what that leads to, and
so on, each name once and at its first place. A list in which every name was named before it, and
whose names together with what they lead to have that list as their first occurrences, is in this
order and holds exactly what can be reached.
-/
namespace Workflow.Text

variable (next : String → List String)

/-- What a layer leads to that was not seen. -/
def nextLayer (seen layer : List String) : List String :=
  (distinct (layer.flatMap next)).filter (· ∉ seen ++ layer)

/-- A layer and the layers that follow it, a number of them in all. -/
def layers : (count : Nat) → (seen layer : List String) → List String
  | 0, _, _ => []
  | count + 1, seen, layer =>
    layer ++ layers count (seen ++ layer) (nextLayer next seen layer)

/-- The names that a start leads to in at most a number of layers, in breadth-first order. -/
def breadthFirst (count : Nat) (start : String) : List String := layers next count [] [start]

/-- A list that grew from a start by what its names lead to: it has no name before one that leads
to it, and nothing is left out. -/
structure Grown (start : String) (names : List String) : Prop where
  complete : names = distinct (start :: names.flatMap next)
  named : ∀ before name after, names = before ++ name :: after →
    name ∈ start :: before.flatMap next

variable {next} {start : String} {names : List String}

namespace Grown

theorem nodup (h : Grown next start names) : names.Nodup := by
  rw [h.complete]
  exact nodup_distinct _

theorem start_mem (h : Grown next start names) : start ∈ names := by
  rw [h.complete, mem_distinct]
  exact List.mem_cons_self

theorem next_mem (h : Grown next start names) {x y : String} (hx : x ∈ names)
    (hy : y ∈ next x) : y ∈ names := by
  rw [h.complete, mem_distinct]
  exact List.mem_cons_of_mem _ (List.mem_flatMap.2 ⟨x, hx, hy⟩)

/-- Names behind those that already name all that they lead to: there are none. -/
theorem eq_nil_of_closed (h : Grown next start names) {before after : List String}
    (hnames : names = before ++ after)
    (hclosed : before = distinct (start :: before.flatMap next)) : after = [] := by
  cases after with
  | nil => rfl
  | cons x rest =>
    have hnamed := h.named before x rest hnames
    rw [← mem_distinct, ← hclosed] at hnamed
    have hnodup := h.nodup
    rw [hnames] at hnodup
    exact absurd rfl ((List.nodup_append.1 hnodup).2.2 x hnamed x List.mem_cons_self)

theorem layers_eq (h : Grown next start names) {count : Nat} {seen layer rest : List String}
    (hnames : names = seen ++ layer ++ rest)
    (hseen : seen ++ layer = distinct (start :: seen.flatMap next))
    (hcount : (layer ++ rest).length ≤ count) :
    layers next count seen layer = layer ++ rest := by
  induction count generalizing seen layer rest with
  | zero =>
    rw [List.eq_nil_of_length_eq_zero (Nat.le_zero.1 hcount)]
    rfl
  | succ count ih =>
    -- What the layer leads to comes right behind it.
    have hlayer : distinct (start :: (seen ++ layer).flatMap next) =
        seen ++ layer ++ nextLayer next seen layer := by
      rw [List.flatMap_append, ← List.cons_append, distinct_append, ← hseen, nextLayer]
      congr 1
      apply List.filter_congr
      intro x _
      simp only [hseen, mem_distinct]
    obtain ⟨rest', hrest⟩ : ∃ rest', rest = nextLayer next seen layer ++ rest' := by
      have hwhole := h.complete
      rw [hnames, List.flatMap_append, ← List.cons_append, distinct_append, hlayer,
        List.append_assoc (seen ++ layer)] at hwhole
      exact ⟨_, List.append_cancel_left hwhole⟩
    subst hrest
    rw [layers]
    congr 1
    by_cases hempty : layer = []
    · subst hempty
      have hclosed : names = seen ++ (nextLayer next seen [] ++ rest') := by simpa using hnames
      have hnone := h.eq_nil_of_closed hclosed (by simpa using hseen)
      have hlast : nextLayer next seen [] = [] := rfl
      rw [hnone, List.append_nil, hlast]
      have hend : names = seen ++ [] ++ [] := by
        rw [hclosed, hnone]
        simp
      exact ih hend (by simpa using hseen) (Nat.zero_le _)
    · have hlength := List.length_pos_iff.2 hempty
      refine ih (by rw [hnames, List.append_assoc (seen ++ layer)]) hlayer.symm ?_
      simp only [List.length_append] at hcount ⊢
      omega

/-- A list that grew from a start is in breadth-first order. -/
theorem eq_breadthFirst (h : Grown next start names) {count : Nat}
    (hcount : names.length ≤ count) : names = breadthFirst next count start := by
  obtain ⟨rest, hrest⟩ : ∃ rest, names = start :: rest := ⟨_, h.complete⟩
  have hnames : names = [] ++ [start] ++ rest := hrest
  rw [breadthFirst, h.layers_eq hnames rfl (by rwa [hrest] at hcount)]
  exact hrest

/-- By the place of a name, since whatever leads to it stands before it. -/
theorem reached (h : Grown next start names) (k : Nat) :
    ∀ before x after, names = before ++ x :: after → before.length = k →
      Relation.ReflTransGen (fun y z => z ∈ next y) start x := by
  induction k using Nat.strong_induction_on with
  | h k ih =>
    intro before x after hnames hlength
    rcases List.mem_cons.1 (h.named before x after hnames) with rfl | hnamed
    · exact .refl
    obtain ⟨y, hy, hxy⟩ := List.mem_flatMap.1 hnamed
    obtain ⟨before', after', rfl⟩ := List.append_of_mem hy
    have hshorter : before'.length < k := by
      rw [← hlength, List.length_append, List.length_cons]
      omega
    have hplace : names = before' ++ y :: (after' ++ x :: after) := by
      rw [hnames]
      simp
    exact .tail (ih _ hshorter before' y _ hplace rfl) hxy

/-- A list that grew from a start holds exactly what can be reached from it. -/
theorem mem_iff (h : Grown next start names) {x : String} :
    x ∈ names ↔ Relation.ReflTransGen (fun y z => z ∈ next y) start x := by
  constructor
  · intro hx
    obtain ⟨before, after, hnames⟩ := List.append_of_mem hx
    exact h.reached before.length before x after hnames rfl
  · intro hreach
    induction hreach with
    | refl => exact h.start_mem
    | tail _ hnext ih => exact h.next_mem ih hnext

end Grown

end Workflow.Text
