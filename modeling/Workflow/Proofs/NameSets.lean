import Mathlib.Data.List.Perm.Basic
import Mathlib.Data.List.Sort
import Mathlib.Data.String.Basic
import Workflow.Text.Names

/-!
Sets of names and lists without repetition. A set of names is strictly increasing, so its members
determine it; those of a list without repetition determine it but for the order.
-/
namespace Workflow.Text

theorem distinct_perm {names others : List String} (h : ∀ x, x ∈ names ↔ x ∈ others) :
    (distinct names).Perm (distinct others) := by
  apply (List.perm_ext_iff_of_nodup (nodup_distinct names) (nodup_distinct others)).2
  intro x
  rw [mem_distinct, mem_distinct, h]

theorem pairwise_insertName (name : String) {names : List String}
    (h : names.Pairwise (· < ·)) : (insertName name names).Pairwise (· < ·) := by
  induction names with
  | nil => simp [insertName]
  | cons other rest ih =>
    obtain ⟨hother, hrest⟩ := List.pairwise_cons.1 h
    rw [insertName]
    split
    · rename_i hlt
      refine List.pairwise_cons.2 ⟨fun x hx => ?_, h⟩
      rcases List.mem_cons.1 hx with rfl | hx
      · exact hlt
      · exact hlt.trans (hother x hx)
    split
    · exact h
    · rename_i hle hne
      refine List.pairwise_cons.2 ⟨fun x hx => ?_, ih hrest⟩
      rcases mem_insertName.1 hx with rfl | hx
      · exact lt_of_le_of_ne (not_lt.1 hle) (Ne.symm hne)
      · exact hother x hx

theorem pairwise_nameSet (names : List String) : (nameSet names).Pairwise (· < ·) := by
  induction names with
  | nil => exact List.Pairwise.nil
  | cons name rest ih => exact pairwise_insertName name ih

/-- A set of names is determined by its members. -/
theorem nameSet_eq {names others : List String} (h : ∀ x, x ∈ names ↔ x ∈ others) :
    nameSet names = nameSet others := by
  have hnames := pairwise_nameSet names
  have hothers := pairwise_nameSet others
  have hperm : (nameSet names).Perm (nameSet others) := by
    apply (List.perm_ext_iff_of_nodup (hnames.imp ne_of_lt) (hothers.imp ne_of_lt)).2
    intro x
    rw [mem_nameSet, mem_nameSet, h]
  exact hperm.eq_of_pairwise (fun _ _ _ _ hlt hgt => absurd hgt hlt.asymm) hnames hothers

end Workflow.Text
