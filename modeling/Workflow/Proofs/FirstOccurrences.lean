import Workflow.Text.Names

/-!
First occurrences of names. Keeping them commutes with leaving names out, and of two lists in a row
the second one adds what the first one does not have.
-/
namespace Workflow.Text

theorem distinct_filter (p : String → Bool) (names : List String) :
    distinct (names.filter p) = (distinct names).filter p := by
  induction names with
  | nil => rfl
  | cons name rest ih =>
    by_cases h : p name = true
    · simp only [List.filter_cons, h, if_true, distinct, ih, List.filter_filter, Bool.and_comm]
    · have hp : p name = false := by simpa using h
      simp only [List.filter_cons, hp, Bool.false_eq_true, if_false, distinct, ih]
      rw [List.filter_filter]
      apply List.filter_congr
      intro x _
      by_cases hx : x = name
      · simp [hx, hp]
      · simp [hx]

theorem distinct_append (xs ys : List String) :
    distinct (xs ++ ys) = distinct xs ++ (distinct ys).filter (· ∉ xs) := by
  induction xs with
  | nil => exact (List.filter_eq_self.2 (by simp)).symm
  | cons x rest ih =>
    simp only [List.cons_append, distinct, ih, List.filter_append, List.filter_filter]
    congr 2
    apply List.filter_congr
    intro y _
    simp [not_or]

end Workflow.Text
