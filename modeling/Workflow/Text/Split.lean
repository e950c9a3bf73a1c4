/-!
Cutting a text at a separating character, everywhere or at its first occurrence. Main statements:
cutting a text that was put together around a separator gives the pieces of its two halves; the
first occurrence is the one with no other in front of it.
-/
namespace Workflow.Text

/-- The pieces between the separators; there is always at least one. -/
def splitOn (separator : Char) : List Char → List (List Char)
  | [] => [[]]
  | c :: rest =>
    if c = separator then [] :: splitOn separator rest
    else match splitOn separator rest with
      | [] => [[c]]
      | piece :: pieces => (c :: piece) :: pieces

/-- The pieces of a text between the separators. -/
def split (separator : Char) (s : String) : List String :=
  (splitOn separator s.toList).map String.ofList

theorem splitOn_ne_nil (separator : Char) (s : List Char) : splitOn separator s ≠ [] := by
  cases s with
  | nil => simp [splitOn]
  | cons c rest =>
    by_cases h : c = separator
    · simp [splitOn, h]
    · cases hr : splitOn separator rest <;> simp [splitOn, h, hr]

theorem splitOn_append (separator : Char) (s t : List Char) :
    splitOn separator (s ++ separator :: t) = splitOn separator s ++ splitOn separator t := by
  induction s with
  | nil => simp [splitOn]
  | cons c rest ih =>
    by_cases h : c = separator
    · simp [splitOn, h, ih]
    · cases hr : splitOn separator rest with
      | nil => exact absurd hr (splitOn_ne_nil separator rest)
      | cons piece pieces => simp [splitOn, h, ih, hr]

theorem splitOn_of_notMem (separator : Char) (s : List Char) (h : separator ∉ s) :
    splitOn separator s = [s] := by
  induction s with
  | nil => rfl
  | cons c rest ih =>
    simp only [List.mem_cons, not_or] at h
    simp [splitOn, Ne.symm h.1, ih h.2]

theorem split_ne_nil (separator : Char) (s : String) : split separator s ≠ [] := by
  rw [split, ne_eq, List.map_eq_nil_iff]
  exact splitOn_ne_nil separator s.toList

theorem split_of_joined {separator : Char} {s front behind : String}
    (h : s.toList = front.toList ++ separator :: behind.toList) :
    split separator s = split separator front ++ split separator behind := by
  rw [split, h, splitOn_append, List.map_append]
  rfl

theorem split_of_notMem {separator : Char} {s : String} (h : separator ∉ s.toList) :
    split separator s = [s] := by
  rw [split, splitOn_of_notMem separator _ h, List.map_singleton, String.ofList_toList]

/-- The text in front of the first separator and the text behind it, if there is one. -/
def cut? (separator : Char) : List Char → Option (List Char × List Char)
  | [] => none
  | c :: rest =>
    if c = separator then some ([], rest)
    else (cut? separator rest).map fun cut => (c :: cut.1, cut.2)

theorem cut?_append {separator : Char} {front : List Char} (h : separator ∉ front)
    (behind : List Char) :
    cut? separator (front ++ separator :: behind) = some (front, behind) := by
  induction front with
  | nil => simp [cut?]
  | cons c rest ih =>
    simp only [List.mem_cons, not_or] at h
    simp [cut?, Ne.symm h.1, ih h.2]

theorem cut?_eq_none_iff {separator : Char} {s : List Char} :
    cut? separator s = none ↔ separator ∉ s := by
  induction s with
  | nil => simp [cut?]
  | cons c rest ih =>
    by_cases h : c = separator
    · simp [cut?, h]
    · simp [cut?, h, ih, Ne.symm h]

theorem cut?_eq_some_iff {separator : Char} {s front behind : List Char} :
    cut? separator s = some (front, behind) ↔
      separator ∉ front ∧ s = front ++ separator :: behind := by
  constructor
  · intro h
    induction s generalizing front with
    | nil => simp [cut?] at h
    | cons c rest ih =>
      by_cases hc : c = separator
      · simp only [cut?, hc, if_true, Option.some.injEq, Prod.mk.injEq] at h
        obtain ⟨rfl, rfl⟩ := h
        exact ⟨List.not_mem_nil, by rw [hc]; rfl⟩
      · simp only [cut?, hc, if_false, Option.map_eq_some_iff, Prod.mk.injEq] at h
        obtain ⟨⟨shorter, _⟩, hrest, rfl, rfl⟩ := h
        obtain ⟨hfront, rfl⟩ := ih hrest
        exact ⟨by simp [Ne.symm hc, hfront], rfl⟩
  · rintro ⟨hfront, rfl⟩
    exact cut?_append hfront behind

theorem length_of_cut? {separator : Char} {s front behind : List Char}
    (h : cut? separator s = some (front, behind)) : behind.length < s.length := by
  obtain ⟨-, rfl⟩ := cut?_eq_some_iff.1 h
  simp only [List.length_append, List.length_cons]
  omega

end Workflow.Text
