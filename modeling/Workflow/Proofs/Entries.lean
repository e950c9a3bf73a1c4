import Workflow.Proofs.Files

/-!
The entries of directories, by their paths. A path and one more name lead to the entry of this name
in whatever is at the end of the path, however the path is written: with a slash at its end or at
its front, with points for steps, or without any step.
-/
namespace Workflow.Storage

/-! ## Steps -/

/-- The name of an entry of a directory. -/
structure IsEntry (name : String) : Prop where
  not_empty : name ≠ ""
  not_dots : name ∉ [".", ".."]
  no_slash : '/' ∉ name.toList

/-- The steps between the slashes of a path that has some. -/
def stepsOf : List String → List String
  | "" :: rest => top :: rest.map stepOf
  | parts => parts.map stepOf

theorem split_ne_singleton {path : String} (h : path ≠ "") : Text.split '/' path ≠ [""] := by
  intro hsplit
  unfold Text.split at hsplit
  cases hpath : path.toList with
  | nil => exact h (String.toList_eq_nil_iff.1 hpath)
  | cons c rest =>
    rw [hpath, Text.splitOn] at hsplit
    have hrest := Text.splitOn_ne_nil '/' rest
    by_cases hc : c = '/'
    · simp [hc, hrest] at hsplit
    · rw [if_neg hc] at hsplit
      cases hpieces : Text.splitOn '/' rest with
      | nil => exact hrest hpieces
      | cons piece pieces => simp [hpieces] at hsplit

theorem steps_eq {path : String} (h : path ≠ "") : steps path = stepsOf (Text.split '/' path) := by
  have hsplit := split_ne_singleton h
  unfold steps
  split
  · rename_i heq
    exact absurd heq hsplit
  · rename_i heq
    rw [heq, stepsOf]
  · rename_i hempty hslash
    generalize Text.split '/' path = parts at hslash ⊢
    cases parts with
    | nil => rfl
    | cons first rest =>
      have hfirst : first ≠ "" := by
        rintro rfl
        exact hslash rest rfl
      rw [stepsOf]
      rintro rest' ⟨⟩
      exact hfirst rfl

theorem stepsOf_append {parts : List String} (h : parts ≠ []) (part : String) :
    stepsOf (parts ++ [part]) = stepsOf parts ++ [stepOf part] := by
  cases parts with
  | nil => exact absurd rfl h
  | cons first rest =>
    by_cases hfirst : first = ""
    · subst hfirst
      simp [stepsOf]
    · simp [stepsOf, hfirst]

theorem split_append (front : String) {name : String} (h : '/' ∉ name.toList) :
    Text.split '/' (front ++ "/" ++ name) = Text.split '/' front ++ [name] := by
  have hlist : (front ++ "/" ++ name).toList = front.toList ++ '/' :: name.toList := by simp
  rw [Text.split_of_joined hlist, Text.split_of_notMem h]

theorem stepOf_of_ne {part : String} (h : part ≠ "") : stepOf part = part := by
  unfold stepOf
  rw [if_neg (by simpa using h)]

/-- A path ends with a slash, or it has another end. -/
theorem endsWith_slash_iff {path : String} :
    path.endsWith "/" = true ↔ ∃ front, path = front ++ "/" := by
  rw [String.endsWith_eq_endsWith_toSlice, String.Slice.endsWith_string_iff]
  constructor
  · rintro ⟨front, hfront⟩
    refine ⟨String.ofList front, ?_⟩
    rw [← String.toList_inj, String.toList_append, String.toList_ofList, hfront]
    simp
  · rintro ⟨front, rfl⟩
    refine ⟨front.toList, ?_⟩
    simp

/-- A step to an entry is one more step, in place of the last one if that leads nowhere. -/
theorem steps_join (base : String) {name : String} (h : IsEntry name) :
    steps (join base name) = steps base ++ [name] ∨
      ∃ front, steps base = front ++ ["."] ∧ steps (join base name) = front ++ [name] := by
  have hstart : name.startsWith "/" = false := by
    rw [String.startsWith_string_eq_false_iff]
    intro hstart
    exact h.no_slash (hstart.subset (by decide))
  have hsplit (front : String) : stepsOf (Text.split '/' (front ++ "/" ++ name)) =
      stepsOf (Text.split '/' front) ++ [name] := by
    rw [split_append front h.no_slash, stepsOf_append (Text.split_ne_nil '/' front),
      stepOf_of_ne h.not_empty]
  have hpath (front : String) : front ++ "/" ++ name ≠ "" := by simp
  unfold join
  rw [hstart, Bool.false_or]
  by_cases hempty : base = ""
  · subst hempty
    refine Or.inl ?_
    rw [if_pos (by rfl), steps_eq h.not_empty, Text.split_of_notMem h.no_slash]
    simp [stepsOf, h.not_empty, stepOf_of_ne, steps, Text.split, Text.splitOn]
  · rw [if_neg (by simpa using hempty)]
    by_cases hend : base.endsWith "/" = true
    · obtain ⟨front, rfl⟩ := endsWith_slash_iff.1 hend
      refine Or.inr ⟨stepsOf (Text.split '/' front), ?_, ?_⟩
      · have hfront : Text.split '/' (front ++ "/" ++ "") = Text.split '/' front ++ [""] :=
          split_append front (by decide)
        rw [String.append_empty] at hfront
        rw [steps_eq hempty, hfront, stepsOf_append (Text.split_ne_nil '/' front)]
        rfl
      · rw [if_pos hend, steps_eq (hpath front), hsplit]
    · refine Or.inl ?_
      rw [if_neg hend]
      change steps (base ++ "/" ++ name) = _
      rw [steps_eq (hpath base), hsplit, steps_eq hempty]

/-! ## Entries of directories -/

namespace Tree

theorem exists_child?_iff {entries : List (String × Tree)} {name : String} :
    (∃ u, child? entries name = some u) ↔ name ∈ entries.map Prod.fst := by
  rw [← Option.isSome_iff_exists, child?, Option.isSome_map, List.find?_isSome]
  simp

theorem follow_append (t : Tree) (place : Path) (steps steps' : List String) :
    t.follow place (steps ++ steps') = t.follow place steps >>= fun p => t.follow p steps' := by
  induction steps generalizing place with
  | nil => rfl
  | cons step rest ih =>
    rw [List.cons_append, follow, follow]
    split
    · cases t.look place with
      | error reason => rfl
      | ok u =>
        cases u with
        | file content => rfl
        | directory entries => exact ih _
    · exact ih _

theorem follow_entry (t : Tree) (place : Path) {name : String} (h : IsEntry name) :
    t.follow place [name] = .ok (place ++ [name]) := by
  have hdots : name ≠ "." ∧ name ≠ ".." := by simpa using h.not_dots
  simp [follow, next, hdots]

/-- What is at the end of a path and one more step is the entry in what is at its end. -/
theorem find_join (t : Tree) (base : String) {name : String} (h : IsEntry name) :
    t.find (join base name) = t.find base >>= fun u => u.look [name] := by
  unfold find
  rcases steps_join base h with hjoin | ⟨front, hbase, hjoin⟩
  · rw [hjoin, follow_append]
    cases t.follow [] (steps base) with
    | error reason => rfl
    | ok place =>
      change (t.follow place [name] >>= t.look) = t.look place >>= _
      rw [follow_entry t place h]
      exact look_append_eq t place [name]
  · rw [hjoin, hbase, follow_append, follow_append]
    cases t.follow [] front with
    | error reason => rfl
    | ok place =>
      change (t.follow place [name] >>= t.look) = (t.follow place ["."] >>= t.look) >>= _
      rw [follow_entry t place h]
      change t.look (place ++ [name]) = _
      rw [look_append_eq, follow, if_pos (by rfl)]
      cases hplace : t.look place with
      | error reason => rfl
      | ok u =>
        cases u with
        | file content => rfl
        | directory entries =>
          change _ = t.look place >>= _
          rw [hplace]

end Tree

end Workflow.Storage
