import Workflow.Proofs.Fallible
import Workflow.Proofs.Trimming
import Workflow.Storage.RunLog

/-!
Texts that fit on a line. The compact text of a value has no line break, whatever its texts hold,
and the text of an object is not blank; so lines that were written one after the other are read as
what was written.
-/
namespace Workflow

/-! ## Texts without line breaks -/

namespace Decimal

theorem notMem_toDigits {c : Char} (hc : c.isDigit = false) (n : Nat) :
    c ∉ Nat.toDigits 10 n := by
  intro h
  rw [Nat.isDigit_of_mem_toDigits (by decide) (by decide) h] at hc
  cases hc

theorem newline_notMem_placePoint {digits : List Char} (h : '\n' ∉ digits) (places : Nat) :
    '\n' ∉ placePoint digits places := by
  have hpadded :
      '\n' ∉ List.replicate (places + 1 - digits.length) '0' ++ digits := by
    simp [List.mem_replicate, h]
  rw [placePoint, List.mem_append, List.mem_cons, not_or, not_or]
  exact ⟨fun hmem => hpadded (List.mem_of_mem_take hmem), by decide,
    fun hmem => hpadded (List.mem_of_mem_drop hmem)⟩

theorem Digits.newline_notMem_positionalText (d : Digits) (wholePoint : Bool) :
    '\n' ∉ d.positionalText wholePoint := by
  have htext : '\n' ∉ d.text := notMem_toDigits rfl _
  rw [positionalText]
  split
  · exact newline_notMem_placePoint htext _
  · cases wholePoint <;> simp [htext, List.mem_replicate]

theorem Digits.newline_notMem_scientificText (d : Digits) {sign : String}
    (hsign : '\n' ∉ sign.toList) : '\n' ∉ d.scientificText sign := by
  have htext : '\n' ∉ d.text := notMem_toDigits rfl _
  have hleading : '\n' ∉ Nat.toDigits 10 d.leading.natAbs := notMem_toDigits rfl _
  simp only [scientificText, List.mem_append, List.mem_cons, not_or]
  refine ⟨?_, by decide, ?_⟩
  · cases hdigits : d.text with
    | nil => exact List.not_mem_nil
    | cons digit rest =>
      rw [hdigits, List.mem_cons, not_or] at htext
      cases rest with
      | nil => simpa using htext.1
      | cons second rest => simpa [htext.1] using htext.2
  · split
    · simpa using hleading
    · simp [hsign, hleading]

theorem Layout.newline_notMem_double {l : Layout}
    (h : ∀ s ∈ [l.exponentSign, l.zero, l.negativeZero, l.infinity, l.notANumber],
      '\n' ∉ s.toList) (x : Float) : '\n' ∉ (l.double x).toList := by
  simp only [List.forall_mem_cons] at h
  obtain ⟨hsign, hzero, hnegative, hinfinity, hnan, -⟩ := h
  have hdigits (d : Digits) : '\n' ∉ (l.ofDigits d).toList := by
    rw [ofDigits, String.toList_ofList]
    split
    · exact d.newline_notMem_positionalText _
    · exact d.newline_notMem_scientificText hsign
  have hminus {s : String} (hs : '\n' ∉ s.toList) : '\n' ∉ ("-" ++ s).toList := by
    simpa [String.toList_append] using hs
  rw [double]
  cases ofDouble x with
  | notANumber => exact hnan
  | infinite negative =>
    cases negative with
    | true => exact hminus hinfinity
    | false => exact hinfinity
  | zero negative =>
    cases negative with
    | true => exact hnegative
    | false => exact hzero
  | finite negative v =>
    cases negative with
    | true => exact hminus (hdigits _)
    | false => exact hdigits _

end Decimal

namespace Json

theorem Number.newline_notMem_text (n : Number) : '\n' ∉ n.text.toList := by
  have hdigits (k : Nat) : '\n' ∉ k.repr.toList := by
    rw [Nat.repr, String.toList_ofList]
    exact Decimal.notMem_toDigits rfl k
  cases n with
  | integer i =>
    cases i with
    | ofNat k => exact hdigits k
    | negSucc k =>
      change '\n' ∉ ("-" ++ (k + 1).repr).toList
      simpa [String.toList_append] using hdigits (k + 1)
  | float x =>
    rw [text]
    split
    · exact Decimal.Layout.newline_notMem_double (by decide) x
    · decide

/-- A line break is written with an escape, as are all control characters. -/
theorem newline_notMem_escapeChar (c : Char) : '\n' ∉ escapeChar c := by
  have hdigit : ∀ n < 16, Nat.digitChar n ≠ '\n' := by decide
  rw [escapeChar]
  split
  · decide
  split
  · decide
  split
  · decide
  split
  · decide
  split
  · decide
  split
  · decide
  split
  · decide
  rename_i hne _ _ _ _
  split
  · have hhigh := hdigit (c.toNat / 16) (by omega)
    have hlow := hdigit (c.toNat % 16) (by omega)
    simp [controlDigits, hhigh.symm, hlow.symm]
  · simpa using Ne.symm hne

theorem newline_notMem_quote (s : String) : '\n' ∉ (quote s).toList := by
  simp [quote, List.mem_flatMap, newline_notMem_escapeChar]

theorem mem_intersperse {α : Type} {x separator : α} {items : List α}
    (h : x ∈ items.intersperse separator) : x = separator ∨ x ∈ items := by
  fun_induction List.intersperse separator items with
  | case1 => exact Or.inr h
  | case2 item => exact Or.inr h
  | case3 item rest hne ih =>
    rcases List.mem_cons.1 h with rfl | h
    · exact Or.inr List.mem_cons_self
    · rcases List.mem_cons.1 h with rfl | h
      · exact Or.inl rfl
      · exact (ih h).imp id (List.mem_cons_of_mem _)

theorem newline_notMem_intercalate (separator : String) {parts : List String}
    (hseparator : '\n' ∉ separator.toList) (h : ∀ part ∈ parts, '\n' ∉ part.toList) :
    '\n' ∉ (separator.intercalate parts).toList := by
  intro hmem
  rw [String.toList_intercalate, List.intercalate, List.mem_flatten] at hmem
  obtain ⟨piece, hpiece, hmem⟩ := hmem
  rcases mem_intersperse hpiece with rfl | hpiece
  · exact hseparator hmem
  · obtain ⟨part, hpart, rfl⟩ := List.mem_map.1 hpiece
    exact h part hpart hmem

mutual

theorem newline_notMem_compact (v : Json) : '\n' ∉ v.compact.toList := by
  cases v with
  | null => decide
  | bool b => cases b <;> decide
  | number n => exact n.newline_notMem_text
  | string s => exact newline_notMem_quote s
  | array items =>
    have hitems :=
      newline_notMem_intercalate "," (by decide) (newline_notMem_compactItems items)
    simpa [compact, String.toList_append] using hitems
  | object fields =>
    have hfields :=
      newline_notMem_intercalate "," (by decide) (newline_notMem_compactFields fields)
    simpa [compact, String.toList_append] using hfields

theorem newline_notMem_compactItems (items : List Json) :
    ∀ s ∈ compactItems items, '\n' ∉ s.toList := by
  cases items with
  | nil => exact List.forall_mem_nil _
  | cons item rest =>
    rw [compactItems, List.forall_mem_cons]
    exact ⟨newline_notMem_compact item, newline_notMem_compactItems rest⟩

theorem newline_notMem_compactFields (fields : List (String × Json)) :
    ∀ s ∈ compactFields fields, '\n' ∉ s.toList := by
  cases fields with
  | nil => exact List.forall_mem_nil _
  | cons field rest =>
    obtain ⟨key, value⟩ := field
    rw [compactFields, List.forall_mem_cons]
    refine ⟨?_, newline_notMem_compactFields rest⟩
    simp [String.toList_append, newline_notMem_quote key, newline_notMem_compact value]

end

end Json

/-! ## Lines of a file -/

namespace Storage.RunLog

open Run (State)

/-- A run whose text is read as the run itself. -/
def ReadsBack (s : State) : Prop := Json.decodeText State.decoder s.document.compact = .ok s

theorem split_linesOf (runs : List State) :
    Text.split '\n' (linesOf runs) = runs.map (fun s => s.document.compact) ++ [""] := by
  induction runs with
  | nil => rfl
  | cons s rest ih =>
    have hfirst : (linesOf (s :: rest)).toList =
        s.document.compact.toList ++ '\n' :: (linesOf rest).toList := by
      simp [linesOf, String.toList_append]
    rw [Text.split_of_joined hfirst, Text.split_of_notMem (Json.newline_notMem_compact _), ih]
    rfl

/-- The text of a run is not blank. -/
theorem trimChars_document (s : State) :
    (Text.trimChars s.document.compact.toList).isEmpty = false := by
  have hopening : '{' ∈ s.document.compact.toList := by
    simp [State.document, Json.compact, String.toList_append]
  have hmem := Text.mem_trimChars hopening (by decide)
  exact List.isEmpty_eq_false_iff_exists_mem.2 ⟨_, hmem⟩

/-- The text of a file is read run by run. -/
theorem runsOf_linesOf_eq (runs : List State) : runsOf (linesOf runs) = runs.mapM fun s =>
    (Json.decodeText State.decoder s.document.compact).mapError fun _ => .parseRecord := by
  have hlines : (Text.split '\n' (linesOf runs)).filter
      (fun line => !(Text.trimChars line.toList).isEmpty) =
        runs.map fun s => s.document.compact := by
    rw [split_linesOf, List.filter_append, List.filter_eq_self.2]
    · exact List.append_nil _
    · intro line hline
      obtain ⟨s, -, rfl⟩ := List.mem_map.1 hline
      rw [trimChars_document]
      rfl
  simp only [runsOf, hlines, List.mapM_map]
  refine congrArg (List.mapM · runs) (funext fun s => ?_)
  rw [Function.comp_apply]
  cases Json.decodeText State.decoder s.document.compact <;> rfl

/-- What was written to a file is read from it. -/
theorem runsOf_linesOf {runs : List State} (h : ∀ s ∈ runs, ReadsBack s) :
    runsOf (linesOf runs) = .ok runs := by
  rw [runsOf_linesOf_eq, Fallible.mapM_eq_map (g := id), List.map_id]
  intro s hs
  rw [show Json.decodeText _ _ = _ from h s hs]
  rfl

end Storage.RunLog

end Workflow
