import Mathlib.Tactic.IntervalCases
import Workflow.Run.Id
import Workflow.Text.Split

/-!
The texts of ids are read back: the digits between the hyphens are those of the groups. Whatever
else is read as an id is one with 32 digits in small letters.
-/
namespace Workflow.Run.Id

/-- An id has 32 hexadecimal digits in small letters. -/
structure Proper (id : Id) : Prop where
  length : id.digits.length = 32
  isHex : ∀ c ∈ id.digits, isHex c = true
  small : ∀ c ∈ id.digits, c.toLower = c

theorem groups_eq (s : List Char) : groups s = Text.splitOn '-' s := by
  induction s with
  | nil => rfl
  | cons c s ih =>
    rw [groups, ih]
    rfl

theorem hyphen_notMem_of_isHex {g : List Char} (h : ∀ c ∈ g, isHex c = true) : '-' ∉ g :=
  fun hmem => absurd (h '-' hmem) (by decide)

/-- A text that begins with a hexadecimal digit is nothing but its body. -/
theorem unwrap_of_isHex {c : Char} {s : List Char} (h : isHex c = true) :
    unwrap (c :: s) = (c :: s, 0, true) := by
  have hbrace : c ≠ '{' := by
    rintro rfl
    exact absurd h (by decide)
  have hmarker : ("urn:uuid:".toList.isPrefixOf (c :: s)) = false := by
    have hu : 'u' ≠ c := by
      rintro rfl
      exact absurd h (by decide)
    rw [Bool.eq_false_iff]
    intro hprefix
    exact hu (List.cons_prefix_cons.1 (List.isPrefixOf_iff_prefix.1 hprefix)).1
  rw [unwrap.eq_def]
  split
  · rename_i hc _
    exact absurd (List.cons.inj hc).1 hbrace
  · simp only [hmarker]
    rfl

/-- The groups of the text of an id. -/
theorem groups_text {id : Id} (h : id.Proper) : groups id.text.toList =
    [id.digits.take 8, (id.digits.drop 8).take 4, (id.digits.drop 12).take 4,
      (id.digits.drop 16).take 4, id.digits.drop 20] := by
  have hfree {part : List Char} (hpart : part ⊆ id.digits) : Text.splitOn '-' part = [part] :=
    Text.splitOn_of_notMem '-' part (hyphen_notMem_of_isHex fun c hc => h.isHex c (hpart hc))
  have hmiddle (m n : Nat) : (id.digits.drop m).take n ⊆ id.digits :=
    List.Subset.trans (List.take_subset _ _) (List.drop_subset _ _)
  rw [text, String.toList_ofList, groups_eq]
  simp only [List.append_assoc, List.cons_append, Text.splitOn_append,
    hfree (List.take_subset _ _), hfree (hmiddle _ _), hfree (List.drop_subset _ _)]
  rfl

/-- The text of an id is read as the id. -/
theorem ofText_text {id : Id} (h : id.Proper) : ofText id.text = .ok id := by
  have hgroups := groups_text h
  obtain ⟨c, rest, hc, htext⟩ : ∃ c rest, isHex c = true ∧ id.text.toList = c :: rest := by
    obtain ⟨c, rest, hdigits⟩ := List.exists_cons_of_length_eq_add_one h.length
    rw [text, String.toList_ofList, hdigits]
    exact ⟨c, _, h.isHex c (hdigits ▸ List.mem_cons_self), rfl⟩
  have hdigits : (groups id.text.toList).flatten = id.digits := by
    have hsplit (m n : Nat) :
        (id.digits.drop m).take n ++ id.digits.drop (m + n) = id.digits.drop m := by
      rw [← List.drop_drop, List.take_append_drop]
    rw [hgroups]
    simp only [List.flatten_cons, List.flatten_nil, List.append_nil, hsplit 16 4, hsplit 12 4,
      hsplit 8 4]
    exact List.take_append_drop 8 _
  have hlengths : (groups id.text.toList).map List.length = groupLengths := by
    rw [hgroups]
    simp [h.length, groupLengths]
  have hall : id.digits.all isHex = true := List.all_eq_true.2 h.isHex
  have hsmall : id.digits.map Char.toLower = id.digits :=
    (List.map_congr_left h.small).trans (List.map_id _)
  rw [ofText, htext, unwrap_of_isHex hc, ← htext]
  simp only [hdigits, hlengths, hall, hsmall]
  rfl

/-- An id that is written is read back. -/
theorem decoder_toJson {id : Id} (h : id.Proper) : decoder (.ofJson id.toJson) = .ok id := by
  rw [toJson, Json.Draft.ofJson, decoder, ofText_text h]

/-! ## Other texts -/

theorem isHex_iff {c : Char} : isHex c = true ↔ (48 ≤ c.toNat ∧ c.toNat ≤ 57) ∨
    (97 ≤ c.toNat ∧ c.toNat ≤ 102) ∨ (65 ≤ c.toNat ∧ c.toNat ≤ 70) := by
  have hdigit : c.isDigit = true ↔ 48 ≤ c.toNat ∧ c.toNat ≤ 57 := by
    simp only [Char.isDigit, Bool.and_eq_true, decide_eq_true_eq, ge_iff_le,
      UInt32.le_iff_toNat_le]
    rfl
  have hsmall : ('a' ≤ c ∧ c ≤ 'f') ↔ 97 ≤ c.toNat ∧ c.toNat ≤ 102 := Iff.rfl
  have hlarge : ('A' ≤ c ∧ c ≤ 'F') ↔ 65 ≤ c.toNat ∧ c.toNat ≤ 70 := Iff.rfl
  simp only [isHex, Text.hexDigit?, hdigit, hsmall, hlarge]
  split_ifs <;> simp [*]

theorem isHex_toLower {c : Char} (h : isHex c = true) :
    isHex c.toLower = true ∧ c.toLower.toLower = c.toLower := by
  have hchar := Char.ofNat_toNat c
  have hranges := isHex_iff.1 h
  generalize c.toNat = n at hchar hranges
  subst hchar
  rcases hranges with ⟨hlow, hhigh⟩ | ⟨hlow, hhigh⟩ | ⟨hlow, hhigh⟩ <;>
    interval_cases n <;> decide

theorem groups_of_length_eq_one {s : List Char} (h : (groups s).length = 1) : groups s = [s] := by
  rw [groups_eq] at h ⊢
  refine Text.splitOn_of_notMem _ _ fun hmem => ?_
  obtain ⟨before, behind, rfl⟩ := List.append_of_mem hmem
  rw [Text.splitOn_append, List.length_append] at h
  have hbefore := List.length_pos_iff.2 (Text.splitOn_ne_nil '-' before)
  have hbehind := List.length_pos_iff.2 (Text.splitOn_ne_nil '-' behind)
  omega

/-- A text that is nothing but its body is its body. -/
theorem eq_of_unwrap {s body : List Char} {start : Nat} (h : unwrap s = (body, start, true)) :
    body = s := by
  rw [unwrap.eq_def] at h
  split at h
  · cases h
  · dsimp only at h
    split at h
    · cases h
    · cases h
      rfl

/-- What a text is read as is an id in small letters. -/
theorem proper_of_ofText {text : String} {id : Id} (h : ofText text = .ok id) : id.Proper := by
  rw [ofText] at h
  rcases hunwrap : unwrap text.toList with ⟨body, start, isPlain⟩
  rw [hunwrap] at h
  dsimp only at h
  split at h
  · rename_i hgood
    obtain rfl := Except.ok.inj h
    rw [Bool.and_eq_true, Bool.or_eq_true, Bool.and_eq_true, Bool.and_eq_true, decide_eq_true_eq,
      decide_eq_true_eq, decide_eq_true_eq, List.all_eq_true] at hgood
    obtain ⟨hhex, hlengths⟩ := hgood
    have hlength : (groups body).flatten.length = 32 := by
      rcases hlengths with hlengths | ⟨⟨hplain, hone⟩, hlength⟩
      · rw [List.length_flatten, hlengths]
        rfl
      · subst hplain
        rw [groups_of_length_eq_one hone, eq_of_unwrap hunwrap, List.flatten_singleton]
        exact hlength
    refine ⟨by rw [List.length_map, hlength], ?_, ?_⟩
    · exact List.forall_mem_map.2 fun c hc => (isHex_toLower (hhex c hc)).1
    · exact List.forall_mem_map.2 fun c hc => (isHex_toLower (hhex c hc)).2
  · cases h

theorem proper_of_decoder {d : Json.Draft} {id : Id} (h : decoder d = .ok id) : id.Proper := by
  rw [decoder.eq_def] at h
  split at h
  · split at h
    · rename_i hread
      obtain rfl := Except.ok.inj h
      exact proper_of_ofText hread
    · cases h
  · cases d <;> cases h

end Workflow.Run.Id
