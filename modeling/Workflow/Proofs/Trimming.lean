import Mathlib.Data.List.TakeWhile
import Workflow.Text.Blank

/-!
Trimmed texts. A text is what trimming leaves of another one just when it has no blank at its ends
and the other one is it with blanks around it; so nothing but blanks is lost, and all of them are
at the ends.
-/
namespace Workflow.Text

variable {s t w : List Char} {c : Char}

/-! ## Blanks -/

/-- The code points of the blanks. -/
def blankCodes : List Nat :=
  [0x9, 0xA, 0xB, 0xC, 0xD, 0x20, 0x85, 0xA0, 0x1680, 0x2000, 0x2001, 0x2002, 0x2003, 0x2004,
    0x2005, 0x2006, 0x2007, 0x2008, 0x2009, 0x200A, 0x2028, 0x2029, 0x202F, 0x205F, 0x3000]

theorem isBlank_iff_mem : isBlank c = true ↔ c.toNat ∈ blankCodes := by
  simp only [isBlank, blankCodes, Bool.or_eq_true, Bool.and_eq_true, decide_eq_true_eq, beq_iff_eq,
    List.mem_cons, List.not_mem_nil, or_false]
  omega

/-- A text of blanks alone, or of nothing. -/
def Blank (w : List Char) : Prop := ∀ c ∈ w, isBlank c = true

instance (w : List Char) : Decidable (Blank w) :=
  decidable_of_iff (w.all isBlank = true) List.all_eq_true

theorem Blank.reverse (h : Blank w) : Blank w.reverse :=
  fun c hc => h c (List.mem_reverse.1 hc)

theorem Blank.notMem (h : Blank w) (hc : isBlank c = false) : c ∉ w := by
  intro hmem
  rw [h c hmem] at hc
  cases hc

/-- A text with blanks around it. -/
def Padded (s t : List Char) : Prop := ∃ w w', Blank w ∧ Blank w' ∧ s = w ++ t ++ w'

/-! ## Trimming at one end -/

theorem trimStart_of_blank (h : Blank w) (s : List Char) : trimStart (w ++ s) = trimStart s :=
  List.dropWhile_append_of_pos h

theorem trimStart_eq_iff : trimStart s = t ↔
    (∀ c ∈ t.head?, isBlank c = false) ∧ ∃ w, Blank w ∧ s = w ++ t := by
  constructor
  · rintro rfl
    refine ⟨?_, s.takeWhile isBlank, fun c => List.mem_takeWhile_imp,
      List.takeWhile_append_dropWhile.symm⟩
    intro c hc
    have hhead := List.head?_dropWhile_not isBlank s
    rw [show (s.dropWhile isBlank).head? = some c from hc] at hhead
    exact hhead
  · rintro ⟨hhead, w, hw, rfl⟩
    rw [trimStart_of_blank hw]
    cases t with
    | nil => rfl
    | cons c rest => exact List.dropWhile_cons_of_neg (by simp [hhead c rfl])

/-- The back of a text is the front of its mirror image. -/
theorem trimEnd_eq_iff : trimEnd s = t ↔
    (∀ c ∈ t.getLast?, isBlank c = false) ∧ ∃ w, Blank w ∧ s = t ++ w := by
  have hmirror : trimEnd s = t ↔ trimStart s.reverse = t.reverse := List.reverse_eq_iff
  rw [hmirror, trimStart_eq_iff, List.head?_reverse]
  refine and_congr_right fun _ => ⟨?_, ?_⟩
  · rintro ⟨w, hw, heq⟩
    exact ⟨w.reverse, hw.reverse, by rw [← s.reverse_reverse, heq, List.reverse_append,
      List.reverse_reverse]⟩
  · rintro ⟨w, hw, rfl⟩
    exact ⟨w.reverse, hw.reverse, List.reverse_append⟩

/-! ## Trimming at both ends -/

/-- A text without blanks at its ends. -/
structure Trimmed (t : List Char) : Prop where
  front : ∀ c ∈ t.head?, isBlank c = false
  back : ∀ c ∈ t.getLast?, isBlank c = false

theorem Trimmed.of_forall (h : ∀ c ∈ t, isBlank c = false) : Trimmed t where
  front c hc := h c (List.mem_of_head? hc)
  back c hc := h c (List.mem_of_getLast? hc)

theorem trimChars_eq_iff : trimChars s = t ↔ Trimmed t ∧ Padded s t := by
  constructor
  · intro h
    obtain ⟨hback, w', hw', hstart⟩ := trimEnd_eq_iff.1 h
    obtain ⟨hfront, w, hw, hs⟩ := trimStart_eq_iff.1 hstart
    refine ⟨⟨?_, hback⟩, w, w', hw, hw', by rw [hs, List.append_assoc]⟩
    intro c hc
    apply hfront
    rw [Option.mem_def] at hc ⊢
    rw [List.head?_append, hc, Option.some_or]
  · rintro ⟨⟨hfront, hback⟩, w, w', hw, hw', rfl⟩
    rw [trimChars, List.append_assoc, trimStart_of_blank hw]
    cases t with
    | nil =>
      -- Here the blanks at the back are dropped from the front.
      rw [List.nil_append, ← List.append_nil w', trimStart_of_blank hw']
      rfl
    | cons c rest =>
      have hstart : trimStart (c :: rest ++ w') = c :: rest ++ w' :=
        trimStart_eq_iff.2 ⟨hfront, [], List.forall_mem_nil _, rfl⟩
      rw [hstart]
      exact trimEnd_eq_iff.2 ⟨hback, w', hw', rfl⟩

theorem padded_trimChars (s : List Char) : Padded s (trimChars s) :=
  (trimChars_eq_iff.1 rfl).2

/-- Trimming leaves characters that are not blank. -/
theorem mem_trimChars (hc : c ∈ s) (h : isBlank c = false) : c ∈ trimChars s := by
  obtain ⟨w, w', hw, hw', heq⟩ := padded_trimChars s
  rw [heq, List.mem_append, List.mem_append] at hc
  rcases hc with (hc | hc) | hc
  · exact absurd hc (hw.notMem h)
  · exact hc
  · exact absurd hc (hw'.notMem h)

end Workflow.Text
