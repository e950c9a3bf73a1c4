import Mathlib.Tactic.SplitIfs
import Workflow.Proofs.Reading

/-!
Texts of numbers as they are read. A text in its parts, the digits before the point, behind it and
in the exponent, is taken character by character into a numeral that holds the values of the digits;
digits that fit in 64 bits are kept exactly.
-/
namespace Workflow.Json

/-- The values of digits. -/
def digitValues (cs : List Char) : List Nat := cs.map fun c => c.toNat - 48

/-- A text of digits only. -/
def Digital (cs : List Char) : Prop := ∀ c ∈ cs, c.isDigit

theorem digital_toDigits (n : Nat) : Digital (Nat.toDigits 10 n) := fun _ hc =>
  Nat.isDigit_of_mem_toDigits (by decide) (by decide) hc

theorem digit?_of_isDigit {c : Char} (h : c.isDigit) : digit? c = some (c.toNat - 48) := if_pos h

/-! ## Numerals character by character -/

/-- A number behind some more characters that belong to it. -/
def Numeral.through (n : Numeral) : List Char → Option Numeral
  | [] => some n
  | c :: rest => match n.extend c with
    | .more n => n.through rest
    | _ => none

theorem Numeral.through_cons {n n' : Numeral} {c : Char} (h : n.extend c = .more n')
    (s : List Char) : n.through (c :: s) = n'.through s := by
  rw [through, h]

theorem Numeral.through_append (n : Numeral) (s t : List Char) :
    n.through (s ++ t) = (n.through s).bind (·.through t) := by
  induction s generalizing n with
  | nil => rfl
  | cons c s ih =>
    rw [List.cons_append, through, through]
    cases n.extend c with
    | more n => exact ih n
    | bad => rfl
    | ended => rfl

theorem Reader.leads_through {frames : List Frame} {n n' : Numeral} {s : List Char}
    (h : n.through s = some n') : Leads frames (.numeral n) s frames (.numeral n') := by
  induction s generalizing n with
  | nil =>
    cases h
    exact .nil
  | cons c s ih =>
    rw [Numeral.through] at h
    cases hextend : n.extend c with
    | more next =>
      rw [hextend] at h
      refine .cons (fun p => ?_) (ih h)
      simp only [take, hextend]
    | bad => simp [hextend] at h
    | ended => simp [hextend] at h

namespace Numeral

section

variable {negative : Bool} {whole : List Nat} {cs : List Char}

theorem through_whole (h : Digital cs) (fraction : Option (List Nat))
    (exponent : Option (Bool × Nat)) :
    through ⟨negative, .whole, whole, fraction, exponent⟩ cs =
      some ⟨negative, .whole, (digitValues cs).reverse ++ whole, fraction, exponent⟩ := by
  induction cs generalizing whole with
  | nil => rfl
  | cons c cs ih =>
    rw [Digital, List.forall_mem_cons] at h
    have hextend : extend ⟨negative, .whole, whole, fraction, exponent⟩ c =
        .more ⟨negative, .whole, (c.toNat - 48) :: whole, fraction, exponent⟩ := by
      rw [extend, digit?_of_isDigit h.1]
    rw [through_cons hextend, ih h.2]
    simp [digitValues]

theorem through_fraction (h : Digital cs) (fraction : List Nat) :
    through ⟨negative, .fraction, whole, some fraction, none⟩ cs =
      some ⟨negative, .fraction, whole, some ((digitValues cs).reverse ++ fraction), none⟩ := by
  induction cs generalizing fraction with
  | nil => rfl
  | cons c cs ih =>
    rw [Digital, List.forall_mem_cons] at h
    have hextend : extend ⟨negative, .fraction, whole, some fraction, none⟩ c =
        .more ⟨negative, .fraction, whole, some ((c.toNat - 48) :: fraction), none⟩ := by
      rw [extend, digit?_of_isDigit h.1]
      rfl
    rw [through_cons hextend, ih h.2]
    simp [digitValues]

theorem through_exponent (h : Digital cs) (fraction : Option (List Nat)) (sign : Bool)
    (value : Nat) :
    through ⟨negative, .exponent, whole, fraction, some (sign, value)⟩ cs =
      some ⟨negative, .exponent, whole, fraction, some (sign, Nat.ofDigitChars 10 cs value)⟩ := by
  induction cs generalizing value with
  | nil => rfl
  | cons c cs ih =>
    rw [Digital, List.forall_mem_cons] at h
    have hextend : extend ⟨negative, .exponent, whole, fraction, some (sign, value)⟩ c =
        .more ⟨negative, .exponent, whole, fraction,
          some (sign, value * 10 + (c.toNat - 48))⟩ := by
      rw [extend, digit?_of_isDigit h.1]
      rfl
    rw [through_cons hextend, ih h.2, Nat.ofDigitChars_cons, Nat.mul_comm]
    rfl

end

end Numeral

/-- A text of a number without its sign, in its parts. -/
structure Parts where
  whole : List Char
  fraction : Option (List Char)
  /-- Whether the exponent is negative, and its digits. -/
  exponent : Option (Bool × List Char)

namespace Parts

def fractionText : Option (List Char) → List Char
  | none => []
  | some digits => '.' :: digits

def exponentText : Option (Bool × List Char) → List Char
  | none => []
  | some (negative, digits) => 'e' :: (if negative then '-' else '+') :: digits

def text (p : Parts) : List Char := p.whole ++ fractionText p.fraction ++ exponentText p.exponent

/-- Digits in every part, and no zero before other digits. -/
structure Valid (p : Parts) : Prop where
  whole : ∃ c cs, p.whole = c :: cs ∧ Digital (c :: cs) ∧ (c = '0' → cs = [])
  fraction : ∀ digits, p.fraction = some digits → digits ≠ [] ∧ Digital digits
  exponent : ∀ sign digits, p.exponent = some (sign, digits) → digits ≠ [] ∧ Digital digits

/-- What the parts are read as. -/
def numeral (p : Parts) (negative : Bool) : Numeral where
  negative
  stage := if p.exponent.isSome then .exponent else if p.fraction.isSome then .fraction
    else if p.whole = ['0'] then .zero else .whole
  whole := (digitValues p.whole).reverse
  fraction := p.fraction.map fun digits => (digitValues digits).reverse
  exponent := p.exponent.map fun (sign, digits) => (sign, Nat.ofDigitChars 10 digits 0)

theorem through_wholeText {c : Char} {cs : List Char} (h : Digital (c :: cs))
    (hzero : c = '0' → cs = []) (negative : Bool) :
    (Numeral.begin negative).through (c :: cs) =
      some ⟨negative, if c :: cs = ['0'] then .zero else .whole, (digitValues (c :: cs)).reverse,
        none, none⟩ := by
  rw [Digital, List.forall_mem_cons] at h
  by_cases hc : c = '0'
  · subst hc
    cases hzero rfl
    rfl
  · have hvalue : c.toNat - 48 ≠ 0 := by
      have hdigit : 48 ≤ c.toNat := (Char.isDigit_iff_toNat.1 h.1).1
      intro hle
      exact hc (Char.toNat_inj.1 (show c.toNat = 48 by omega))
    have hextend : (Numeral.begin negative).extend c =
        .more ⟨negative, .whole, [c.toNat - 48], none, none⟩ := by
      rw [Numeral.begin, Numeral.extend, digit?_of_isDigit h.1]
      generalize c.toNat - 48 = value at hvalue ⊢
      cases value with
      | zero => exact absurd rfl hvalue
      | succ value => rfl
    rw [Numeral.through_cons hextend, Numeral.through_whole h.2, if_neg (by simp [hc])]
    simp [digitValues]

theorem through_fractionText {stage : Stage} (hstage : stage = .zero ∨ stage = .whole)
    (negative : Bool) (whole : List Nat) {fraction : Option (List Char)}
    (h : ∀ digits, fraction = some digits → digits ≠ [] ∧ Digital digits) :
    Numeral.through ⟨negative, stage, whole, none, none⟩ (fractionText fraction) =
      some ⟨negative, if fraction.isSome then .fraction else stage, whole,
        fraction.map fun digits => (digitValues digits).reverse, none⟩ := by
  cases fraction with
  | none => rfl
  | some digits =>
    obtain ⟨hne, hdigital⟩ := h digits rfl
    obtain ⟨c, cs, rfl⟩ := List.exists_cons_of_ne_nil hne
    rw [Digital, List.forall_mem_cons] at hdigital
    have hpoint : Numeral.extend ⟨negative, stage, whole, none, none⟩ '.' =
        .more ⟨negative, .point, whole, some [], none⟩ := by
      rcases hstage with rfl | rfl <;> rfl
    have hfirst : Numeral.extend ⟨negative, .point, whole, some [], none⟩ c =
        .more ⟨negative, .fraction, whole, some [c.toNat - 48], none⟩ := by
      rw [Numeral.extend, digit?_of_isDigit hdigital.1]
      rfl
    rw [fractionText, Numeral.through_cons hpoint, Numeral.through_cons hfirst,
      Numeral.through_fraction hdigital.2]
    simp [digitValues]

theorem through_exponentText {stage : Stage}
    (hstage : stage = .zero ∨ stage = .whole ∨ stage = .fraction)
    (negative : Bool) (whole : List Nat) (fraction : Option (List Nat))
    {exponent : Option (Bool × List Char)}
    (h : ∀ sign digits, exponent = some (sign, digits) → digits ≠ [] ∧ Digital digits) :
    Numeral.through ⟨negative, stage, whole, fraction, none⟩ (exponentText exponent) =
      some ⟨negative, if exponent.isSome then .exponent else stage, whole, fraction,
        exponent.map fun (sign, digits) => (sign, Nat.ofDigitChars 10 digits 0)⟩ := by
  cases exponent with
  | none => rfl
  | some signed =>
    obtain ⟨sign, digits⟩ := signed
    obtain ⟨hne, hdigital⟩ := h sign digits rfl
    obtain ⟨c, cs, rfl⟩ := List.exists_cons_of_ne_nil hne
    rw [Digital, List.forall_mem_cons] at hdigital
    have hmark : Numeral.extend ⟨negative, stage, whole, fraction, none⟩ 'e' =
        .more ⟨negative, .mark, whole, fraction, some (false, 0)⟩ := by
      rcases hstage with rfl | rfl | rfl <;> rfl
    have hsign : Numeral.extend ⟨negative, .mark, whole, fraction, some (false, 0)⟩
        (if sign then '-' else '+') =
          .more ⟨negative, .exponentSign, whole, fraction, some (sign, 0)⟩ := by
      cases sign <;> rfl
    have hfirst : Numeral.extend ⟨negative, .exponentSign, whole, fraction, some (sign, 0)⟩ c =
        .more ⟨negative, .exponent, whole, fraction, some (sign, 0 * 10 + (c.toNat - 48))⟩ := by
      rw [Numeral.extend, digit?_of_isDigit hdigital.1]
      rfl
    rw [exponentText, Numeral.through_cons hmark, Numeral.through_cons hsign,
      Numeral.through_cons hfirst, Numeral.through_exponent hdigital.2]
    rfl

variable {p : Parts}

theorem through_text (h : p.Valid) (negative : Bool) :
    (Numeral.begin negative).through p.text = some (p.numeral negative) := by
  obtain ⟨c, cs, hwhole, hdigital, hzero⟩ := h.whole
  rw [text, Numeral.through_append, Numeral.through_append, hwhole,
    through_wholeText hdigital hzero, Option.bind_some,
    through_fractionText (by split_ifs <;> simp) negative _ h.fraction, Option.bind_some,
    through_exponentText (by split_ifs <;> simp) negative _ _ h.exponent, numeral, hwhole]

/-- What ends an entry ends the number. -/
theorem extend_numeral {c : Char} (hc : Reader.EndsEntry c) (p : Parts) (negative : Bool) :
    (p.numeral negative).extend c = .ended := by
  have hstage : ∀ n : Numeral, n.stage = .exponent ∨ n.stage = .fraction ∨ n.stage = .zero ∨
      n.stage = .whole → n.extend c = .ended := by
    rintro ⟨_, stage, _, _, _⟩ (rfl | rfl | rfl | rfl) <;>
      rcases hc with rfl | rfl | rfl <;> rfl
  apply hstage
  simp only [numeral]
  split_ifs <;> simp

end Parts

/-- Where a value may come next, a digit begins a number. -/
theorem Reader.take_digit {frames : List Frame} {mode : Mode} (hmode : Mode.AwaitsValue mode)
    {c : Char} (hc : c.isDigit) {n : Numeral} (hn : (Numeral.begin false).extend c = .more n)
    (p : Position) : take ⟨frames, mode, p⟩ c = .ok ⟨frames, .numeral n, p⟩ := by
  have hne (other : Char) (hother : other.isDigit = false) : c ≠ other := by
    rintro rfl
    simp [hc] at hother
  have hblank : isBlank c = false := by
    simp [isBlank, hne ' ' rfl, hne '\n' rfl, hne '\t' rfl, hne '\r' rfl]
  have hopening : c ≠ 'n' ∧ c ≠ 't' ∧ c ≠ 'f' ∧ c ≠ '"' ∧ c ≠ '-' ∧ c ≠ '[' ∧ c ≠ '{' :=
    ⟨hne _ rfl, hne _ rfl, hne _ rfl, hne _ rfl, hne _ rfl, hne _ rfl, hne _ rfl⟩
  rw [take_value hmode hblank (hne _ rfl)]
  simp [beginValue, hopening, hn]

/-- A text in its parts is read as what its digits stand for. -/
theorem Number.readsAs_of_parts {n m : Number} {p : Parts} (h : p.Valid) (negative : Bool)
    (htext : n.text.toList = if negative then '-' :: p.text else p.text)
    (hvalue : Number.ofText negative (digitValues p.whole) (p.fraction.map digitValues)
      (p.exponent.map fun (sign, digits) => (sign, Nat.ofDigitChars 10 digits 0)) = some m) :
    n.ReadsAs m := by
  have hthrough := Parts.through_text h negative
  intro frames mode hmode
  refine ⟨p.numeral negative, ?_, fun c hc => p.extend_numeral hc negative, fun position => ?_⟩
  · rw [htext]
    cases negative with
    | true =>
      refine .cons (fun position => ?_) (Reader.leads_through hthrough)
      exact Reader.take_value hmode (by decide) (by decide) position
    | false =>
      obtain ⟨c, cs, hwhole, hdigital, -⟩ := h.whole
      have hcons : p.text = c :: (cs ++ Parts.fractionText p.fraction ++
          Parts.exponentText p.exponent) := by
        rw [Parts.text, hwhole]
        rfl
      rw [hcons, Numeral.through] at hthrough
      cases hextend : (Numeral.begin false).extend c with
      | more n =>
        rw [hextend] at hthrough
        rw [if_neg (by decide), hcons]
        exact .cons (Reader.take_digit hmode (hdigital c List.mem_cons_self) hextend)
          (Reader.leads_through hthrough)
      | bad => simp [hextend] at hthrough
      | ended => simp [hextend] at hthrough
  · have hfraction : (p.fraction.map fun digits => (digitValues digits).reverse).map List.reverse =
        p.fraction.map digitValues := by
      cases p.fraction <;> simp
    rw [Numeral.draft, Parts.numeral, List.reverse_reverse, hfraction, hvalue]

namespace Number

/-! ## Significands -/

theorem le_ofDigitChars (cs : List Char) (init : Nat) : init ≤ Nat.ofDigitChars 10 cs init := by
  rw [Nat.ofDigitChars_eq_ofDigitChars_zero]
  have := Nat.le_mul_of_pos_left init (Nat.pow_pos (n := cs.length) (show 0 < 10 by decide))
  omega

theorem foldl_digitValues (cs : List Char) (init : Nat) :
    (digitValues cs).foldl (fun n d => n * 10 + d) init = Nat.ofDigitChars 10 cs init := by
  rw [Nat.ofDigitChars_eq_foldl, digitValues, List.foldl_map]
  simp only [Nat.mul_comm 10]
  rfl

theorem foldl_takeWhole {cs : List Char} {value : Nat} {exponent : Int}
    (hfits : Nat.ofDigitChars 10 cs value ≤ largestWord) :
    (digitValues cs).foldl Significand.takeWhole ⟨value, exponent, false⟩ =
      ⟨Nat.ofDigitChars 10 cs value, exponent, false⟩ := by
  induction cs generalizing value with
  | nil => rfl
  | cons c cs ih =>
    rw [Nat.ofDigitChars_cons, Nat.mul_comm] at hfits ⊢
    have hdigit : ¬ largestWord < value * 10 + (c.toNat - 48) :=
      Nat.not_lt.2 (Nat.le_trans (le_ofDigitChars cs _) hfits)
    have htake : Significand.takeWhole ⟨value, exponent, false⟩ (c.toNat - 48) =
        ⟨value * 10 + (c.toNat - 48), exponent, false⟩ := by
      simp [Significand.takeWhole, hdigit]
    rw [digitValues, List.map_cons, List.foldl_cons, htake]
    exact ih hfits

theorem foldl_takeFraction {cs : List Char} {value : Nat} {exponent : Int}
    (hfits : Nat.ofDigitChars 10 cs value ≤ largestWord) :
    (digitValues cs).foldl Significand.takeFraction ⟨value, exponent, false⟩ =
      ⟨Nat.ofDigitChars 10 cs value, exponent - cs.length, false⟩ := by
  induction cs generalizing value exponent with
  | nil => simp [digitValues]
  | cons c cs ih =>
    rw [Nat.ofDigitChars_cons, Nat.mul_comm] at hfits ⊢
    have hdigit : ¬ largestWord < value * 10 + (c.toNat - 48) :=
      Nat.not_lt.2 (Nat.le_trans (le_ofDigitChars cs _) hfits)
    have htake : Significand.takeFraction ⟨value, exponent, false⟩ (c.toNat - 48) =
        ⟨value * 10 + (c.toNat - 48), exponent - 1, false⟩ := by
      simp [Significand.takeFraction, hdigit]
    rw [digitValues, List.map_cons, List.foldl_cons, htake]
    refine (ih hfits).trans ?_
    rw [List.length_cons, Int.natCast_succ, Int.sub_sub, Int.add_comm 1]

/-- Digits that fit in 64 bits are kept exactly. -/
theorem ofDigits_digitValues {whole fraction : List Char}
    (hfits : Nat.ofDigitChars 10 (whole ++ fraction) 0 ≤ largestWord) :
    Significand.ofDigits (digitValues whole) (digitValues fraction) =
      ⟨Nat.ofDigitChars 10 (whole ++ fraction) 0, -fraction.length, false⟩ := by
  rw [Nat.ofDigitChars_append] at hfits ⊢
  rw [Significand.ofDigits, foldl_takeWhole (Nat.le_trans (le_ofDigitChars fraction _) hfits),
    foldl_takeFraction hfits, Int.zero_sub]

/-! ## Integers -/

/-- A number above zero has no zero before its other digits. -/
theorem head_toDigits {n : Nat} (hn : 0 < n) {c : Char} {cs : List Char}
    (h : Nat.toDigits 10 n = c :: cs) : c ≠ '0' := by
  induction n using Nat.strongRecOn generalizing cs with
  | ind n ih =>
    by_cases hlt : n < 10
    · rw [Nat.toDigits_of_lt_base hlt] at h
      cases h
      have hsmall : ∀ m < 10, 0 < m → m.digitChar ≠ '0' := by decide
      exact hsmall n hlt hn
    · rw [Nat.toDigits_of_base_le (by decide) (by omega)] at h
      obtain ⟨c', cs', hcons⟩ := List.exists_cons_of_ne_nil (@Nat.toDigits_ne_nil (n / 10) 10)
      rw [hcons, List.cons_append] at h
      cases h
      exact ih (n / 10) (by omega) (by omega) hcons

/-- The digits of a number may stand before the point. -/
theorem exists_toDigits (n : Nat) : ∃ c cs, Nat.toDigits 10 n = c :: cs ∧ Digital (c :: cs) ∧
    (c = '0' → cs = []) := by
  obtain ⟨c, cs, h⟩ := List.exists_cons_of_ne_nil (@Nat.toDigits_ne_nil n 10)
  refine ⟨c, cs, h, h ▸ digital_toDigits n, fun hc => ?_⟩
  by_cases hn : n = 0
  · subst hn
    cases h
    rfl
  · exact absurd hc (head_toDigits (by omega) h)

/-- An integer of 64 bits is read as itself. -/
theorem readsAs_integer {i : Int} (hlow : -2 ^ 63 ≤ i) (hhigh : i ≤ largestWord) :
    (integer i).ReadsAs (integer i) := by
  have hvalid : Parts.Valid ⟨Nat.toDigits 10 i.natAbs, none, none⟩ :=
    ⟨exists_toDigits _, nofun, nofun⟩
  have hvalue := foldl_digitValues (Nat.toDigits 10 i.natAbs) 0
  rw [Nat.ofDigitChars_ten_toDigits] at hvalue
  refine readsAs_of_parts hvalid (decide (i < 0)) ?_ ?_
  · rw [text, Int.toString_eq_repr, Int.repr_eq_if]
    by_cases hi : i < 0
    · rw [if_neg (by omega), show (-i).toNat = i.natAbs by omega]
      simp [hi, Parts.text, Parts.fractionText, Parts.exponentText]
    · rw [if_pos (by omega), show i.toNat = i.natAbs by omega]
      simp [hi, Parts.text, Parts.fractionText, Parts.exponentText]
  · simp only [ofText, Option.map_none, hvalue]
    by_cases hi : i < 0
    · simp only [hi, decide_true, if_true]
      rw [if_pos (by omega), show -(i.natAbs : Int) = i by omega]
    · simp only [hi, decide_false]
      rw [if_neg (by decide), if_pos (by omega), show (i.natAbs : Int) = i by omega]

end Number

end Workflow.Json
