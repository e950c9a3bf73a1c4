import Workflow.Proofs.Doubles
import Workflow.Proofs.Numerals
import Workflow.Proofs.Shortest

/-!
Texts of floats as they are read. The digits of a finite double, wherever the point stands among
them, are dyadic to a finite double again: the largest doubles are the only ones close to the limit,
and they are computed one by one.
-/
namespace Workflow

namespace Decimal

/-! ## The digits of a double are finite -/

theorem exponentField_eq (x : Float) :
    exponentField x.toModel = x.toBits.toNat / 2 ^ 52 % 2 ^ 11 := by
  change ((x.toBits.toBitVec.extractLsb 62 52).cast _).toNat = _
  rw [BitVec.toNat_cast, BitVec.extractLsb_toNat, Nat.shiftRight_eq_div_pow]
  rfl

theorem ofDouble_of_isFinite {x : Float} (hx : x.isFinite) :
    (∃ negative, ofDouble x = .zero negative) ∨ ∃ negative v, ofDouble x = .finite negative v ∧
      v.Regular ∧ (v.narrowBelow → v.mantissa = 2 ^ 52) := by
  have hfield := (isFinite_iff _).1 hx
  rw [exponentField_eq] at hfield
  have hread : ofDouble x =
      if x.toBits.toNat / 2 ^ 52 % 2 ^ 11 = 2047 then
        if x.toBits.toNat % 2 ^ 52 = 0 then .infinite _ else .notANumber
      else if x.toBits.toNat / 2 ^ 52 % 2 ^ 11 = 0 then
        if x.toBits.toNat % 2 ^ 52 = 0 then .zero _
        else .finite _ ⟨x.toBits.toNat % 2 ^ 52, -1074, false⟩
      else .finite _ ⟨2 ^ 52 + x.toBits.toNat % 2 ^ 52,
        -1074 + (x.toBits.toNat / 2 ^ 52 % 2 ^ 11 - 1 : ℕ),
        x.toBits.toNat % 2 ^ 52 = 0 && x.toBits.toNat / 2 ^ 52 % 2 ^ 11 ≠ 1⟩ := rfl
  have hfraction : x.toBits.toNat % 2 ^ 52 < 2 ^ 52 := Nat.mod_lt _ (by decide)
  rw [hread]
  generalize x.toBits.toNat % 2 ^ 52 = fraction at hfraction ⊢
  generalize x.toBits.toNat / 2 ^ 52 % 2 ^ 11 = biased at hfield ⊢
  rw [if_neg (by omega)]
  split_ifs with hsubnormal hzero
  · exact .inl ⟨_, rfl⟩
  · refine .inr ⟨_, _, rfl, ⟨?_, ?_, ?_, ?_⟩, nofun⟩ <;> dsimp only <;> omega
  · refine .inr ⟨_, _, rfl, ⟨?_, ?_, ?_, ?_⟩, fun hnarrow => ?_⟩
    case refine_5 =>
      have hzero : fraction = 0 := of_decide_eq_true (Bool.and_elim_left hnarrow)
      rw [hzero, Nat.add_zero]
    all_goals
      dsimp only
      omega

/-- The three largest doubles have digits whose value is above what rounding three times is known
to keep finite. -/
theorem isFinite_scale_largest : ∀ i ∈ [1, 2, 3],
    (Json.Number.scale (Binary.mk (2 ^ 53 - i) 971 false).shortest.coefficient
      (Binary.mk (2 ^ 53 - i) 971 false).shortest.exponent).any Float.isFinite := by
  decide +kernel

/-- Away from the largest doubles, rounding three times keeps the value of the digits finite. -/
theorem Binary.Regular.slack_mul_lt {v : Binary} (hv : v.Regular)
    (hlargest : v.exponent = 971 → v.mantissa ≤ 2 ^ 53 - 4) :
    slack ^ 3 * (v.shortest.coefficient * 10 ^ v.shortest.exponent) < 2 ^ 1024 := by
  obtain ⟨-, -, hle⟩ := hv.shortest_bounds
  have hlt := hv.lt
  have hhigh := hv.high
  have hupper : (4 * v.mantissa + 2 : ℕ) * (2 : ℚ) ^ (v.exponent - 2) ≤
      (2 ^ 55 - 14) * 2 ^ 969 := by
    by_cases hexponent : v.exponent = 971
    · have hmantissa : ((4 * v.mantissa + 2 : ℕ) : ℚ) ≤ (2 ^ 55 - 14 : ℕ) := by
        exact_mod_cast show 4 * v.mantissa + 2 ≤ 2 ^ 55 - 14 by
          have := hlargest hexponent
          omega
      rw [hexponent, show (971 - 2 : ℤ) = (969 : ℕ) from rfl, zpow_natCast]
      exact mul_le_mul_of_nonneg_right (hmantissa.trans (by norm_num)) (by positivity)
    · have hmantissa : ((4 * v.mantissa + 2 : ℕ) : ℚ) ≤ 2 ^ 55 := by
        exact_mod_cast show 4 * v.mantissa + 2 ≤ 2 ^ 55 by omega
      have hpow : (2 : ℚ) ^ (v.exponent - 2) ≤ 2 ^ (968 : ℤ) :=
        zpow_le_zpow_right₀ one_le_two (by omega)
      have hpos : (0 : ℚ) ≤ 2 ^ (968 : ℤ) := by positivity
      have hdouble : (2 : ℚ) ^ 969 = 2 ^ (968 : ℤ) * 2 := pow_succ 2 968
      refine (mul_le_mul hmantissa hpow (by positivity) (by positivity)).trans ?_
      rw [hdouble]
      generalize (2 : ℚ) ^ (968 : ℤ) = least at hpos
      linarith
  calc slack ^ 3 * (v.shortest.coefficient * 10 ^ v.shortest.exponent)
      ≤ slack ^ 3 * ((2 ^ 55 - 14) * 2 ^ 969) :=
        mul_le_mul_of_nonneg_left (hle.trans hupper) (pow_nonneg slack_pos.le 3)
    _ = slack ^ 3 * (2 ^ 55 - 14) * 2 ^ 969 := (mul_assoc ..).symm
    _ < 2 ^ 55 * 2 ^ 969 :=
        mul_lt_mul_of_pos_right (by norm_num [slack]) (by positivity)
    _ = 2 ^ 1024 := (pow_add ..).symm

/-- The shortest digits of a finite double are dyadic to a finite double. -/
theorem Binary.Regular.exists_scale {v : Binary} (hv : v.Regular)
    (hnarrow : v.narrowBelow → v.mantissa = 2 ^ 52) :
    ∃ y, Json.Number.scale v.shortest.coefficient v.shortest.exponent = some y ∧ y.isFinite := by
  obtain ⟨hne, hlimit, -⟩ := hv.shortest_bounds
  have hword : v.shortest.coefficient < 2 ^ 64 := hlimit.trans_lt (by decide)
  by_cases hlargest : v.exponent = 971 → v.mantissa ≤ 2 ^ 53 - 4
  · have hlt := hv.slack_mul_lt hlargest
    have hexponent := hv.shortest_exponent_lt
    generalize v.shortest.exponent = exponent at *
    cases exponent with
    | negSucc n => exact exists_scale_of_neg hword (Int.negSucc_lt_zero n)
    | ofNat n =>
      rw [Int.ofNat_eq_natCast] at hexponent hlt ⊢
      exact Decimal.exists_scale hne hword (by omega) (by simpa using hlt)
  · have hlargest : v.exponent = 971 ∧ 2 ^ 53 - 4 < v.mantissa := by simpa using hlargest
    obtain ⟨m, e, narrow⟩ := v
    obtain ⟨rfl, hm⟩ := hlargest
    have hlt := hv.lt
    dsimp only at hm hlt hnarrow
    obtain rfl : narrow = false := by
      rw [Bool.eq_false_iff]
      intro hset
      have := hnarrow hset
      omega
    obtain ⟨i, hi, rfl⟩ : ∃ i ∈ [1, 2, 3], m = 2 ^ 53 - i :=
      ⟨2 ^ 53 - m, by simp only [List.mem_cons, List.not_mem_nil]; omega, by omega⟩
    exact (Option.any_eq_true ..).1 (isFinite_scale_largest i hi)

end Decimal

namespace Json

/-! ## Texts with a point or an exponent -/

/-- The value of a signed exponent. -/
def Number.exponentValue : Option (Bool × Nat) → Int
  | none => 0
  | some (negative, n) => if negative then -(n : Int) else n

/-- What is not the text of an integer is dyadic. -/
theorem Number.ofText_eq_scale (negative : Bool) (whole : List Nat) {fraction : Option (List Nat)}
    {exponent : Option (Bool × Nat)} (hfloat : fraction.isSome ∨ exponent.isSome)
    (hsmall : ∀ sign n, exponent = some (sign, n) → n ≤ largestExponent) :
    ofText negative whole fraction exponent =
      (scale (Significand.ofDigits whole (fraction.getD [])).value
        ((Significand.ofDigits whole (fraction.getD [])).exponent + exponentValue exponent)).map
          fun x => float (if negative then -x else x) := by
  cases exponent with
  | none =>
    cases fraction with
    | none => simp at hfloat
    | some digits =>
      rw [exponentValue, Int.add_zero]
      rfl
  | some signed =>
    obtain ⟨sign, n⟩ := signed
    have hn : ¬ largestExponent < n := Nat.not_lt.2 (hsmall sign n rfl)
    cases fraction with
    | none => exact if_neg hn
    | some digits => exact if_neg hn

namespace Parts

def value (p : Parts) : Nat := Nat.ofDigitChars 10 (p.whole ++ p.fraction.getD []) 0

/-- The sign and the value of the exponent. -/
def exponentNumber (p : Parts) : Option (Bool × Nat) :=
  p.exponent.map fun (sign, digits) => (sign, Nat.ofDigitChars 10 digits 0)

/-- The power of ten that the digits are dyadic by. -/
def shift (p : Parts) : Int :=
  -(p.fraction.getD []).length + Number.exponentValue p.exponentNumber

/-- Not the text of an integer, and within the limits of digits and exponents. -/
structure Scalable (p : Parts) : Prop where
  valid : p.Valid
  float : p.fraction.isSome ∨ p.exponent.isSome
  digits : p.value ≤ Number.largestWord
  exponent : ∀ sign n, p.exponentNumber = some (sign, n) → n ≤ Number.largestExponent

theorem ofText_of_scalable {p : Parts} (h : p.Scalable) (negative : Bool) :
    Number.ofText negative (digitValues p.whole) (p.fraction.map digitValues) p.exponentNumber =
      (Number.scale p.value p.shift).map fun x => .float (if negative then -x else x) := by
  have hgetD : (p.fraction.map digitValues).getD [] = digitValues (p.fraction.getD []) := by
    cases p.fraction <;> rfl
  rw [Number.ofText_eq_scale negative _ (by simpa [exponentNumber] using h.float) h.exponent, hgetD,
    Number.ofDigits_digitValues h.digits]
  rfl

end Parts

/-! ## Layouts -/

section

open Decimal

variable {d : Digits}

theorem digital_text (d : Digits) : Digital d.text := digital_toDigits _

theorem value_text (d : Digits) : Nat.ofDigitChars 10 d.text 0 = d.coefficient :=
  Nat.ofDigitChars_ten_toDigits

theorem length_text_pos (d : Digits) : 0 < d.text.length := Nat.length_toDigits_pos

theorem lt_pow_length_text (d : Digits) : d.coefficient < 10 ^ d.text.length :=
  (Nat.length_toDigits_le_iff (by decide) (length_text_pos d)).1 (Nat.le_refl _)

theorem value_zeros_append (n : Nat) (cs : List Char) :
    Nat.ofDigitChars 10 (List.replicate n '0' ++ cs) 0 = Nat.ofDigitChars 10 cs 0 := by
  rw [Nat.ofDigitChars_append, Nat.ofDigitChars_replicate_zero, Nat.mul_zero]

theorem digital_zeros (n : Nat) : Digital (List.replicate n '0') := by
  intro c hc
  rw [List.eq_of_mem_replicate hc]
  rfl

/-- In front of the point there is a zero, or there are digits that do not begin with one. -/
theorem exists_take_padded (d : Digits) (places : Nat) :
    let padded := List.replicate (places + 1 - d.text.length) '0' ++ d.text
    ∃ c cs, padded.take (padded.length - places) = c :: cs ∧ Digital (c :: cs) ∧
      (c = '0' → cs = []) := by
  intro padded
  have hlength : padded.length = max (places + 1) d.text.length := by
    rw [List.length_append, List.length_replicate]
    omega
  by_cases hshort : d.text.length ≤ places
  · have htake : padded.length - places = 1 := by omega
    have hzeros : places + 1 - d.text.length = (places - d.text.length) + 1 := by omega
    refine ⟨'0', [], ?_, digital_zeros 1, fun _ => rfl⟩
    rw [htake]
    simp only [padded, hzeros, List.replicate_succ]
    rfl
  · obtain ⟨c, cs, htext, hdigital, hzero⟩ := Number.exists_toDigits d.coefficient
    obtain ⟨n, hn⟩ : ∃ n, padded.length - places = n + 1 := ⟨padded.length - places - 1, by omega⟩
    have hcons : padded = c :: cs := by
      simp only [padded, show places + 1 - d.text.length = 0 by omega]
      exact htext
    rw [Digital, List.forall_mem_cons] at hdigital
    rw [hn, hcons, List.take_succ_cons]
    refine ⟨c, cs.take n, rfl, List.forall_mem_cons.2 ⟨hdigital.1, fun c' hc' =>
      hdigital.2 c' (List.mem_of_mem_take hc')⟩, fun hc => ?_⟩
    rw [hzero hc, List.take_nil]

/-- The digits of a fraction stand on both sides of the point, behind zeros if need be. -/
theorem exists_pointParts (hle : d.coefficient ≤ Number.largestWord)
    (hneg : d.exponent < 0) :
    ∃ p : Parts, p.text = placePoint d.text (-d.exponent).toNat ∧ p.Scalable ∧
      p.value = d.coefficient ∧ p.shift = d.exponent := by
  have hplaces : 0 < (-d.exponent).toNat := by omega
  have hshift : -((-d.exponent).toNat : Int) = d.exponent := by omega
  generalize (-d.exponent).toNat = places at hplaces hshift
  have hwhole := exists_take_padded d places
  rw [placePoint]
  generalize hpadded : List.replicate (places + 1 - d.text.length) '0' ++ d.text = padded
    at hwhole ⊢
  have hlength : padded.length = max (places + 1) d.text.length := by
    rw [← hpadded, List.length_append, List.length_replicate]
    omega
  have hdigital : Digital padded := by
    rw [← hpadded]
    exact List.forall_mem_append.2 ⟨digital_zeros _, digital_text d⟩
  have hvalue : Nat.ofDigitChars 10 padded 0 = d.coefficient := by
    rw [← hpadded, value_zeros_append, value_text]
  have hfraction : padded.drop (padded.length - places) ≠ [] := by
    rw [← List.length_pos_iff, List.length_drop]
    omega
  refine ⟨⟨padded.take (padded.length - places), some (padded.drop (padded.length - places)), none⟩,
    ?_, ⟨⟨hwhole, ?_, ?_⟩, .inl rfl, ?_, ?_⟩, ?_, ?_⟩
  · simp [Parts.text, Parts.fractionText, Parts.exponentText]
  · rintro digits ⟨⟩
    exact ⟨hfraction, fun c hc => hdigital c (List.mem_of_mem_drop hc)⟩
  · rintro sign digits ⟨⟩
  · rw [Parts.value, Option.getD_some, List.take_append_drop, hvalue]
    exact hle
  · rintro sign n ⟨⟩
  · rw [Parts.value, Option.getD_some, List.take_append_drop, hvalue]
  · rw [Parts.shift, Option.getD_some, List.length_drop]
    simp only [Parts.exponentNumber, Option.map_none, Number.exponentValue]
    omega

/-- A whole number has zeros behind its digits, and one behind the point. -/
theorem exists_wholeParts (hne : d.coefficient ≠ 0)
    (hle : d.coefficient * 10 ^ (d.exponent.toNat + 1) ≤ Number.largestWord) :
    ∃ p : Parts, p.text = d.text ++ List.replicate d.exponent.toNat '0' ++ ['.', '0'] ∧
      p.Scalable ∧ p.shift = -1 := by
  have hvalue : Nat.ofDigitChars 10 (d.text ++ List.replicate d.exponent.toNat '0' ++ ['0']) 0 =
      d.coefficient * 10 ^ (d.exponent.toNat + 1) := by
    rw [List.append_assoc, Nat.ofDigitChars_append, value_text, ← List.replicate_succ',
      Nat.ofDigitChars_replicate_zero, Nat.mul_comm]
  refine ⟨⟨d.text ++ List.replicate d.exponent.toNat '0', some ['0'], none⟩, ?_,
    ⟨⟨?_, ?_, nofun⟩, .inl rfl, hvalue.trans_le hle, nofun⟩, rfl⟩
  · simp [Parts.text, Parts.fractionText, Parts.exponentText]
  · obtain ⟨c, cs, htext, hdigital, -⟩ := Number.exists_toDigits d.coefficient
    refine ⟨c, cs ++ List.replicate d.exponent.toNat '0', ?_, ?_, fun hc => ?_⟩
    · rw [Digits.text, htext]
      rfl
    · exact List.forall_mem_append.2 ⟨hdigital, digital_zeros _⟩
    · exact absurd hc (Number.head_toDigits (Nat.pos_of_ne_zero hne) htext)
  · rintro digits ⟨⟩
    exact ⟨List.cons_ne_nil _ _, digital_zeros 1⟩

/-- With an exponent, one digit stands before the point. -/
theorem exists_scientificParts (hle : d.coefficient ≤ Number.largestWord)
    (hleading : d.leading.natAbs ≤ Number.largestExponent) :
    ∃ p : Parts, p.text = d.scientificText "+" ∧ p.Scalable ∧
      p.value = d.coefficient ∧ p.shift = d.exponent := by
  obtain ⟨c, cs, htext, hdigital, -⟩ := Number.exists_toDigits d.coefficient
  have hfraction : (if cs = [] then none else some cs).getD [] = cs := by
    split <;> simp [*]
  have hvalue : Nat.ofDigitChars 10 (c :: cs) 0 = d.coefficient := by
    rw [← htext, Nat.ofDigitChars_ten_toDigits]
  have hexponent : Nat.ofDigitChars 10 (Nat.toDigits 10 d.leading.natAbs) 0 = d.leading.natAbs :=
    Nat.ofDigitChars_ten_toDigits
  refine ⟨⟨[c], if cs = [] then none else some cs,
    some (d.leading < 0, Nat.toDigits 10 d.leading.natAbs)⟩, ?_,
    ⟨⟨⟨c, [], rfl, ?_, fun _ => rfl⟩, ?_, ?_⟩, .inr rfl, ?_, ?_⟩, ?_, ?_⟩
  · rw [Digits.scientificText, Digits.text, htext, Parts.text]
    cases cs <;> by_cases hsign : d.leading < 0 <;>
      simp [hsign, Parts.fractionText, Parts.exponentText]
  · exact fun c' hc' => hdigital c' (List.mem_cons.2 (.inl (List.mem_singleton.1 hc')))
  · intro digits hdigits
    split at hdigits
    · cases hdigits
    · cases hdigits
      exact ⟨‹_›, fun c' hc' => hdigital c' (List.mem_cons_of_mem _ hc')⟩
  · rintro sign digits ⟨⟩
    exact ⟨Nat.toDigits_ne_nil, digital_toDigits _⟩
  · rw [Parts.value, hfraction, List.singleton_append, hvalue]
    exact hle
  · intro sign n hn
    simp only [Parts.exponentNumber, Option.map_some, hexponent] at hn
    cases hn
    exact hleading
  · rw [Parts.value, hfraction, List.singleton_append, hvalue]
  · have hlength : d.leading = d.exponent + cs.length := by
      rw [Digits.leading, Digits.text, htext, List.length_cons, Nat.add_sub_cancel]
    simp only [Parts.shift, hfraction, Parts.exponentNumber, Option.map_some, hexponent,
      Number.exponentValue]
    by_cases hsign : d.leading < 0
    · rw [if_pos (decide_eq_true hsign)]
      omega
    · rw [if_neg (by simpa using hsign)]
      omega

end

namespace Number

open Decimal

/-- A float whose text can be dyadic to a finite double is read as a finite double. -/
theorem exists_readsAs_of_scalable {n : Number} {p : Parts} (h : p.Scalable) (negative : Bool)
    (htext : n.text.toList = if negative then '-' :: p.text else p.text)
    (hscale : ∃ y, scale p.value p.shift = some y ∧ y.isFinite) :
    ∃ y, y.isFinite ∧ n.ReadsAs (float y) := by
  obtain ⟨y, hscale, hy⟩ := hscale
  have hvalue := Parts.ofText_of_scalable h negative
  rw [hscale] at hvalue
  refine ⟨if negative then -y else y, ?_, readsAs_of_parts h.valid negative htext hvalue⟩
  cases negative with
  | true => exact isFinite_neg hy
  | false => exact hy

/-- The digits of a positive double are written in a text that is dyadic to a finite double. -/
theorem exists_parts_shortest {v : Binary} (hv : v.Regular)
    (hnarrow : v.narrowBelow → v.mantissa = 2 ^ 52) :
    ∃ p : Parts, (layout.ofDigits v.shortest).toList = p.text ∧ p.Scalable ∧
      ∃ y, scale p.value p.shift = some y ∧ y.isFinite := by
  obtain ⟨hne, hle, -⟩ := hv.shortest_bounds
  have hscale := hv.exists_scale hnarrow
  have hlow := hv.le_shortest_exponent
  have hhigh := hv.shortest_exponent_lt
  generalize v.shortest = d at *
  have hword : d.coefficient ≤ largestWord := hle.trans (by decide)
  rw [Layout.ofDigits, String.toList_ofList]
  by_cases hpositional : layout.positional d
  · rw [if_pos hpositional, Digits.positionalText]
    by_cases hneg : d.exponent < 0
    · obtain ⟨p, htext, hscalable, hvalue, hshift⟩ := exists_pointParts hword hneg
      rw [if_pos hneg]
      exact ⟨p, htext.symm, hscalable, by rwa [hvalue, hshift]⟩
    · have hproduct : d.coefficient * 10 ^ (d.exponent.toNat + 1) ≤ largestWord := by
        have hleading := of_decide_eq_true (Bool.and_elim_right hpositional)
        have hpos := length_text_pos d
        rw [Digits.leading] at hleading
        calc d.coefficient * 10 ^ (d.exponent.toNat + 1)
            ≤ 10 ^ d.text.length * 10 ^ (d.exponent.toNat + 1) :=
              Nat.mul_le_mul_right _ (lt_pow_length_text d).le
          _ = 10 ^ (d.text.length + (d.exponent.toNat + 1)) := (pow_add ..).symm
          _ ≤ 10 ^ 17 := Nat.pow_le_pow_right (by decide) (by omega)
          _ ≤ largestWord := by decide
      obtain ⟨p, htext, hscalable, hshift⟩ := exists_wholeParts hne hproduct
      rw [if_neg hneg]
      refine ⟨p, htext.symm, hscalable, ?_⟩
      rw [hshift]
      exact exists_scale_of_neg (Nat.lt_of_le_of_lt hscalable.digits (by decide)) (by decide)
  · have hleading : d.leading.natAbs ≤ largestExponent := by
      have hlength : d.text.length ≤ 19 :=
        (Nat.length_toDigits_le_iff (by decide) (by decide)).2 (hle.trans_lt (by decide))
      rw [Digits.leading, largestExponent]
      omega
    obtain ⟨p, htext, hscalable, hvalue, hshift⟩ := exists_scientificParts hword hleading
    rw [if_neg hpositional]
    exact ⟨p, htext.symm, hscalable, by rwa [hvalue, hshift]⟩

/-- A finite double is read as a finite double. -/
theorem exists_readsAs_float {x : Float} (hx : x.isFinite) :
    ∃ y, y.isFinite ∧ (float x).ReadsAs (float y) := by
  have htext : (float x).text = layout.ofReading (ofDouble x) := if_pos hx
  rcases ofDouble_of_isFinite hx with ⟨negative, hzero⟩ | ⟨negative, v, hfinite, hv, hnarrow⟩
  · rw [hzero] at htext
    have hparts : Parts.Scalable ⟨['0'], some ['0'], none⟩ :=
      ⟨⟨⟨'0', [], rfl, digital_zeros 1, fun _ => rfl⟩, by
        rintro digits ⟨⟩
        exact ⟨List.cons_ne_nil _ _, digital_zeros 1⟩, nofun⟩, .inl rfl, by decide, nofun⟩
    refine exists_readsAs_of_scalable hparts negative ?_
      (exists_scale_of_neg (by decide) (by decide))
    rw [htext]
    cases negative <;> rfl
  · rw [hfinite] at htext
    obtain ⟨p, hp, hscalable, hscale⟩ := exists_parts_shortest hv hnarrow
    refine exists_readsAs_of_scalable hscalable negative ?_ hscale
    rw [htext, Layout.ofReading, ← hp]
    cases negative with
    | true => simp
    | false => rfl

/-- An integer of 64 bits, or a finite double. -/
def Proper : Number → Prop
  | integer i => -2 ^ 63 ≤ i ∧ i ≤ largestWord
  | float x => x.isFinite

theorem Proper.isFinite_toFloat {n : Number} (h : n.Proper) : n.toFloat.isFinite := by
  cases n with
  | integer i =>
    obtain ⟨hlow, hhigh⟩ := h
    rw [largestWord] at hhigh
    have hfinite : (UInt64.ofNat i.natAbs).toFloat.isFinite :=
      (Decimal.isFinite_iff _).2 ((Decimal.exponentField_toFloat (by omega)).trans_lt (by decide))
    rw [toFloat, roundInt]
    split_ifs
    · exact Decimal.isFinite_neg hfinite
    · exact hfinite
  | float x => exact h

theorem exists_readsAs {n : Number} (h : n.Proper) : ∃ m, m.Proper ∧ n.ReadsAs m := by
  cases n with
  | integer i => exact ⟨_, h, readsAs_integer h.1 h.2⟩
  | float x =>
    obtain ⟨y, hy, hreads⟩ := exists_readsAs_float h
    exact ⟨float y, hy, hreads⟩

/-- The number that the text of a number is read as. -/
def reread (n : Number) : Number :=
  match parse n.text with
  | .ok (.number m) => m
  | _ => n

theorem mayEnd_of_ended {numeral : Numeral} (h : numeral.extend ',' = .ended) :
    numeral.mayEnd := by
  obtain ⟨_, stage, _, _, _⟩ := numeral
  cases stage <;> first | rfl | cases h

theorem ReadsAs.reread_eq {n m : Number} (h : n.ReadsAs m) : n.reread = m := by
  obtain ⟨numeral, hleads, hends, hdraft⟩ := h [] (.value false) trivial
  obtain ⟨p, hp⟩ := hleads .start
  have hparse : parse n.text = .ok (.number m) := by
    have hend := mayEnd_of_ended (hends ',' (.inl rfl))
    rw [parse, readDraft, Reader.start, hp]
    simp only [Reader.finish, if_pos hend, hdraft]
    rfl
  rw [reread, hparse]

theorem readsAs_reread {n : Number} (h : n.Proper) : n.ReadsAs n.reread := by
  obtain ⟨m, -, hreads⟩ := exists_readsAs h
  rwa [hreads.reread_eq]

theorem Proper.reread {n : Number} (h : n.Proper) : n.reread.Proper := by
  obtain ⟨m, hm, hreads⟩ := exists_readsAs h
  rwa [hreads.reread_eq]

end Number

end Json

end Workflow
