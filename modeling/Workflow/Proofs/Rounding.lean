import Mathlib
import Workflow.Json.Number

/-!
Bounds of rounded numbers. The nearest double of a number is larger than the number by one part in
`2 ^ 53` at most, so products of doubles that stay well below `2 ^ 1024` are finite, and what is
divided by a power of ten is no larger than before.
-/
namespace Workflow.Decimal

open Float.Model Float.Model.UnpackedFloat

/-! ## Rounding a significand -/

theorem mantissa_shiftRight (em : ExtendedMantissa) (t : Nat) :
    (em >>> t).mantissa = em.mantissa / 2 ^ t := by
  induction t with
  | zero => exact (Nat.div_one _).symm
  | succ t ih =>
    change (em >>> t).mantissa / 2 = _
    rw [ih, Nat.div_div_eq_div_mul, pow_succ]

theorem roundBit_shiftRight (em : ExtendedMantissa) (t : Nat) :
    (em >>> (t + 1)).roundBit = (em.mantissa / 2 ^ t % 2 != 0) := by
  change ((em >>> t).mantissa % 2 != 0) = _
  rw [mantissa_shiftRight]

theorem roundedMantissa_le (em : ExtendedMantissa) : em.roundedMantissa ≤ em.mantissa + 1 := by
  obtain ⟨m, r, s⟩ := em
  cases r <;> cases s <;>
    simp only [ExtendedMantissa.roundedMantissa, ExtendedMantissa.accuracy,
      Accuracy.roundToNearestEven] <;> omega

theorem le_roundedMantissa (em : ExtendedMantissa) : em.mantissa ≤ em.roundedMantissa := by
  obtain ⟨m, r, s⟩ := em
  cases r <;> cases s <;>
    simp only [ExtendedMantissa.roundedMantissa, ExtendedMantissa.accuracy,
      Accuracy.roundToNearestEven] <;> omega

theorem roundedMantissa_of_roundBit {em : ExtendedMantissa} (h : em.roundBit = false) :
    em.roundedMantissa = em.mantissa := by
  obtain ⟨m, r, s⟩ := em
  cases h
  cases s <;> rfl

/-- What is dropped of a significand adds half a unit of the last place at most. -/
theorem roundedMantissa_shiftRight_le (m t : Nat) :
    2 * ((ExtendedMantissa.ofMantissaAndAccuracy m .exact >>> t).roundedMantissa * 2 ^ t) ≤
      2 * m + if t = 0 then 0 else 2 ^ t := by
  have hmantissa := mantissa_shiftRight (.ofMantissaAndAccuracy m .exact) t
  have hdivision := Nat.div_add_mod m (2 ^ t)
  generalize hem : ExtendedMantissa.ofMantissaAndAccuracy m .exact >>> t = em at *
  change em.mantissa = m / 2 ^ t at hmantissa
  cases t with
  | zero =>
    subst hem
    change 2 * (m * 1) ≤ 2 * m + 0
    omega
  | succ t =>
    rw [if_neg t.succ_ne_zero]
    cases hbit : em.roundBit with
    | false =>
      rw [roundedMantissa_of_roundBit hbit, hmantissa]
      nlinarith [Nat.zero_le (m % 2 ^ (t + 1)), Nat.zero_le (2 ^ (t + 1))]
    | true =>
      have hround := roundBit_shiftRight (.ofMantissaAndAccuracy m .exact) t
      rw [hem, hbit] at hround
      have hodd : m / 2 ^ t % 2 = 1 := by
        change true = (m / 2 ^ t % 2 != 0) at hround
        have hne : m / 2 ^ t % 2 ≠ 0 := by simpa using hround.symm
        omega
      have hrest : m % 2 ^ (t + 1) = 2 ^ t + m % 2 ^ t := by
        rw [pow_succ, Nat.mod_mul, hodd]
        omega
      have hle := roundedMantissa_le em
      have hdyadic := Nat.mul_le_mul_right (2 ^ (t + 1)) hle
      rw [hmantissa, Nat.add_mul, one_mul] at hdyadic
      rw [Nat.mul_comm] at hdivision
      have hpow : 2 ^ (t + 1) = 2 * 2 ^ t := by rw [pow_succ, Nat.mul_comm]
      omega

theorem targetExponent_eq (x : Int) :
    Format.binary64.targetExponent x = max (x - 53) (-1074) := rfl

/-- The places that a significand is shifted by. -/
def shiftOf (m : Nat) (e : Int) : Nat := (max (totalExponent m e - 53) (-1074) - e).toNat

theorem shiftOf_le (m : Nat) (e : Int) : m.log2 ≤ 52 + shiftOf m e := by
  rw [shiftOf, totalExponent]
  omega

theorem le_add_shiftOf (m : Nat) (e : Int) : -1074 ≤ e + shiftOf m e := by
  rw [shiftOf]
  omega

/-- The significand that is left after the first shift. -/
def firstRounded (m : Nat) (e : Int) (a : Accuracy) : Nat :=
  (ExtendedMantissa.ofMantissaAndAccuracy m a >>> shiftOf m e).roundedMantissa

theorem mantissa_ofMantissaAndAccuracy (m : Nat) (a : Accuracy) :
    (ExtendedMantissa.ofMantissaAndAccuracy m a).mantissa = m := by
  cases a with
  | exact => rfl
  | inexact o => cases o <;> rfl

theorem firstRounded_bounds (m : Nat) (e : Int) (a : Accuracy) :
    m / 2 ^ shiftOf m e ≤ firstRounded m e a ∧
      firstRounded m e a ≤ m / 2 ^ shiftOf m e + 1 := by
  have hmantissa := mantissa_shiftRight (.ofMantissaAndAccuracy m a) (shiftOf m e)
  rw [mantissa_ofMantissaAndAccuracy] at hmantissa
  rw [← hmantissa]
  exact ⟨le_roundedMantissa _, roundedMantissa_le _⟩

theorem div_shiftOf_lt (m : Nat) (e : Int) : m / 2 ^ shiftOf m e < 2 ^ 53 := by
  rw [Nat.div_lt_iff_lt_mul (by positivity), ← pow_add]
  have hle := shiftOf_le m e
  exact Nat.lt_of_lt_of_le Nat.lt_log2_self (Nat.pow_le_pow_right (by decide) (by omega))

theorem firstRounded_le (m : Nat) (e : Int) (a : Accuracy) : firstRounded m e a ≤ 2 ^ 53 := by
  have hbounds := firstRounded_bounds m e a
  have hlt := div_shiftOf_lt m e
  omega

/-- Only a power of two that does not fit is shifted again. -/
theorem shiftOf_of_le {r : Nat} {e : Int} (hr : r ≤ 2 ^ 53) (he : -1074 ≤ e) :
    shiftOf r e = if r = 2 ^ 53 then 1 else 0 := by
  rw [shiftOf, totalExponent]
  split
  · rename_i hfull
    rw [hfull, Nat.log2_two_pow]
    omega
  · have hlog : r.log2 ≤ 52 := by
      by_cases hzero : r = 0
      · simp [hzero]
      · have := (Nat.log2_lt hzero).2 (show r < 2 ^ 53 by omega)
        omega
    omega

theorem secondShift_eq (s : Sign) {r : Nat} {e : Int} (hr : r ≤ 2 ^ 53) (he : -1074 ≤ e) :
    (if h : (ExtendedMantissa.ofMantissaAndAccuracy r .exact >>> shiftOf r e).mantissa = 0 then
        UnpackedFloat.zero s
      else .finite s (ExtendedMantissa.ofMantissaAndAccuracy r .exact >>> shiftOf r e).mantissa
        (e + shiftOf r e) (Nat.pos_of_ne_zero h)) =
      if h : r = 0 then .zero s
      else if r = 2 ^ 53 then .finite s (2 ^ 52) (e + 1) (by decide)
      else .finite s r e (Nat.pos_of_ne_zero h) := by
  have hmantissa := mantissa_shiftRight (.ofMantissaAndAccuracy r .exact) (shiftOf r e)
  rw [mantissa_ofMantissaAndAccuracy] at hmantissa
  simp only [hmantissa]
  have hshift := shiftOf_of_le hr he
  by_cases hfull : r = 2 ^ 53
  · rw [if_pos hfull] at hshift
    simp only [hshift, if_pos hfull]
    subst hfull
    rfl
  · rw [if_neg hfull] at hshift
    simp only [hshift, if_neg hfull, pow_zero, Nat.div_one, Nat.cast_zero, add_zero]

/-- A number is rounded to its first significand, which is a power of two where it does not fit. -/
theorem roundWithAccuracy_eq (s : Sign) (m : Nat) (e : Int) (a : Accuracy) :
    roundWithAccuracy Format.binary64 s m e a =
      if h : firstRounded m e a = 0 then .zero s
      else if firstRounded m e a = 2 ^ 53 then
        .finite s (2 ^ 52) (e + shiftOf m e + 1) (by decide)
      else .finite s (firstRounded m e a) (e + shiftOf m e) (Nat.pos_of_ne_zero h) :=
  secondShift_eq s (firstRounded_le m e a) (le_add_shiftOf m e)

/-- The value of a significand and an exponent of two. -/
def dyadic (m : Nat) (e : Int) : ℚ := m * 2 ^ e

theorem dyadic_pow (m t : Nat) (e : Int) : dyadic (m * 2 ^ t) e = dyadic m (e + t) := by
  rw [dyadic, dyadic, zpow_add₀ two_ne_zero, zpow_natCast, Nat.cast_mul, Nat.cast_pow,
    Nat.cast_ofNat]
  ring

theorem dyadic_nonneg (m : Nat) (e : Int) : 0 ≤ dyadic m e :=
  mul_nonneg m.cast_nonneg (zpow_nonneg zero_le_two e)

theorem dyadic_mul (m₁ m₂ : Nat) (e₁ e₂ : Int) :
    dyadic (m₁ * m₂) (e₁ + e₂) = dyadic m₁ e₁ * dyadic m₂ e₂ := by
  rw [dyadic, dyadic, dyadic, zpow_add₀ two_ne_zero, Nat.cast_mul]
  ring

/-- What rounding makes larger at most. -/
def slack : ℚ := 1 + 1 / 2 ^ 53

theorem slack_pos : 0 < slack := by
  rw [slack]
  positivity

section

variable {m : Nat} {e : Int}

theorem log2_eq_shiftOf_add (hm : 2 ^ 52 ≤ m) (he : -1021 ≤ totalExponent m e) :
    m.log2 = shiftOf m e + 52 := by
  have hlog : 52 ≤ m.log2 := (Nat.le_log2 (by omega)).2 hm
  rw [shiftOf]
  rw [totalExponent] at he ⊢
  omega

theorem two_pow_shiftOf_mul_le (hm : 2 ^ 52 ≤ m) (he : -1021 ≤ totalExponent m e) :
    2 ^ shiftOf m e * 2 ^ 52 ≤ m := by
  rw [← pow_add, ← log2_eq_shiftOf_add hm he]
  exact Nat.log2_self_le (by omega)

theorem le_firstRounded (a : Accuracy) (hm : 2 ^ 52 ≤ m) (he : -1021 ≤ totalExponent m e) :
    2 ^ 52 ≤ firstRounded m e a := by
  refine Nat.le_trans ?_ (firstRounded_bounds m e a).1
  rw [Nat.le_div_iff_mul_le (by positivity), Nat.mul_comm]
  exact two_pow_shiftOf_mul_le hm he

theorem dyadic_firstRounded_le (hm : 2 ^ 52 ≤ m) (he : -1021 ≤ totalExponent m e) :
    dyadic (firstRounded m e .exact) (e + shiftOf m e) ≤ slack * dyadic m e := by
  have hround := roundedMantissa_shiftRight_le m (shiftOf m e)
  rw [← firstRounded] at hround
  have hhalf : (if shiftOf m e = 0 then 0 else 2 ^ shiftOf m e) ≤ 2 ^ shiftOf m e := by
    split <;> simp
  have hnat : firstRounded m e .exact * 2 ^ shiftOf m e * 2 ^ 53 ≤ (2 ^ 53 + 1) * m := by
    have hdouble := Nat.mul_le_mul_right (2 ^ 52) (hround.trans (Nat.add_le_add_left hhalf _))
    rw [Nat.add_mul] at hdouble
    calc firstRounded m e .exact * 2 ^ shiftOf m e * 2 ^ 53
        = 2 * (firstRounded m e .exact * 2 ^ shiftOf m e) * 2 ^ 52 := by ring
      _ ≤ 2 * m * 2 ^ 52 + 2 ^ shiftOf m e * 2 ^ 52 := hdouble
      _ ≤ 2 * m * 2 ^ 52 + m := Nat.add_le_add_left (two_pow_shiftOf_mul_le hm he) _
      _ = (2 ^ 53 + 1) * m := by ring
  have hrat : ((firstRounded m e .exact * 2 ^ shiftOf m e : ℕ) : ℚ) * 2 ^ 53 ≤
      (2 ^ 53 + 1) * m := by exact_mod_cast hnat
  rw [← dyadic_pow, dyadic, dyadic, ← mul_assoc]
  refine mul_le_mul_of_nonneg_right ?_ (zpow_nonneg zero_le_two e)
  rw [slack]
  linarith

/-- A significand of enough bits is rounded to one of 53 bits, with the value of the first rounded
significand. -/
theorem exists_roundWithAccuracy_eq (s : Sign) (hm : 2 ^ 52 ≤ m) (he : -1021 ≤ totalExponent m e) :
    ∃ m' e' h, roundWithAccuracy Format.binary64 s m e .exact = .finite s m' e' h ∧
      m'.log2 = 52 ∧ e + shiftOf m e ≤ e' ∧ e' ≤ e + shiftOf m e + 1 ∧
      dyadic m' e' = dyadic (firstRounded m e .exact) (e + shiftOf m e) := by
  have hlower := le_firstRounded .exact hm he
  have hupper := firstRounded_le m e .exact
  rw [roundWithAccuracy_eq, dif_neg (by omega)]
  by_cases hfull : firstRounded m e .exact = 2 ^ 53
  · refine ⟨2 ^ 52, _, by decide, if_pos hfull, Nat.log2_two_pow, by omega, le_rfl, ?_⟩
    rw [hfull, show (2 : ℕ) ^ 53 = 2 ^ 52 * 2 ^ 1 by decide, dyadic_pow]
    rfl
  · refine ⟨_, _, by omega, if_neg hfull, ?_, le_rfl, by omega, rfl⟩
    rw [Nat.log2_eq_iff (by omega)]
    omega

/-- Rounding a significand of enough bits makes it larger by one part in `2 ^ 53` at most. -/
theorem exists_roundWithAccuracy (s : Sign) (hm : 2 ^ 52 ≤ m) (he : -1021 ≤ totalExponent m e) :
    ∃ m' e' h, roundWithAccuracy Format.binary64 s m e .exact = .finite s m' e' h ∧
      m'.log2 = 52 ∧ totalExponent m e ≤ 53 + e' ∧ dyadic m' e' ≤ slack * dyadic m e := by
  obtain ⟨m', e', h, hround, hlog, hlow, -, hvalue⟩ := exists_roundWithAccuracy_eq s hm he
  have hexponent : totalExponent m e = 53 + (e + shiftOf m e) := by
    rw [totalExponent, log2_eq_shiftOf_add hm he]
    omega
  exact ⟨m', e', h, hround, hlog, by omega, hvalue.trans_le (dyadic_firstRounded_le hm he)⟩

end

/-- Zero, or a number with a significand of 53 bits and an exponent of at most some value. -/
def Below (bound : Int) : UnpackedFloat → Prop
  | .zero _ => True
  | .finite _ m e _ => m < 2 ^ 53 ∧ e ≤ bound
  | _ => False

theorem Below.isFinite {bound : Int} : ∀ {x : UnpackedFloat}, Below bound x → x.isFinite
  | .zero _, _ => rfl
  | .finite .., _ => rfl

theorem Below.mono {a b : Int} (hle : a ≤ b) : ∀ {x : UnpackedFloat}, Below a x → Below b x
  | .zero _, _ => trivial
  | .finite .., ⟨hm, he⟩ => ⟨hm, he.trans hle⟩

/-- The exponent of a rounded number is one above the exponent it is shifted to at most. -/
theorem below_roundWithAccuracy (s : Sign) (m : Nat) (e : Int) (a : Accuracy) :
    Below (max e (max (totalExponent m e - 53) (-1074)) + 1)
      (roundWithAccuracy Format.binary64 s m e a) := by
  have hexponent : e + shiftOf m e ≤ max e (max (totalExponent m e - 53) (-1074)) := by
    rw [shiftOf]
    omega
  have hle := firstRounded_le m e a
  rw [roundWithAccuracy_eq]
  split_ifs
  · trivial
  · exact ⟨by decide, by omega⟩
  · exact ⟨by omega, by omega⟩

end Workflow.Decimal
