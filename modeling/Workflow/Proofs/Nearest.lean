import Mathlib
import Workflow.Decimal.Fixed
import Workflow.Proofs.Floats

/-!
Integers as doubles. An integer of 64 bits becomes the nearest number with 53 binary digits, and of
two that are equally near the even one; so integers beyond `2 ^ 53` may become the same double, but
their order is never reversed. Finite doubles are compared by their exponents and then by their
significands, which is the order of their values.
-/
namespace Workflow.Decimal

open Float.Model Float.Model.UnpackedFloat

/-! ## Rounded quotients -/

theorem roundQuotient_bounds (n d : Nat) :
    n / d ≤ roundQuotient n d ∧ roundQuotient n d ≤ n / d + 1 := by
  unfold roundQuotient
  dsimp only
  split <;> omega

theorem roundQuotient_mul (k : Nat) {d : Nat} (hd : 0 < d) : roundQuotient (k * d) d = k := by
  unfold roundQuotient
  simp [Nat.mul_div_cancel _ hd, hd]

/-- What is lost in rounding is at most half of the divisor. -/
theorem two_mul_roundQuotient_sub_le (n : Nat) {d : Nat} (hd : 0 < d) :
    2 * ((roundQuotient n d * d : ℕ) - n : Int).natAbs ≤ d := by
  have hdivision : n / d * d + n % d = n := by rw [Nat.mul_comm, Nat.div_add_mod]
  have hlt : n % d < d := Nat.mod_lt n hd
  unfold roundQuotient
  dsimp only
  split
  · rename_i hdown
    simp only [Bool.or_eq_true, Bool.and_eq_true, decide_eq_true_eq] at hdown
    omega
  · rename_i hup
    simp only [Bool.or_eq_true, Bool.and_eq_true, decide_eq_true_eq] at hup
    rw [add_one_mul]
    omega

theorem roundQuotient_mono {m n : Nat} (d : Nat) (h : m ≤ n) :
    roundQuotient m d ≤ roundQuotient n d := by
  have hquotient : m / d ≤ n / d := Nat.div_le_div_right h
  by_cases heq : m / d = n / d
  · have hrest : m % d ≤ n % d := by
      have hm := Nat.div_add_mod m d
      have hn := Nat.div_add_mod n d
      rw [heq] at hm
      omega
    unfold roundQuotient
    dsimp only
    rw [heq]
    split
    · split <;> omega
    · rename_i hup
      rw [if_neg]
      simp only [Bool.or_eq_true, Bool.and_eq_true, decide_eq_true_eq] at hup ⊢
      omega
  · have hm := (roundQuotient_bounds m d).2
    have hn := (roundQuotient_bounds n d).1
    omega

/-! ## The nearest double -/

/-- How far apart the doubles around a number are, if it has more than 53 binary digits. -/
def gap (n : Nat) : Nat := 2 ^ (n.log2 - 52)

/-- The double nearest to a natural number; a tie goes to the even significand. -/
def nearestNat (n : Nat) : Nat := roundQuotient n (gap n) * gap n

/-- The double nearest to an integer. -/
def nearest (i : Int) : Int := i.sign * nearestNat i.natAbs

theorem gap_pos (n : Nat) : 0 < gap n := Nat.two_pow_pos _

theorem nearestNat_of_dvd {n : Nat} (h : gap n ∣ n) : nearestNat n = n := by
  obtain ⟨k, hk⟩ := h
  have hround : roundQuotient n (gap n) = k := by
    conv => lhs; arg 1; rw [hk, Nat.mul_comm]
    exact roundQuotient_mul k (gap_pos n)
  rw [nearestNat, hround, Nat.mul_comm, ← hk]

theorem nearestNat_eq_self {n : Nat} (h : n ≤ 2 ^ 53) : nearestNat n = n := by
  apply nearestNat_of_dvd
  by_cases hfull : n = 2 ^ 53
  · rw [hfull]
    decide +kernel
  by_cases hzero : n = 0
  · rw [hzero]
    exact dvd_zero _
  have hlog : n.log2 < 53 := (Nat.log2_lt hzero).2 (by omega)
  rw [gap, show n.log2 - 52 = 0 by omega, pow_zero]
  exact one_dvd n

/-- What has as many binary digits as a number is rounded like it. -/
theorem roundQuotient_gap_mul {n k : Nat} (hk : n.log2 - 52 ≤ k) :
    roundQuotient (2 ^ k) (gap n) * gap n = 2 ^ k := by
  have hpower : 2 ^ k = 2 ^ (k - (n.log2 - 52)) * gap n := by
    rw [gap, ← pow_add]
    congr 1
    omega
  rw [hpower, roundQuotient_mul _ (gap_pos n)]

theorem two_pow_le_nearestNat {n : Nat} (hn : n ≠ 0) : 2 ^ n.log2 ≤ nearestNat n := by
  rw [← roundQuotient_gap_mul (n := n) (k := n.log2) (by omega)]
  exact Nat.mul_le_mul_right _ (roundQuotient_mono (gap n) (Nat.log2_self_le hn))

theorem nearestNat_le_two_pow (n : Nat) : nearestNat n ≤ 2 ^ (n.log2 + 1) := by
  rw [← roundQuotient_gap_mul (n := n) (k := n.log2 + 1) (by omega)]
  exact Nat.mul_le_mul_right _ (roundQuotient_mono (gap n) Nat.lt_log2_self.le)

theorem nearestNat_mono {m n : Nat} (h : m ≤ n) : nearestNat m ≤ nearestNat n := by
  by_cases hzero : m = 0
  · rw [hzero, nearestNat_eq_self (Nat.zero_le _)]
    exact Nat.zero_le _
  have hn : n ≠ 0 := by omega
  have hlog : m.log2 ≤ n.log2 := (Nat.le_log2 hn).2 ((Nat.log2_self_le hzero).trans h)
  by_cases heq : m.log2 = n.log2
  · have hgap : gap m = gap n := by rw [gap, gap, heq]
    rw [nearestNat, nearestNat, hgap]
    exact Nat.mul_le_mul_right _ (roundQuotient_mono (gap n) h)
  · calc nearestNat m ≤ 2 ^ (m.log2 + 1) := nearestNat_le_two_pow m
      _ ≤ 2 ^ n.log2 := Nat.pow_le_pow_right two_pos (by omega)
      _ ≤ nearestNat n := two_pow_le_nearestNat hn

theorem nearest_of_nonneg {i : Int} (h : 0 ≤ i) : nearest i = nearestNat i.natAbs := by
  obtain hpos | rfl := h.lt_or_eq
  · rw [nearest, Int.sign_eq_one_of_pos hpos, one_mul]
  · rfl

theorem nearest_of_neg {i : Int} (h : i < 0) : nearest i = -nearestNat i.natAbs := by
  rw [nearest, Int.sign_eq_neg_one_of_neg h, neg_one_mul]

theorem nearest_eq_self {i : Int} (h : i.natAbs ≤ 2 ^ 53) : nearest i = i := by
  rw [nearest, nearestNat_eq_self h, Int.sign_mul_natAbs]

/-- An integer is at most half of the gap away from the nearest double. -/
theorem two_mul_nearest_sub_le (i : Int) : 2 * (nearest i - i).natAbs ≤ gap i.natAbs := by
  have hround := two_mul_roundQuotient_sub_le i.natAbs (gap_pos i.natAbs)
  rw [← nearestNat] at hround
  by_cases hi : 0 ≤ i
  · rw [nearest_of_nonneg hi]
    omega
  · rw [nearest_of_neg (not_le.1 hi)]
    omega

/-- Rounding does not reverse the order of integers. -/
theorem nearest_mono {i j : Int} (h : i ≤ j) : nearest i ≤ nearest j := by
  by_cases hi : 0 ≤ i
  · rw [nearest_of_nonneg hi, nearest_of_nonneg (hi.trans h)]
    exact_mod_cast nearestNat_mono (by omega)
  rw [nearest_of_neg (not_le.1 hi)]
  by_cases hj : 0 ≤ j
  · rw [nearest_of_nonneg hj]
    omega
  · rw [nearest_of_neg (not_le.1 hj)]
    have hle : nearestNat j.natAbs ≤ nearestNat i.natAbs := nearestNat_mono (by omega)
    omega

/-- Two integers are compared exactly unless they become the same double. -/
theorem compare_nearest (i j : Int) :
    compare (nearest i) (nearest j) = if nearest i = nearest j then .eq else compare i j := by
  split_ifs with heq
  · exact compare_eq_iff_eq.2 heq
  rcases lt_trichotomy i j with h | rfl | h
  · rw [compare_lt_iff_lt.2 h, compare_lt_iff_lt.2 (lt_of_le_of_ne (nearest_mono h.le) heq)]
  · exact absurd rfl heq
  · rw [compare_gt_iff_gt.2 h,
      compare_gt_iff_gt.2 (lt_of_le_of_ne (nearest_mono h.le) (Ne.symm heq))]

/-! ## Integers as doubles -/

theorem stickyBit_shiftRight (m t : Nat) :
    (ExtendedMantissa.ofMantissaAndAccuracy m .exact >>> (t + 1)).stickyBit =
      (m % 2 ^ t != 0) := by
  induction t with
  | zero => rw [pow_zero, Nat.mod_one]; rfl
  | succ t ih =>
    change ((ExtendedMantissa.ofMantissaAndAccuracy m .exact >>> (t + 1)).roundBit ||
      (ExtendedMantissa.ofMantissaAndAccuracy m .exact >>> (t + 1)).stickyBit) = _
    rw [ih, roundBit_shiftRight, mantissa_ofMantissaAndAccuracy, pow_succ, Nat.mod_mul]
    rcases Nat.mod_two_eq_zero_or_one (m / 2 ^ t) with hbit | hbit
    · simp [hbit]
    · simp [hbit]

/-- A significand is shifted to the nearest one. -/
theorem roundedMantissa_shiftRight (m t : Nat) :
    (ExtendedMantissa.ofMantissaAndAccuracy m .exact >>> t).roundedMantissa =
      roundQuotient m (2 ^ t) := by
  cases t with
  | zero =>
    have hround := roundQuotient_mul m one_pos
    rw [mul_one] at hround
    rw [pow_zero, hround]
    rfl
  | succ t =>
    have hmantissa := mantissa_shiftRight (.ofMantissaAndAccuracy m .exact) (t + 1)
    have hround := roundBit_shiftRight (.ofMantissaAndAccuracy m .exact) t
    have hsticky := stickyBit_shiftRight m t
    rw [mantissa_ofMantissaAndAccuracy] at hmantissa hround
    have hrest : m % 2 ^ (t + 1) = m % 2 ^ t + 2 ^ t * (m / 2 ^ t % 2) := by
      rw [pow_succ, Nat.mod_mul]
    have hlt : m % 2 ^ t < 2 ^ t := Nat.mod_lt _ (Nat.two_pow_pos t)
    have hpower : 2 ^ (t + 1) = 2 * 2 ^ t := by rw [pow_succ, Nat.mul_comm]
    generalize ExtendedMantissa.ofMantissaAndAccuracy m .exact >>> (t + 1) = em at *
    obtain ⟨q, r, s⟩ := em
    change q = m / 2 ^ (t + 1) at hmantissa
    change r = (m / 2 ^ t % 2 != 0) at hround
    change s = (m % 2 ^ t != 0) at hsticky
    subst hround hsticky
    unfold roundQuotient
    rw [← hmantissa, hrest, hpower]
    -- The bit behind the significand tells which half of the gap is dropped, and the others whether
    -- it is just the middle.
    rcases Nat.mod_two_eq_zero_or_one (m / 2 ^ t) with hbit | hbit
    · rw [roundedMantissa_of_roundBit (by simp [hbit]), hbit, if_pos]
      simp only [Bool.or_eq_true, decide_eq_true_eq]
      omega
    by_cases hmiddle : m % 2 ^ t = 0
    · simp only [hbit, hmiddle]
      change q + q % 2 = _
      rcases Nat.mod_two_eq_zero_or_one q with hq | hq <;> simp [hq]
    · have hup : (m % 2 ^ t != 0) = true := by simpa using hmiddle
      simp only [hbit, hup]
      change q + 1 = _
      rw [if_neg]
      simp only [Bool.or_eq_true, Bool.and_eq_true, decide_eq_true_eq]
      omega

section

variable {n : Nat}

/-- The leading bit of a number stands where it is shifted by the bits that are too many. -/
theorem totalExponent_leading (hne : n ≠ 0) :
    totalExponent (n * 2 ^ (52 - n.log2)) (-(52 - n.log2 : ℕ)) = n.log2 + 1 := by
  rw [totalExponent, log2_mul_two_pow hne]
  omega

theorem shiftOf_leading (hne : n ≠ 0) :
    shiftOf (n * 2 ^ (52 - n.log2)) (-(52 - n.log2 : ℕ)) = n.log2 - 52 := by
  rw [shiftOf, totalExponent_leading hne]
  omega

theorem dyadic_firstRounded_leading (hne : n ≠ 0) :
    dyadic (firstRounded (n * 2 ^ (52 - n.log2)) (-(52 - n.log2 : ℕ)) .exact)
      (-(52 - n.log2 : ℕ) + (n.log2 - 52 : ℕ)) = nearestNat n := by
  rw [firstRounded, shiftOf_leading hne, roundedMantissa_shiftRight]
  by_cases hsmall : n.log2 ≤ 52
  · have hgap : gap n = 1 := by rw [gap, show n.log2 - 52 = 0 by omega, pow_zero]
    have hround := roundQuotient_mul (n * 2 ^ (52 - n.log2)) one_pos
    rw [mul_one] at hround
    rw [nearestNat_of_dvd (by rw [hgap]; exact one_dvd n), show n.log2 - 52 = 0 by omega, pow_zero,
      hround, dyadic_pow, Nat.cast_zero, add_zero, neg_add_cancel, dyadic, zpow_zero, mul_one]
  · rw [show 52 - n.log2 = 0 by omega, pow_zero, mul_one, ← dyadic_pow, Nat.cast_zero, neg_zero,
      dyadic, zpow_zero, mul_one, nearestNat, gap]

/-- The double of a number above zero has the nearest number as its value. -/
theorem exists_unpack_toFloat (hne : n ≠ 0) (hn : n < 2 ^ 64) :
    ∃ m e h, (UInt64.ofNat n).toFloat.toModel.unpack = .finite .positive m e h ∧ m.log2 = 52 ∧
      -52 ≤ e ∧ e ≤ 12 ∧ dyadic m e = nearestNat n := by
  have hword : n.log2 < 64 := (Nat.log2_lt hne).2 hn
  have hleading := totalExponent_leading hne
  have hshift := shiftOf_leading hne
  have hbits : 2 ^ 52 ≤ n * 2 ^ (52 - n.log2) := by
    rw [← Nat.le_log2 (by positivity), log2_mul_two_pow hne]
    omega
  obtain ⟨m, e, h, hround, hlog, hlow, hhigh, hvalue⟩ :=
    exists_roundWithAccuracy_eq .positive hbits (by rw [hleading]; omega)
  rw [hshift] at hlow hhigh hvalue
  rw [dyadic_firstRounded_leading hne] at hvalue
  refine ⟨m, e, h, ?_, hlog, by omega, by omega, hvalue⟩
  rw [toFloat_ofNat hne hn]
  change (Float.Model.pack _).unpack = _
  rw [hround]
  exact unpack_pack _ _ hlog (by omega) (by omega)

end

/-! ## Comparing doubles -/

/-- A significand that is not zero: it has all its bits, unless its exponent is the least that a
double can have. -/
structure Aligned (m : Nat) (e : Int) : Prop where
  pos : 0 < m
  lt : m < 2 ^ 53
  least_le : -1074 ≤ e
  full : e = -1074 ∨ 2 ^ 52 ≤ m

/-- A double that has a rational number as its value. -/
inductive HasValue : UnpackedFloat → ℚ → Prop
  | zero (s : Sign) : HasValue (.zero s) 0
  | positive {m : Nat} {e : Int} (h : Aligned m e) :
    HasValue (.finite .positive m e h.pos) (dyadic m e)
  | negative {m : Nat} {e : Int} (h : Aligned m e) :
    HasValue (.finite .negative m e h.pos) (-dyadic m e)

section

variable {m m₁ m₂ : Nat} {e e₁ e₂ : Int}

theorem aligned_of_log2_eq (h : 0 < m) (hm : m.log2 = 52) (he : -1074 ≤ e) : Aligned m e where
  pos := h
  lt := ((Nat.log2_eq_iff h.ne').1 hm).2
  least_le := he
  full := Or.inr ((Nat.log2_eq_iff h.ne').1 hm).1

theorem Aligned.dyadic_pos (h : Aligned m e) : 0 < dyadic m e :=
  mul_pos (by exact_mod_cast h.pos) (zpow_pos two_pos e)

/-- Of two significands, the one with the larger exponent has the larger value. -/
theorem Aligned.dyadic_lt_of_exponent_lt (h₁ : Aligned m₁ e₁) (h₂ : Aligned m₂ e₂) (he : e₁ < e₂) :
    dyadic m₁ e₁ < dyadic m₂ e₂ := by
  have hlower : 2 ^ 52 ≤ m₂ := h₂.full.resolve_left (h₁.least_le.trans_lt he).ne'
  calc dyadic m₁ e₁ < dyadic (2 ^ 53) e₁ :=
        mul_lt_mul_of_pos_right (by exact_mod_cast h₁.lt) (zpow_pos two_pos e₁)
    _ = dyadic (2 ^ 52) (e₁ + 1) := by
        rw [show (2 : ℕ) ^ 53 = 2 ^ 52 * 2 ^ 1 by decide, dyadic_pow]
        rfl
    _ ≤ dyadic (2 ^ 52) e₂ :=
        mul_le_mul_of_nonneg_left (zpow_le_zpow_right₀ one_le_two (by omega)) (Nat.cast_nonneg _)
    _ ≤ dyadic m₂ e₂ :=
        mul_le_mul_of_nonneg_right (by exact_mod_cast hlower) (zpow_nonneg zero_le_two e₂)

theorem Aligned.compare_dyadic (h₁ : Aligned m₁ e₁) (h₂ : Aligned m₂ e₂) :
    (compare e₁ e₂).then (compare m₁ m₂) = compare (dyadic m₁ e₁) (dyadic m₂ e₂) := by
  rcases lt_trichotomy e₁ e₂ with he | rfl | he
  · rw [compare_lt_iff_lt.2 he, compare_lt_iff_lt.2 (h₁.dyadic_lt_of_exponent_lt h₂ he)]
    rfl
  · rw [compare_eq_iff_eq.2 rfl]
    have hpos : (0 : ℚ) < 2 ^ e₁ := zpow_pos two_pos e₁
    change compare m₁ m₂ = _
    rcases lt_trichotomy m₁ m₂ with hm | rfl | hm
    · rw [compare_lt_iff_lt.2 hm, compare_lt_iff_lt.2]
      exact mul_lt_mul_of_pos_right (by exact_mod_cast hm) hpos
    · rw [compare_eq_iff_eq.2 rfl, compare_eq_iff_eq.2 rfl]
    · rw [compare_gt_iff_gt.2 hm, compare_gt_iff_gt.2]
      exact mul_lt_mul_of_pos_right (by exact_mod_cast hm) hpos
  · rw [compare_gt_iff_gt.2 he, compare_gt_iff_gt.2 (h₂.dyadic_lt_of_exponent_lt h₁ he)]
    rfl

end

theorem compare_neg (v w : ℚ) : compare (-v) (-w) = (compare v w).swap := by
  rcases lt_trichotomy v w with h | rfl | h
  · rw [compare_lt_iff_lt.2 h, compare_gt_iff_gt.2 (neg_lt_neg h)]
    rfl
  · rw [compare_eq_iff_eq.2 rfl, compare_eq_iff_eq.2 rfl]
    rfl
  · rw [compare_gt_iff_gt.2 h, compare_lt_iff_lt.2 (neg_lt_neg h)]
    rfl

/-- Doubles are compared by their values. -/
theorem HasValue.compare_eq {x y : UnpackedFloat} {v w : ℚ} (hx : HasValue x v)
    (hy : HasValue y w) : x.compare y = some (compare v w) := by
  cases hx with
  | zero s =>
    cases hy with
    | zero t => rfl
    | positive h => exact congrArg some (compare_lt_iff_lt.2 h.dyadic_pos).symm
    | negative h => exact congrArg some (compare_gt_iff_gt.2 (neg_lt_zero.2 h.dyadic_pos)).symm
  | positive h₁ =>
    have hpos := h₁.dyadic_pos
    cases hy with
    | zero t => exact congrArg some (compare_gt_iff_gt.2 hpos).symm
    | positive h₂ => exact congrArg some (h₁.compare_dyadic h₂)
    | negative h₂ =>
      exact congrArg some (compare_gt_iff_gt.2 ((neg_lt_zero.2 h₂.dyadic_pos).trans hpos)).symm
  | negative h₁ =>
    have hneg := neg_lt_zero.2 h₁.dyadic_pos
    cases hy with
    | zero t => exact congrArg some (compare_lt_iff_lt.2 hneg).symm
    | positive h₂ => exact congrArg some (compare_lt_iff_lt.2 (hneg.trans h₂.dyadic_pos)).symm
    | negative h₂ =>
      rw [compare_neg, ← h₁.compare_dyadic h₂]
      rfl

theorem hasValue_finite {m : Nat} {e : Int} (s : Sign) (h : Aligned m e) :
    ∃ v, HasValue (.finite s m e h.pos) v := by
  cases s with
  | positive => exact ⟨_, .positive h⟩
  | negative => exact ⟨_, .negative h⟩

/-- Every finite double has a value. -/
theorem exists_hasValue {x : Float.Model} (hx : x.isFinite) : ∃ v, HasValue x.unpack v := by
  have hfield : exponentField x < 2047 := exponentField_lt_of_isFinite hx
  have hlast : @unpackExponent Format.binary64 x.toBits.toBitVec ≠ -1#11 := by
    intro hfull
    rw [exponentField, hfull] at hfield
    exact absurd hfield (by decide)
  rw [Float.Model.unpack, UnpackedFloat.unpack]
  simp only [hlast, if_false]
  split_ifs with hleast hzero
  · exact ⟨0, .zero _⟩
  · -- Without an implicit bit the exponent is the least.
    refine hasValue_finite _ ⟨?_, Nat.lt_trans (BitVec.isLt _) (by decide), ?_, Or.inl ?_⟩
    · exact Nat.pos_of_ne_zero fun h => hzero (BitVec.eq_of_toNat_eq h)
    · rw [hleast]
      decide
    · rw [hleast]
      decide
  · have hfull : 2 ^ 52 ≤ (1#1 ++ @unpackMantissa Format.binary64 x.toBits.toBitVec).toNat := by
      exact (Nat.le_add_right _ _).trans_eq (toNat_leading_append _).symm
    refine hasValue_finite _ ⟨Nat.lt_of_lt_of_le (by decide) hfull, BitVec.isLt _, ?_, Or.inr hfull⟩
    have hne : exponentField x ≠ 0 := fun h => hleast (BitVec.eq_of_toNat_eq h)
    change -1074 ≤ ((exponentField x : ℕ) : Int) - (1023 + 52)
    omega

/-- The value of an integer's double is the nearest integer of 53 binary digits. -/
theorem hasValue_roundInt {i : Int} (hi : (Json.Number.integer i).Proper) :
    HasValue (Json.Number.roundInt i).toModel.unpack (nearest i) := by
  obtain ⟨hlow, hhigh⟩ := hi
  rw [Json.Number.largestWord] at hhigh
  by_cases hzero : i = 0
  · subst hzero
    exact .zero .positive
  obtain ⟨m, e, h, hunpack, hlog, helow, hehigh, hvalue⟩ :=
    exists_unpack_toFloat (n := i.natAbs) (by omega) (by omega)
  rw [Json.Number.roundInt]
  split_ifs with hsign
  · change HasValue (Float.Model.pack (UInt64.ofNat i.natAbs).toFloat.toModel.unpack.neg).unpack _
    rw [hunpack, nearest_of_neg hsign, Int.cast_neg, Int.cast_natCast, ← hvalue]
    change HasValue (Float.Model.pack (.finite .negative m e h)).unpack _
    rw [unpack_pack _ _ hlog (by omega) (by omega)]
    exact .negative (aligned_of_log2_eq h hlog (by omega))
  · rw [hunpack, nearest_of_nonneg (not_lt.1 hsign), Int.cast_natCast, ← hvalue]
    exact .positive (aligned_of_log2_eq h hlog (by omega))

end Workflow.Decimal
