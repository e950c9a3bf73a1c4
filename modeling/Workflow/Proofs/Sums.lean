import Workflow.Proofs.Nearest

/-!
Sums of doubles. The sum of two numbers above zero is rounded once, and rounding does not go below a
double that is not larger than the sum. So a double that is not negative does not become smaller
when five is added; the sum is no larger than doubles can be.
-/
namespace Workflow.Decimal

open Float.Model Float.Model.UnpackedFloat

/-! ## Exact values -/

theorem fraction_eq (x : Float) :
    (@unpackMantissa Format.binary64 x.toModel.toBits.toBitVec).toNat =
      x.toBits.toNat % 2 ^ 52 := by
  change ((x.toBits.toBitVec.extractLsb 51 0).cast _).toNat = _
  rw [BitVec.toNat_cast, BitVec.extractLsb_toNat, Nat.shiftRight_zero]
  rfl

theorem sign_eq (x : Float) :
    Sign.ofBitVec (@unpackSign Format.binary64 x.toModel.toBits.toBitVec) =
      if x.toBits.toNat / 2 ^ 63 % 2 = 1 then .negative else .positive := by
  have hsign : (@unpackSign Format.binary64 x.toModel.toBits.toBitVec).toNat =
      x.toBits.toNat / 2 ^ 63 % 2 := by
    change ((x.toBits.toBitVec.extractLsb 63 63).cast _).toNat = _
    rw [BitVec.toNat_cast, BitVec.extractLsb_toNat, Nat.shiftRight_eq_div_pow]
    rfl
  rw [← hsign]
  generalize @unpackSign Format.binary64 x.toModel.toBits.toBitVec = b
  have hb : b = 0#1 ∨ b = 1#1 := by
    change BitVec 1 at b
    revert b
    decide
  rcases hb with rfl | rfl <;> rfl

/-- What a double stands for, as it is unpacked and as its bits are read. -/
inductive Same : UnpackedFloat → Reading → Prop
  | notANumber : Same .notANumber .notANumber
  | infinity (s : Sign) : Same (.infinity s) (.infinite (s == .negative))
  | zero (s : Sign) : Same (.zero s) (.zero (s == .negative))
  | finite (s : Sign) (m : Nat) (e : Int) (h : 0 < m) (narrow : Bool) :
    Same (.finite s m e h) (.finite (s == .negative) ⟨m, e, narrow⟩)

theorem decide_sign_eq (x : Float) : decide (x.toBits.toNat / 2 ^ 63 % 2 = 1) =
    (Sign.ofBitVec (@unpackSign Format.binary64 x.toModel.toBits.toBitVec) == .negative) := by
  rw [sign_eq]
  split_ifs with h
  · rw [h]
    rfl
  · rw [decide_eq_false h]
    rfl

theorem ofDouble_eq (x : Float) : ofDouble x =
    if x.toBits.toNat / 2 ^ 52 % 2 ^ 11 = 2047 then
      if x.toBits.toNat % 2 ^ 52 = 0 then
        .infinite (decide (x.toBits.toNat / 2 ^ 63 % 2 = 1)) else .notANumber
    else if x.toBits.toNat / 2 ^ 52 % 2 ^ 11 = 0 then
      if x.toBits.toNat % 2 ^ 52 = 0 then .zero (decide (x.toBits.toNat / 2 ^ 63 % 2 = 1))
      else .finite (decide (x.toBits.toNat / 2 ^ 63 % 2 = 1))
        ⟨x.toBits.toNat % 2 ^ 52, -1074, false⟩
    else .finite (decide (x.toBits.toNat / 2 ^ 63 % 2 = 1)) ⟨2 ^ 52 + x.toBits.toNat % 2 ^ 52,
      -1074 + (x.toBits.toNat / 2 ^ 52 % 2 ^ 11 - 1 : ℕ),
      x.toBits.toNat % 2 ^ 52 = 0 && x.toBits.toNat / 2 ^ 52 % 2 ^ 11 ≠ 1⟩ := rfl

/-- The bits of a double are read as the exact value that it has. -/
theorem same_ofDouble (x : Float) : Same x.toModel.unpack (ofDouble x) := by
  have hfraction := fraction_eq x
  have hexponent := exponentField_eq x
  rw [exponentField] at hexponent
  rw [ofDouble_eq, decide_sign_eq, ← hfraction, ← hexponent, Float.Model.unpack,
    UnpackedFloat.unpack]
  have hlast : (-BitVec.ofNat Format.binary64.exponentBits 1).toNat = 2047 := rfl
  have hmantissa : (1#1 ++ @unpackMantissa Format.binary64 x.toModel.toBits.toBitVec).toNat =
      2 ^ 52 + (@unpackMantissa Format.binary64 x.toModel.toBits.toBitVec).toNat :=
    toNat_leading_append _
  simp only [BitVec.toNat_eq, hlast, hmantissa, BitVec.toNat_ofNat, Nat.zero_mod]
  split_ifs with h₁ h₂ h₃ h₄
  · exact .infinity _
  · exact .notANumber
  · exact .zero _
  · rw [h₃]
    exact .finite _ _ _ _ _
  · have hexp : ((@unpackExponent Format.binary64 x.toModel.toBits.toBitVec).toNat : ℤ) -
        (Format.binary64.exponentBias + Format.binary64.mantissaBitsWithoutImplicit) =
        -1074 + ((@unpackExponent Format.binary64 x.toModel.toBits.toBitVec).toNat - 1 : ℕ) := by
      change _ - ((1023 : ℤ) + 52) = _
      omega
    simp only [hexp]
    exact .finite _ _ _ _ _

/-! ## Rounding against other doubles -/

section Round

variable {m n : Nat} {e s : Int}

theorem dyadic_bounds (hn : 0 < n) :
    (2 : ℚ) ^ (totalExponent n s - 1) ≤ dyadic n s ∧ dyadic n s < 2 ^ totalExponent n s := by
  have hbounds := (Nat.log2_eq_iff hn.ne').1 rfl
  have hpos : (0 : ℚ) < 2 ^ s := zpow_pos two_pos s
  have hlow : totalExponent n s - 1 = n.log2 + s := by
    rw [totalExponent]
    ring
  have hhigh : totalExponent n s = (n.log2 + 1 : ℕ) + s := by
    rw [totalExponent]
    push_cast
    ring
  constructor
  · rw [hlow, zpow_add₀ two_ne_zero, dyadic, mul_le_mul_iff_left₀ hpos, zpow_natCast]
    exact_mod_cast hbounds.1
  · rw [hhigh, zpow_add₀ two_ne_zero, dyadic, mul_lt_mul_iff_left₀ hpos, zpow_natCast]
    exact_mod_cast hbounds.2

/-- A double that is not larger than a number is not larger than the number rounded to a grid with
all bits of a significand. -/
theorem Aligned.dyadic_le_roundQuotient (h : Aligned m e) {k : Nat}
    (hbits : 2 ^ 52 ≤ roundQuotient n (2 ^ k)) (hle : dyadic m e ≤ dyadic n s) :
    dyadic m e ≤ dyadic (roundQuotient n (2 ^ k)) (s + k) := by
  by_cases he : s + k ≤ e
  · -- The double is on the grid, so the part of the number that is on the grid is not smaller.
    obtain ⟨j, rfl⟩ : ∃ j : ℕ, e = s + k + j := ⟨(e - (s + k)).toNat, by omega⟩
    rw [← dyadic_pow] at hle ⊢
    refine mul_le_mul_of_nonneg_right ?_ (zpow_nonneg zero_le_two _)
    have hpos : (0 : ℚ) < 2 ^ s := zpow_pos two_pos s
    rw [← dyadic_pow, dyadic, dyadic, mul_le_mul_iff_left₀ hpos] at hle
    have hnat : m * 2 ^ j * 2 ^ k ≤ n := by exact_mod_cast hle
    have hquotient := (Nat.le_div_iff_mul_le (Nat.two_pow_pos k)).2 hnat
    exact_mod_cast hquotient.trans (roundQuotient_bounds n (2 ^ k)).1
  · have hexponent : e + 53 ≤ 52 + (s + k) := by omega
    calc dyadic m e ≤ dyadic (2 ^ 53) e :=
          mul_le_mul_of_nonneg_right (by exact_mod_cast h.lt.le) (zpow_nonneg zero_le_two _)
      _ = 2 ^ (e + 53) := by
          rw [dyadic, zpow_add₀ two_ne_zero, mul_comm]
          norm_num
      _ ≤ 2 ^ (52 + (s + k)) := zpow_le_zpow_right₀ one_le_two hexponent
      _ = dyadic (2 ^ 52) (s + k) := by
          rw [dyadic, zpow_add₀ two_ne_zero]
          norm_num
      _ ≤ dyadic (roundQuotient n (2 ^ k)) (s + k) :=
          mul_le_mul_of_nonneg_right (by exact_mod_cast hbits) (zpow_nonneg zero_le_two _)

theorem two_mul_dyadic_roundQuotient_le (n k : Nat) (s : Int) :
    2 * dyadic (roundQuotient n (2 ^ k)) (s + k) ≤ 2 * dyadic n s + 2 ^ (s + k) := by
  have hround := two_mul_roundQuotient_sub_le n (Nat.two_pow_pos k)
  have hnat : 2 * (roundQuotient n (2 ^ k) * 2 ^ k) ≤ 2 * n + 2 ^ k := by omega
  have hrat : (2 * (roundQuotient n (2 ^ k) * 2 ^ k : ℕ) : ℚ) ≤ 2 * n + 2 ^ k := by
    exact_mod_cast hnat
  have hscaled := mul_le_mul_of_nonneg_right hrat (zpow_nonneg zero_le_two s)
  rw [← dyadic_pow, dyadic, dyadic, zpow_add₀ two_ne_zero, zpow_natCast]
  linarith

/-- A number is rounded to a significand with all its bits. A double that is not larger than the
number is not larger than the rounded one, which is at most half a unit of the last place above the
number. -/
theorem exists_round (hn : 0 < n) (hs : 1 ≤ totalExponent n s) :
    ∃ m' e' h, UnpackedFloat.round Format.binary64 .positive n s = .finite .positive m' e' h ∧
      m'.log2 = 52 ∧ -52 ≤ e' ∧
      (∀ m e, Aligned m e → dyadic m e ≤ dyadic n s → dyadic m e ≤ dyadic m' e') ∧
      2 * dyadic m' e' ≤ 2 * dyadic n s + 2 ^ (totalExponent n s - 53) := by
  obtain ⟨k, hk⟩ : ∃ k, k = (s - (totalExponent n s - 53)).toNat := ⟨_, rfl⟩
  have hround : UnpackedFloat.round Format.binary64 .positive n s =
      roundWithAccuracy Format.binary64 .positive (n * 2 ^ k) (s - k) .exact := by
    rw [UnpackedFloat.round, targetExponent_eq, max_eq_left (by omega), decreaseExponent, hk,
      Nat.shiftLeft_eq]
  have hvalue : dyadic (n * 2 ^ k) (s - k) = dyadic n s := by
    rw [dyadic_pow, sub_add_cancel]
  have hlog : (n * 2 ^ k).log2 = n.log2 + k := log2_mul_two_pow hn.ne' k
  have htotal : totalExponent (n * 2 ^ k) (s - k) = totalExponent n s := by
    rw [totalExponent, totalExponent, hlog]
    push_cast
    ring
  have hbits : 2 ^ 52 ≤ n * 2 ^ k := by
    rw [← Nat.le_log2 (by positivity), hlog, hk, totalExponent]
    omega
  have hgrid : s - k + shiftOf (n * 2 ^ k) (s - k) = totalExponent n s - 53 := by
    rw [shiftOf, htotal]
    omega
  obtain ⟨m', e', h, heq, hlog', hlow, -, hrounded⟩ :=
    exists_roundWithAccuracy_eq .positive hbits (by rw [htotal]; omega)
  have hfirst := le_firstRounded .exact hbits (e := s - k) (by rw [htotal]; omega)
  rw [firstRounded, roundedMantissa_shiftRight] at hrounded hfirst
  refine ⟨m', e', h, hround.trans heq, hlog', by omega, ?_, ?_⟩
  · intro m e hm hle
    rw [hrounded]
    exact hm.dyadic_le_roundQuotient hfirst (by rwa [hvalue])
  · have hupper := two_mul_dyadic_roundQuotient_le (n * 2 ^ k) (shiftOf (n * 2 ^ k) (s - k)) (s - k)
    rwa [← hrounded, hvalue, hgrid] at hupper

/-- A double below a power of two is below it by one unit of its last place. -/
theorem Aligned.dyadic_le_of_lt (h : Aligned m e) {k : Int} (hlt : dyadic m e < 2 ^ k) :
    dyadic m e ≤ 2 ^ k - 2 ^ (k - 53) := by
  have hpower : (2 : ℚ) ^ k = dyadic (2 ^ 53) (k - 53) := by
    rw [dyadic, zpow_sub₀ two_ne_zero]
    norm_num
    ring
  have hunit : (2 : ℚ) ^ k - 2 ^ (k - 53) = dyadic (2 ^ 53 - 1) (k - 53) := by
    rw [hpower, dyadic, dyadic]
    norm_num
    ring
  have hpos : (0 : ℚ) < 2 ^ (k - 53) := zpow_pos two_pos _
  rw [hunit]
  by_cases he : k - 53 ≤ e
  · obtain ⟨j, rfl⟩ : ∃ j : ℕ, e = k - 53 + j := ⟨(e - (k - 53)).toNat, by omega⟩
    rw [hpower, ← dyadic_pow, dyadic, dyadic, mul_lt_mul_iff_left₀ hpos] at hlt
    rw [← dyadic_pow]
    refine mul_le_mul_of_nonneg_right ?_ hpos.le
    have hnat : m * 2 ^ j < 2 ^ 53 := by exact_mod_cast hlt
    exact_mod_cast Nat.le_sub_one_of_lt hnat
  · calc dyadic m e ≤ dyadic (2 ^ 53) e :=
          mul_le_mul_of_nonneg_right (by exact_mod_cast h.lt.le) (zpow_nonneg zero_le_two _)
      _ ≤ dyadic (2 ^ 53) (k - 53 - 1) :=
          mul_le_mul_of_nonneg_left (zpow_le_zpow_right₀ one_le_two (by omega)) (Nat.cast_nonneg _)
      _ = dyadic (2 ^ 52) (k - 53) := by
          rw [show (2 : ℕ) ^ 53 = 2 ^ 52 * 2 ^ 1 by decide, dyadic_pow]
          norm_num
      _ ≤ dyadic (2 ^ 53 - 1) (k - 53) :=
          mul_le_mul_of_nonneg_right (by norm_num) hpos.le

end Round

/-! ## Five more -/

/-- The sum of two numbers above zero is rounded once. -/
theorem exists_add_eq_round {m₁ m₂ : Nat} (e₁ e₂ : Int) (h₁ : 0 < m₁) (h₂ : 0 < m₂) :
    ∃ n s, 0 < n ∧ dyadic n s = dyadic m₁ e₁ + dyadic m₂ e₂ ∧
      UnpackedFloat.add Format.binary64 (.finite .positive m₁ e₁ h₁) (.finite .positive m₂ e₂ h₂) =
        UnpackedFloat.round Format.binary64 .positive n s := by
  obtain ⟨s, hs⟩ : ∃ s, s = min e₁ e₂ := ⟨_, rfl⟩
  have hvalue (m : Nat) {e : Int} (he : s ≤ e) :
      dyadic (m * 2 ^ (e - s).toNat) s = dyadic m e := by
    rw [dyadic_pow, Int.toNat_of_nonneg (by omega)]
    ring_nf
  refine ⟨m₁ * 2 ^ (e₁ - s).toNat + m₂ * 2 ^ (e₂ - s).toNat, s, by positivity, ?_, ?_⟩
  · rw [← hvalue m₁ (by omega), ← hvalue m₂ (by omega), dyadic, dyadic, dyadic, Nat.cast_add,
      add_mul]
  · have hpos : (0 : ℤ) < (m₁ * 2 ^ (e₁ - s).toNat + m₂ * 2 ^ (e₂ - s).toNat : ℕ) := by
      exact_mod_cast (by positivity : 0 < m₁ * 2 ^ (e₁ - s).toNat + m₂ * 2 ^ (e₂ - s).toNat)
    simp only [UnpackedFloat.add, decreaseExponent, Nat.shiftLeft_eq, ← hs, Sign.apply,
      ← Nat.cast_add]
    rw [UnpackedFloat.normalize, compare_gt_iff_gt.2 hpos, Int.toNat_natCast]

theorem two_zpow_eq_two_mul (k : Int) : (2 : ℚ) ^ (k - 53) = 2 * 2 ^ (k - 54) := by
  rw [← zpow_one_add₀ two_ne_zero]
  ring_nf

/-- A double and five have a sum that is rounded to less than a large power of two, if the double is
less: it is so by one unit of the last place, of which five is a small part. -/
theorem Aligned.dyadic_lt_of_add_five {m n m' : Nat} {e s e' : Int} (h : Aligned m e) (hn : 0 < n)
    (hsum : dyadic n s = dyadic m e + 5)
    (hround : 2 * dyadic m' e' ≤ 2 * dyadic n s + 2 ^ (totalExponent n s - 53)) {k : Int}
    (hk : 57 ≤ k) (hlt : dyadic m e < 2 ^ k) : dyadic m' e' < 2 ^ k := by
  have hle := h.dyadic_le_of_lt hlt
  have hroom : (2 : ℚ) ^ (3 : ℤ) ≤ 2 ^ (k - 54) := zpow_le_zpow_right₀ one_le_two (by omega)
  norm_num at hroom
  rw [two_zpow_eq_two_mul] at hle
  have hgrid : totalExponent n s ≤ k := by
    have hlower : (2 : ℚ) ^ (totalExponent n s - 1) < 2 ^ k :=
      (dyadic_bounds hn).1.trans_lt (by linarith)
    have := (zpow_lt_zpow_iff_right₀ one_lt_two).1 hlower
    omega
  have hunit : (2 : ℚ) ^ (totalExponent n s - 53) ≤ 2 ^ (k - 53) :=
    zpow_le_zpow_right₀ one_le_two (by omega)
  rw [two_zpow_eq_two_mul k] at hunit
  linarith

theorem dyadic_five : dyadic (5 * 2 ^ 50) (-50) = 5 := by
  rw [dyadic]
  norm_num

theorem toModel_add_five (x : Float) : (x + 5.0).toModel =
    Float.Model.pack (UnpackedFloat.add Format.binary64 x.toModel.unpack
      (.finite .positive (5 * 2 ^ 50) (-50) (by decide))) := rfl

/-- A double above zero and five have a sum that is no smaller than the double. -/
theorem exists_unpack_add_five {x : Float} {m : Nat} {e : Int} (h : Aligned m e) (he : e ≤ 971)
    (hx : x.toModel.unpack = .finite .positive m e h.pos) :
    ∃ m' e', ∃ h' : Aligned m' e', (x + 5.0).toModel.unpack = .finite .positive m' e' h'.pos ∧
      dyadic m e ≤ dyadic m' e' := by
  have hfive : 0 < 5 * 2 ^ 50 := by decide
  obtain ⟨n, s, hn, hsum, hadd⟩ := exists_add_eq_round e (-50) h.pos hfive
  rw [dyadic_five] at hsum
  have hlow : 1 ≤ totalExponent n s := by
    have hupper : (2 : ℚ) ^ (0 : ℤ) < 2 ^ totalExponent n s := by
      rw [zpow_zero]
      linarith [h.dyadic_pos, (dyadic_bounds (s := s) hn).2]
    have := (zpow_lt_zpow_iff_right₀ one_lt_two).1 hupper
    omega
  obtain ⟨m', e', h', hround, hlog, he', habove, hbelow⟩ := exists_round hn hlow
  have hlarge : dyadic m e < 2 ^ (1024 : ℤ) := by
    have hbits : m.log2 < 53 := (Nat.log2_lt h.pos.ne').2 h.lt
    refine (dyadic_bounds h.pos).2.trans_le (zpow_le_zpow_right₀ one_le_two ?_)
    rw [totalExponent]
    omega
  have hfinite : e' ≤ 971 := by
    have hbound := h.dyadic_lt_of_add_five hn hsum hbelow (by decide) hlarge
    have hlt := (dyadic_bounds h').1.trans_lt hbound
    have hexponent := (zpow_lt_zpow_iff_right₀ one_lt_two).1 hlt
    rw [totalExponent, hlog] at hexponent
    omega
  refine ⟨m', e', aligned_of_log2_eq h' hlog (by omega), ?_, ?_⟩
  · rw [toModel_add_five, hx, hadd, hround, unpack_pack _ _ hlog (by omega) hfinite]
  · exact habove m e h (by linarith)

end Workflow.Decimal
