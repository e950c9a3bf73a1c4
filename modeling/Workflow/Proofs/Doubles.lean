import Workflow.Json.Number
import Workflow.Proofs.Rounding

/-!
Which doubles are finite. The exponent field of a double bounds it, so a packed number is finite
when its exponent fits; products and quotients are finite where the bounds of their factors say so.
-/
namespace Workflow.Decimal

open Float.Model Float.Model.UnpackedFloat

/-! ## Fields of a double -/

/-- The exponent field of a double. -/
def exponentField (x : Float.Model) : Nat :=
  (@unpackExponent Format.binary64 x.toBits.toBitVec).toNat

theorem exponentField_lt_of_isFinite {x : Float.Model} (hx : x.isFinite) :
    exponentField x < 2047 := by
  have hlt := (@unpackExponent Format.binary64 x.toBits.toBitVec).isLt
  change exponentField x < 2048 at hlt
  by_contra hlarge
  have hfield : @unpackExponent Format.binary64 x.toBits.toBitVec = -1#11 :=
    BitVec.eq_of_toNat_eq (show exponentField x = 2047 by omega)
  rw [Float.Model.isFinite, Float.Model.unpack, UnpackedFloat.unpack] at hx
  simp only [hfield, if_true] at hx
  split at hx <;> simp [UnpackedFloat.isFinite] at hx

/-- Below the largest exponent field there is zero, or a number bounded by the field. -/
theorem below_unpack {x : Float.Model} (hx : exponentField x < 2047) :
    Below (max (exponentField x) 1 - 1075) x.unpack := by
  have hfield : @unpackExponent Format.binary64 x.toBits.toBitVec ≠ -1#11 := by
    intro hfield
    rw [exponentField, hfield] at hx
    exact absurd hx (by decide)
  rw [Float.Model.unpack, UnpackedFloat.unpack]
  simp only [hfield, if_false]
  split_ifs
  · trivial
  · refine ⟨Nat.lt_trans (BitVec.isLt _) (by decide), ?_⟩
    rename_i hempty _
    change (_ : Int) - (1023 + 52) + 1 ≤ _
    rw [exponentField, hempty]
    decide
  · refine ⟨BitVec.isLt _, ?_⟩
    change (_ : Int) - (1023 + 52) ≤ _
    rw [exponentField]
    omega

theorem isFinite_iff (x : Float.Model) : x.isFinite ↔ exponentField x < 2047 :=
  ⟨exponentField_lt_of_isFinite, fun hx => (below_unpack hx).isFinite⟩

theorem Below.exponentField_pack_le {bound : Int} (hbound : bound ≤ 971) :
    ∀ {x : UnpackedFloat}, Below bound x →
      exponentField (Float.Model.pack x) ≤ (bound + 1075).toNat
  | .zero s, _ => by
    have hzero : exponentField (Float.Model.pack (.zero s)) = 0 := by cases s <;> rfl
    omega
  | .finite s m e h, ⟨_, he⟩ => by
    have hfits : ¬ 2048 ≤ (e + 1023 + 52).toNat + 1 := by omega
    change (@unpackExponent Format.binary64 (UnpackedFloat.pack Format.binary64
      (.finite s m e h))).toNat ≤ _
    rw [UnpackedFloat.pack]
    change (unpackExponent (if 2048 ≤ (e + 1023 + 52).toNat + 1 then _ else _)).toNat ≤ _
    rw [if_neg hfits]
    split
    · rw [unpackExponent_packComponents]
      change (e + 1023 + 52).toNat % 2048 ≤ _
      omega
    · rw [unpackExponent_packComponents]
      exact Nat.zero_le _

theorem Below.isFinite_pack {bound : Int} {x : UnpackedFloat} (hx : Below bound x)
    (hbound : bound ≤ 971) : (Float.Model.pack x).isFinite := by
  rw [isFinite_iff]
  have hle := hx.exponentField_pack_le hbound
  omega

theorem unpackSign_packComponents (s : Sign) (exponent : BitVec 11) (mantissa : BitVec 52) :
    unpackSign (packComponents Format.binary64 s exponent mantissa) = s.toBitVec := by
  change (s.toBitVec ++ exponent ++ mantissa).extractLsb' 63 1 = s.toBitVec
  rw [BitVec.extractLsb'_append_eq_of_le (by decide),
    BitVec.extractLsb'_append_eq_of_le (by decide)]
  cases s <;> rfl

/-- A significand with the leading bit that is not stored. -/
theorem toNat_leading_append (b : BitVec 52) : (1#1 ++ b).toNat = 2 ^ 52 + b.toNat := by
  rw [BitVec.toNat_append, ← Nat.shiftLeft_add_eq_or_of_lt b.isLt]
  rfl

/-- A packed number that is rounded is unpacked to itself. -/
theorem unpack_pack (s : Sign) {m : Nat} {e : Int} (h : 0 < m) (hm : m.log2 = 52)
    (hlow : -1074 ≤ e) (hhigh : e ≤ 971) :
    (Float.Model.pack (.finite s m e h)).unpack = .finite s m e h := by
  have hbounds := (Nat.log2_eq_iff (Nat.ne_of_gt h)).1 hm
  have hfits : ¬ 2048 ≤ (e + 1023 + 52).toNat + 1 := by omega
  have hpack : UnpackedFloat.pack Format.binary64 (.finite s m e h) =
      packComponents Format.binary64 s (BitVec.ofNat 11 (e + 1023 + 52).toNat)
        (BitVec.ofNat 52 m) := by
    rw [UnpackedFloat.pack]
    change (if 2048 ≤ (e + 1023 + 52).toNat + 1 then _ else if m.log2 + 1 = 53 then _ else _) = _
    rw [if_neg hfits, hm, if_pos rfl]
    rfl
  have hfield : (BitVec.ofNat 11 (e + 1023 + 52).toNat).toNat = (e + 1075).toNat := by
    change (e + 1023 + 52).toNat % 2048 = _
    omega
  have hmantissa : (1#1 ++ BitVec.ofNat 52 m).toNat = m := by
    rw [toNat_leading_append, BitVec.toNat_ofNat]
    omega
  have hlast : BitVec.ofNat 11 (e + 1023 + 52).toNat ≠ -1#11 := by
    intro hfull
    have := congrArg BitVec.toNat hfull
    rw [hfield] at this
    change (e + 1075).toNat = 2047 at this
    omega
  have hfirst : BitVec.ofNat 11 (e + 1023 + 52).toNat ≠ 0#11 := by
    intro hempty
    have := congrArg BitVec.toNat hempty
    rw [hfield] at this
    change (e + 1075).toNat = 0 at this
    omega
  have hsign : Sign.ofBitVec s.toBitVec = s := by cases s <;> rfl
  change UnpackedFloat.unpack Format.binary64 (UnpackedFloat.pack Format.binary64 _) = _
  rw [hpack, UnpackedFloat.unpack]
  simp only [unpackExponent_packComponents, unpackMantissa_packComponents,
    unpackSign_packComponents, hlast, hfirst, if_false, hfield, hmantissa, hsign]
  congr 1
  change ((e + 1075).toNat : Int) - (1023 + 52) = e
  omega

/-! ## Products -/

/-- A double from one to a bound, with all the bits of a significand. -/
def FromOneTo (bound : ℚ) (x : Float) : Prop :=
  ∃ m e h, x.toModel.unpack = .finite .positive m e h ∧ m.log2 = 52 ∧ -52 ≤ e ∧
    dyadic m e ≤ bound

theorem FromOneTo.mono {a b : ℚ} {x : Float} (hx : FromOneTo a x) (hle : a ≤ b) :
    FromOneTo b x :=
  let ⟨m, e, h, hunpack, hlog, hlow, hbound⟩ := hx
  ⟨m, e, h, hunpack, hlog, hlow, hbound.trans hle⟩

theorem exponent_le_of_dyadic_lt {m : Nat} {e : Int} (hm : m.log2 = 52)
    (hlt : dyadic m e < 2 ^ 1024) : e ≤ 971 := by
  have hne : m ≠ 0 := by rintro rfl; exact absurd hm (by decide)
  have hlow : ((2 ^ 52 : ℕ) : ℚ) ≤ m := by exact_mod_cast ((Nat.log2_eq_iff hne).1 hm).1
  have hpow : (2 : ℚ) ^ (52 + e) < 2 ^ (1024 : ℤ) := by
    rw [zpow_add₀ two_ne_zero]
    refine lt_of_le_of_lt ?_ hlt
    rw [dyadic]
    exact mul_le_mul_of_nonneg_right (by exact_mod_cast hlow) (zpow_nonneg zero_le_two e)
  have := (zpow_lt_zpow_iff_right₀ one_lt_two).1 hpow
  omega

theorem fromOneTo_pack {m : Nat} {e : Int} (hm : 2 ^ 52 ≤ m) (he : 1 ≤ totalExponent m e)
    (hlt : slack * dyadic m e < 2 ^ 1024) :
    FromOneTo (slack * dyadic m e) (.ofModel (.pack
      (roundWithAccuracy Format.binary64 .positive m e .exact))) := by
  obtain ⟨m', e', h, hround, hlog, hlow, hbound⟩ :=
    exists_roundWithAccuracy .positive hm (by omega : -1021 ≤ totalExponent m e)
  have hhigh := exponent_le_of_dyadic_lt hlog (hbound.trans_lt hlt)
  refine ⟨m', e', h, ?_, hlog, by omega, hbound⟩
  rw [hround]
  exact unpack_pack _ _ hlog (by omega) hhigh

/-- The product of two numbers above one is finite when it stays below `2 ^ 1024`. -/
theorem FromOneTo.mul {a b : ℚ} {x y : Float} (hx : FromOneTo a x) (hy : FromOneTo b y)
    (hlt : slack * (a * b) < 2 ^ 1024) : FromOneTo (slack * (a * b)) (x * y) := by
  obtain ⟨m₁, e₁, h₁, hunpack₁, hlog₁, hlow₁, hbound₁⟩ := hx
  obtain ⟨m₂, e₂, h₂, hunpack₂, hlog₂, hlow₂, hbound₂⟩ := hy
  have hm₁ := ((Nat.log2_eq_iff h₁.ne').1 hlog₁).1
  have hm₂ := ((Nat.log2_eq_iff h₂.ne').1 hlog₂).1
  have hmul : 2 ^ 104 ≤ m₁ * m₂ := by
    rw [show 104 = 52 + 52 from rfl, pow_add]
    exact Nat.mul_le_mul hm₁ hm₂
  have hlog : 104 ≤ (m₁ * m₂).log2 := (Nat.le_log2 (by positivity)).2 hmul
  have hle : slack * dyadic (m₁ * m₂) (e₁ + e₂) ≤ slack * (a * b) := by
    rw [dyadic_mul]
    refine mul_le_mul_of_nonneg_left ?_ slack_pos.le
    exact mul_le_mul hbound₁ hbound₂ (dyadic_nonneg ..) ((dyadic_nonneg ..).trans hbound₁)
  have hproduct : x * y = .ofModel (.pack (roundWithAccuracy Format.binary64 .positive
      (m₁ * m₂) (e₁ + e₂) .exact)) := by
    change Float.ofModel (.pack (UnpackedFloat.mul _ x.toModel.unpack y.toModel.unpack)) = _
    rw [hunpack₁, hunpack₂]
    rfl
  rw [hproduct]
  refine (fromOneTo_pack ?_ ?_ (hle.trans_lt hlt)).mono hle
  · exact le_trans (Nat.pow_le_pow_right two_pos (by decide)) hmul
  · rw [totalExponent]
    omega

theorem FromOneTo.isInf {a : ℚ} {x : Float} (hx : FromOneTo a x) : x.isInf = false := by
  obtain ⟨m, e, h, hunpack, -⟩ := hx
  change x.toModel.unpack.isInf = false
  rw [hunpack]
  rfl

/-- A number above zero is converted with its leading bit moved to the place of a significand. -/
theorem toFloat_ofNat {n : Nat} (hne : n ≠ 0) (hn : n < 2 ^ 64) :
    (UInt64.ofNat n).toFloat = .ofModel (.pack (roundWithAccuracy Format.binary64 .positive
      (n * 2 ^ (52 - n.log2)) (-(52 - n.log2 : ℕ)) .exact)) := by
  have hvalue : (UInt64.ofNat n).toNat = n := UInt64.toNat_ofNat_of_lt hn
  have hsign : compare (n : Int) 0 = .gt := Int.compare_eq_gt.2 (by omega)
  have hshift : (0 - max (totalExponent n 0 - 53) (-1074)).toNat = 52 - n.log2 := by
    rw [totalExponent]
    omega
  change Float.ofModel (.pack (UnpackedFloat.normalize _ ((UInt64.ofNat n).toNat : Int) 0
    .positive)) = _
  rw [hvalue, UnpackedFloat.normalize, hsign]
  change Float.ofModel (.pack (round Format.binary64 .positive n 0)) = _
  rw [UnpackedFloat.round, targetExponent_eq, decreaseExponent, hshift, Nat.shiftLeft_eq, zero_sub]

theorem fromOneTo_toFloat {n : Nat} (hne : n ≠ 0) (hn : n < 2 ^ 64) :
    FromOneTo (slack * n) (UInt64.ofNat n).toFloat := by
  have hdyadic : dyadic (n * 2 ^ (52 - n.log2)) (-(52 - n.log2 : ℕ)) = n := by
    rw [dyadic_pow, neg_add_cancel, dyadic, zpow_zero, mul_one]
  have hlow : 2 ^ 52 ≤ n * 2 ^ (52 - n.log2) :=
    calc 2 ^ 52 ≤ 2 ^ (n.log2 + (52 - n.log2)) := Nat.pow_le_pow_right two_pos (by omega)
      _ = 2 ^ n.log2 * 2 ^ (52 - n.log2) := pow_add ..
      _ ≤ n * 2 ^ (52 - n.log2) := Nat.mul_le_mul_right _ (Nat.log2_self_le hne)
  have hlog : 52 ≤ (n * 2 ^ (52 - n.log2)).log2 := (Nat.le_log2 (by positivity)).2 hlow
  rw [toFloat_ofNat hne hn]
  conv => lhs; rw [← hdyadic]
  refine fromOneTo_pack hlow ?_ ?_
  · rw [totalExponent]
    omega
  · have hle : (n : ℚ) < 2 ^ 64 := by exact_mod_cast hn
    have hword : slack * n < 2 ^ 65 := by
      rw [slack]
      linarith
    rw [hdyadic]
    exact hword.trans (pow_lt_pow_right₀ one_lt_two (by decide))

/-- The powers of ten that are looked up are the ones that would be computed. -/
theorem tenTo_eq {n : Nat} (hn : n ≤ 308) :
    Json.Number.tenTo n = .ofModel (.pack (roundWithAccuracy Format.binary64 .positive
      (2 ^ 53 * 10 ^ n) (-53) .exact)) := by
  have hlookup : ∀ n ≤ 22, Json.Number.tenTo n = .ofModel (.pack
      (roundWithAccuracy Format.binary64 .positive (2 ^ 53 * 10 ^ n) (-53) .exact)) := by
    decide +kernel
  by_cases hsmall : n ≤ 22
  · exact hlookup n hsmall
  rw [Json.Number.tenTo, Float.ofScientific, dif_neg (by omega)]
  change Float.ofModel (.pack (UnpackedFloat.ofScientific Format.binary64 1 (n : Int))) = _
  rw [UnpackedFloat.ofScientific, dif_neg (by decide),
    if_neg (by change ¬ (n : Int) > 2048; omega),
    if_neg (by change ¬ (n : Int) < -(2048 + (0 : Nat)); omega), if_pos (by omega)]
  rfl

theorem fromOneTo_tenTo {n : Nat} (hn : n ≤ 308) :
    FromOneTo (slack * 10 ^ n) (Json.Number.tenTo n) := by
  have hdyadic : dyadic (2 ^ 53 * 10 ^ n) (-53) = 10 ^ n := by
    rw [mul_comm, dyadic_pow]
    simp [dyadic]
  have hlow : 2 ^ 53 ≤ 2 ^ 53 * 10 ^ n := Nat.le_mul_of_pos_right _ (by positivity)
  have hlog : 53 ≤ (2 ^ 53 * 10 ^ n).log2 := (Nat.le_log2 (by positivity)).2 hlow
  rw [tenTo_eq hn, ← hdyadic]
  refine fromOneTo_pack ?_ ?_ ?_
  · exact le_trans (Nat.pow_le_pow_right two_pos (by decide)) hlow
  · rw [totalExponent]
    omega
  · have hrat : ((2 : ℚ) ^ 53 + 1) * 10 ^ 308 < 2 ^ 53 * 2 ^ 1024 := by
      rw [show 308 = 77 * 4 from rfl, show 1024 = 256 * 4 from rfl, pow_mul, pow_mul]
      norm_num
    have hpow : (10 : ℚ) ^ n ≤ 10 ^ 308 := pow_le_pow_right₀ (by norm_num) hn
    rw [hdyadic, show slack = (2 ^ 53 + 1) / 2 ^ 53 by norm_num [slack], div_mul_eq_mul_div,
      div_lt_iff₀ (by positivity), mul_comm _ ((2 : ℚ) ^ 53)]
    exact (mul_le_mul_of_nonneg_left hpow (by positivity)).trans_lt hrat

theorem FromOneTo.isFinite {a : ℚ} {x : Float} (hx : FromOneTo a x) : x.isFinite := by
  obtain ⟨m, e, h, hunpack, -⟩ := hx
  change x.toModel.unpack.isFinite
  rw [hunpack]
  rfl

/-! ## Quotients -/

/-- A quotient has about the binary places of its dividend less those of its divisor. -/
theorem log2_div_le (m₁ k : Nat) {m₂ : Nat} (hpos : 0 < m₂) (hlog : m₂.log2 = 52) :
    (m₁ * 2 ^ k / m₂).log2 ≤ m₁.log2 + k - 52 := by
  by_cases hzero : m₁ * 2 ^ k / m₂ = 0
  · rw [hzero]
    exact Nat.zero_le _
  have hlow := ((Nat.log2_eq_iff hpos.ne').1 hlog).1
  have hlt : 2 ^ (52 + (m₁ * 2 ^ k / m₂).log2) < 2 ^ (m₁.log2 + 1 + k) :=
    calc 2 ^ (52 + (m₁ * 2 ^ k / m₂).log2)
        = 2 ^ 52 * 2 ^ (m₁ * 2 ^ k / m₂).log2 := pow_add ..
      _ ≤ m₂ * (m₁ * 2 ^ k / m₂) := Nat.mul_le_mul hlow (Nat.log2_self_le hzero)
      _ ≤ m₁ * 2 ^ k := Nat.mul_div_le ..
      _ < 2 ^ (m₁.log2 + 1) * 2 ^ k :=
        Nat.mul_lt_mul_of_pos_right Nat.lt_log2_self (by positivity)
      _ = 2 ^ (m₁.log2 + 1 + k) := (pow_add ..).symm
  have := (Nat.pow_lt_pow_iff_right (by decide)).1 hlt
  omega

/-- A number with the exponent of the quotient keeps the bound of its dividend, shifted by the
divisor. -/
theorem below_div {bound : Int} {s : Sign} {m : Nat} {e : Int} (h : 0 < m) (hlog : m.log2 = 52) :
    ∀ {x : UnpackedFloat}, Below bound x →
      Below (max (bound - e - 51) (-1073)) (UnpackedFloat.div Format.binary64 x (.finite s m e h))
  | .zero _, _ => trivial
  | .finite s₁ m₁ e₁ h₁, ⟨hm₁, he₁⟩ => by
    have hlog₁ : m₁.log2 < 53 := (Nat.log2_lt h₁.ne').2 hm₁
    rw [UnpackedFloat.div, divCore, targetExponent_eq, Nat.shiftLeft_eq]
    refine (below_roundWithAccuracy ..).mono ?_
    have hquotient := log2_div_le m₁ (e₁ - e - min (e₁ - e)
      (max (totalExponent m₁ e₁ - totalExponent m e - 53) (-1074))).toNat h hlog
    simp only [totalExponent] at hquotient ⊢
    omega

theorem isFinite_div {x y : Float} {a : ℚ} (hx : exponentField x.toModel ≤ 1200)
    (hy : FromOneTo a y) : (x / y).isFinite := by
  obtain ⟨m, e, h, hunpack, hlog, hlow, -⟩ := hy
  change (Float.Model.pack (UnpackedFloat.div _ x.toModel.unpack y.toModel.unpack)).isFinite
  rw [hunpack]
  refine (below_div h hlog (below_unpack (by omega))).isFinite_pack ?_
  omega

theorem tenTo_largest : Json.Number.tenTo 308 =
    .ofModel (.pack (.finite .positive 5010420900022432 971 (by decide))) := by
  decide +kernel

/-- The numbers that are divided again and again do not grow. -/
theorem exponentField_div_tenTo {x : Float} (hx : exponentField x.toModel ≤ 1200) :
    exponentField (x / Json.Number.tenTo 308).toModel ≤ 1200 := by
  have hlog : Nat.log2 5010420900022432 = 52 := by decide +kernel
  rw [tenTo_largest]
  change exponentField (Float.Model.pack (UnpackedFloat.div _ x.toModel.unpack
    (Float.Model.pack _).unpack)) ≤ 1200
  rw [unpack_pack _ _ hlog (by decide) (by decide)]
  refine ((below_div _ hlog (below_unpack (by omega))).exponentField_pack_le ?_).trans ?_
  all_goals omega

theorem isFinite_scaleDown {x : Float} (hx : exponentField x.toModel ≤ 1200) (n : Nat) :
    (Json.Number.scaleDown x n).isFinite := by
  fun_induction Json.Number.scaleDown x n with
  | case1 x n hn => exact isFinite_div hx (fromOneTo_tenTo hn)
  | case2 x n _ _ => exact (isFinite_iff _).2 (by omega)
  | case3 x n _ _ ih => exact ih (exponentField_div_tenTo hx)

/-! ## Signs -/

theorem isFinite_neg {x : Float} (hx : x.isFinite) : (-x).isFinite := by
  have hbelow := below_unpack ((isFinite_iff _).1 hx)
  have hlt := (isFinite_iff _).1 hx
  change (Float.Model.pack x.toModel.unpack.neg).isFinite
  generalize x.toModel.unpack = u at hbelow ⊢
  have hneg : Below (max (exponentField x.toModel) 1 - 1075) u.neg := by
    cases u
    all_goals exact hbelow
  exact hneg.isFinite_pack (by omega)

/-! ## Scaled significands -/

theorem log2_mul_two_pow {n : Nat} (hn : n ≠ 0) (k : Nat) : (n * 2 ^ k).log2 = n.log2 + k := by
  have hbounds := (Nat.log2_eq_iff hn).1 rfl
  rw [Nat.log2_eq_iff (by positivity), pow_add, Nat.add_right_comm, pow_add]
  exact ⟨Nat.mul_le_mul_right _ hbounds.1,
    Nat.mul_lt_mul_of_pos_right hbounds.2 (by positivity)⟩

theorem exponentField_toFloat {value : Nat} (hvalue : value < 2 ^ 64) :
    exponentField (UInt64.ofNat value).toFloat.toModel ≤ 1200 := by
  by_cases hzero : value = 0
  · rw [hzero]
    decide +kernel
  rw [toFloat_ofNat hzero hvalue]
  have hlog : value.log2 < 64 := (Nat.log2_lt hzero).2 hvalue
  refine ((below_roundWithAccuracy ..).exponentField_pack_le ?_).trans ?_
  all_goals
    rw [totalExponent, log2_mul_two_pow hzero]
    omega

theorem exists_scale_of_neg {value : Nat} (hvalue : value < 2 ^ 64) {exponent : Int}
    (hexponent : exponent < 0) :
    ∃ y, Json.Number.scale value exponent = some y ∧ y.isFinite := by
  refine ⟨_, if_pos hexponent, ?_⟩
  exact isFinite_scaleDown (exponentField_toFloat hvalue) _

theorem exists_scale {value n : Nat} (hpos : value ≠ 0) (hvalue : value < 2 ^ 64) (hn : n ≤ 308)
    (hlt : slack ^ 3 * (value * 10 ^ n) < 2 ^ 1024) :
    ∃ y, Json.Number.scale value n = some y ∧ y.isFinite := by
  have hproduct := (fromOneTo_toFloat hpos hvalue).mul (fromOneTo_tenTo hn) (by
    rwa [show slack * (slack * value * (slack * 10 ^ n)) = slack ^ 3 * (value * 10 ^ n) by ring])
  refine ⟨_, ?_, hproduct.isFinite⟩
  rw [Json.Number.scale]
  simp only [Int.toNat_natCast, hproduct.isInf]
  rw [if_neg (by omega), if_pos (by omega)]
  rfl

end Workflow.Decimal
