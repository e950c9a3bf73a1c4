import Mathlib.Algebra.Order.Field.Power
import Mathlib.Tactic.FieldSimp
import Mathlib.Tactic.Linarith
import Mathlib.Tactic.Positivity
import Mathlib.Tactic.Ring
import Workflow.Decimal.Shortest
import Workflow.Proofs.Rounding

/-!
The shortest digits of a double. The grid of eighteen digits is finer than the rounding interval, so
some multiple on it is inside; the digits found are at most eighteen, and their value is at most the
upper end of the interval.
-/
namespace Workflow.Decimal

theorem zpow_mul_toNat {x : ℚ} (hx : x ≠ 0) (i : Int) :
    x ^ i * x ^ (-i).toNat = x ^ i.toNat := by
  rw [← zpow_natCast, ← zpow_natCast, ← zpow_add₀ hx]
  congr 1
  omega

theorem ten_ne_zero : (10 : ℚ) ≠ 0 := by norm_num

/-- Two powers are in the order of their exponents, weighed by powers of the bases that are in the
same order. -/
theorem zpow_le_zpow_of_weights {x y : ℚ} (hx : 1 ≤ x) (hy : 1 ≤ y) {p q : Nat} (hq : q ≠ 0)
    {a b : Int} (hexponents : q * a ≤ p * b) (hweights : (x ^ p) ^ b ≤ (y ^ q) ^ b) :
    x ^ a ≤ y ^ b := by
  refine (pow_le_pow_iff_left₀ (by positivity) (by positivity) hq).1 ?_
  calc (x ^ a) ^ q = x ^ (q * a : ℤ) := by rw [mul_comm, zpow_mul, zpow_natCast]
    _ ≤ x ^ (p * b : ℤ) := zpow_le_zpow_right₀ hx hexponents
    _ = (x ^ p) ^ b := by rw [zpow_mul, zpow_natCast]
    _ ≤ (y ^ q) ^ b := hweights
    _ = (y ^ b) ^ q := by rw [← zpow_natCast, ← zpow_natCast, zpow_comm]

theorem zpow_le_zpow_of_nonpos {x y : ℚ} (hy : 0 < y) (hle : y ≤ x) {b : Int} (hb : b ≤ 0) :
    x ^ b ≤ y ^ b := by
  have hneg : y ^ (-b) ≤ x ^ (-b) := zpow_le_zpow_left₀ (by omega) hy.le hle
  rwa [zpow_neg, zpow_neg, inv_le_inv₀ (zpow_pos hy _) (zpow_pos (hy.trans_le hle) _)] at hneg

section

variable {digits places : Int}

theorem ten_zpow_le_two_zpow (hlarge : 103 * digits ≤ 31 * places)
    (hsmall : 93 * digits ≤ 28 * places) : (10 : ℚ) ^ digits ≤ 2 ^ places := by
  have hten : (1 : ℚ) ≤ 10 := by norm_num
  by_cases hsign : 0 ≤ places
  · refine zpow_le_zpow_of_weights (p := 31) (q := 103) hten one_le_two (by decide) hlarge ?_
    exact zpow_le_zpow_left₀ hsign (by positivity) (by norm_num)
  · refine zpow_le_zpow_of_weights (p := 28) (q := 93) hten one_le_two (by decide) hsmall ?_
    exact zpow_le_zpow_of_nonpos (by positivity) (by norm_num) (by omega)

theorem two_zpow_le_ten_zpow (hlarge : 28 * places ≤ 93 * digits)
    (hsmall : 31 * places ≤ 103 * digits) : (2 : ℚ) ^ places ≤ 10 ^ digits := by
  have hten : (1 : ℚ) ≤ 10 := by norm_num
  by_cases hsign : 0 ≤ digits
  · refine zpow_le_zpow_of_weights (p := 93) (q := 28) one_le_two hten (by decide) hlarge ?_
    exact zpow_le_zpow_left₀ hsign (by positivity) (by norm_num)
  · refine zpow_le_zpow_of_weights (p := 103) (q := 31) one_le_two hten (by decide) hsmall ?_
    exact zpow_le_zpow_of_nonpos (by positivity) (by norm_num) (by omega)

end

/-- The decimal places that are estimated from the binary ones are off by one at most. -/
theorem estimate_bounds {places : Int} (hlow : -1074 ≤ places) (hhigh : places ≤ 1023) :
    (10 : ℚ) ^ ((places * 30103).fdiv 100000 - 1) ≤ 2 ^ places ∧
      (2 : ℚ) ^ (places + 1) ≤ 10 ^ ((places * 30103).fdiv 100000 + 1 + 1) := by
  rw [Int.fdiv_eq_ediv_of_nonneg _ (by decide)]
  constructor
  · apply ten_zpow_le_two_zpow <;> omega
  · apply two_zpow_le_ten_zpow <;> omega

namespace Binary

variable (v : Binary)

/-- The exact value. -/
def value : ℚ := dyadic v.mantissa v.exponent

theorem isBelow_iff (k : Int) : v.isBelow k ↔ v.value < 10 ^ k := by
  have hpos : (0 : ℚ) < 2 ^ (-v.exponent).toNat * 10 ^ (-k).toNat := by positivity
  rw [isBelow, decide_eq_true_eq, ← Nat.cast_lt (α := ℚ), value, dyadic]
  push_cast
  rw [← zpow_mul_toNat two_ne_zero v.exponent, ← zpow_mul_toNat ten_ne_zero k]
  refine Iff.trans ?_ (mul_lt_mul_iff_left₀ hpos)
  ring_nf

/-- What is needed of a mantissa and an exponent to have decimal digits. -/
structure Regular : Prop where
  pos : 0 < v.mantissa
  lt : v.mantissa < 2 ^ 53
  low : -1074 ≤ v.exponent
  high : v.exponent ≤ 971

variable {v}

theorem Regular.value_bounds (hv : v.Regular) :
    (2 : ℚ) ^ (v.mantissa.log2 + v.exponent) ≤ v.value ∧
      v.value < 2 ^ (v.mantissa.log2 + v.exponent + 1) := by
  have hbounds := (Nat.log2_eq_iff hv.pos.ne').1 rfl
  have hpos : (0 : ℚ) < 2 ^ v.exponent := zpow_pos two_pos _
  constructor
  · rw [zpow_add₀ two_ne_zero, value, dyadic, mul_le_mul_iff_left₀ hpos, zpow_natCast]
    exact_mod_cast hbounds.1
  · rw [Int.add_right_comm, zpow_add₀ two_ne_zero, value, dyadic, mul_lt_mul_iff_left₀ hpos]
    exact_mod_cast hbounds.2

theorem Regular.decade_bounds (hv : v.Regular) :
    (10 : ℚ) ^ v.decade ≤ v.value ∧ v.value < 10 ^ (v.decade + 1) := by
  have hlog : v.mantissa.log2 < 53 := (Nat.log2_lt hv.pos.ne').2 hv.lt
  have hlow := hv.low
  have hhigh := hv.high
  have hestimate := @estimate_bounds (v.mantissa.log2 + v.exponent) (by omega) (by omega)
  have hvalue := hv.value_bounds
  rw [decade]
  split_ifs with hbelow hnext
  · rw [isBelow_iff] at hbelow
    rw [sub_add_cancel]
    exact ⟨hestimate.1.trans hvalue.1, hbelow⟩
  · rw [isBelow_iff] at hbelow hnext
    exact ⟨not_lt.1 hbelow, hnext⟩
  · rw [isBelow_iff] at hnext
    exact ⟨not_lt.1 hnext, hvalue.2.trans_le hestimate.2⟩

/-! ## Multiples on a grid -/

/-- A quarter of the last place of the mantissa, in the common unit of a grid. -/
def quarter (v : Binary) (k : Int) : Nat := 2 ^ (v.exponent - 2).toNat * 10 ^ (-k).toNat

/-- The distance of two multiples, in the common unit of a grid. -/
def step (v : Binary) (k : Int) : Nat := 2 ^ (2 - v.exponent).toNat * 10 ^ k.toNat

theorem step_pos (v : Binary) (k : Int) : 0 < v.step k := by
  rw [step]
  positivity

theorem quarter_mul (v : Binary) (k : Int) :
    (v.quarter k : ℚ) * 10 ^ k = 2 ^ (v.exponent - 2) * v.step k := by
  have htwo := zpow_mul_toNat two_ne_zero (v.exponent - 2)
  have hten := zpow_mul_toNat ten_ne_zero k
  rw [neg_sub] at htwo
  rw [step, quarter]
  push_cast
  rw [← htwo, ← hten]
  ring

/-- Whether a multiple is inside of the rounding interval. -/
def inside (v : Binary) (k : Int) (c : Nat) : Bool :=
  let low := (4 * v.mantissa - if v.narrowBelow then 1 else 2) * v.quarter k
  let high := (4 * v.mantissa + 2) * v.quarter k
  if v.mantissa % 2 = 0 then low ≤ c * v.step k && c * v.step k ≤ high
  else low < c * v.step k && c * v.step k < high

/-- The multiple below the value, or at it. -/
def floorOn (v : Binary) (k : Int) : Nat := 4 * v.mantissa * v.quarter k / v.step k

theorem onGrid_eq (v : Binary) (k : Int) : v.onGrid k =
    match v.inside k (v.floorOn k), v.inside k (v.floorOn k + 1) with
    | true, true =>
      let rest := 4 * v.mantissa * v.quarter k % v.step k
      if 2 * rest < v.step k || (2 * rest = v.step k && v.floorOn k % 2 = 0) then
        some (v.floorOn k)
      else some (v.floorOn k + 1)
    | true, false => some (v.floorOn k)
    | false, true => some (v.floorOn k + 1)
    | false, false => none := rfl

theorem le_of_inside {k : Int} {c : Nat} (h : v.inside k c) :
    c * v.step k ≤ (4 * v.mantissa + 2) * v.quarter k := by
  rw [inside] at h
  split at h
  · exact of_decide_eq_true (Bool.and_elim_right h)
  · exact Nat.le_of_lt (of_decide_eq_true (Bool.and_elim_right h))

/-- What is found on a grid is one of the two multiples around the value, and inside of the rounding
interval. -/
theorem onGrid_eq_some {k : Int} {c : Nat} (h : v.onGrid k = some c) :
    (c = v.floorOn k ∨ c = v.floorOn k + 1) ∧ v.inside k c := by
  rw [onGrid_eq] at h
  cases hbelow : v.inside k (v.floorOn k) <;> cases habove : v.inside k (v.floorOn k + 1) <;>
    simp only [hbelow, habove] at h
  · cases h
  · cases h
    exact ⟨.inr rfl, habove⟩
  · cases h
    exact ⟨.inl rfl, hbelow⟩
  · split at h <;> cases h
    · exact ⟨.inl rfl, hbelow⟩
    · exact ⟨.inr rfl, habove⟩

/-- A grid that is finer than a quarter of the last place has a multiple inside. -/
theorem isSome_onGrid {k : Int} (hpos : 0 < v.mantissa) (h : v.step k < v.quarter k) :
    (v.onGrid k).isSome := by
  have hinside : v.inside k (v.floorOn k) := by
    have hdivision := Nat.div_add_mod (4 * v.mantissa * v.quarter k) (v.step k)
    have hrest := Nat.mod_lt (4 * v.mantissa * v.quarter k) (v.step_pos k)
    rw [Nat.mul_comm, ← floorOn] at hdivision
    have hlow : (4 * v.mantissa - if v.narrowBelow then 1 else 2) * v.quarter k <
        v.floorOn k * v.step k := by
      have hle : (4 * v.mantissa - if v.narrowBelow then 1 else 2) * v.quarter k ≤
          (4 * v.mantissa - 1) * v.quarter k := Nat.mul_le_mul_right _ (by split <;> omega)
      rw [Nat.sub_mul, Nat.sub_mul] at hle
      have hquarter : v.quarter k ≤ 4 * v.mantissa * v.quarter k :=
        Nat.le_mul_of_pos_left _ (by omega)
      rw [Nat.sub_mul]
      omega
    have hhigh : v.floorOn k * v.step k < (4 * v.mantissa + 2) * v.quarter k := by
      rw [Nat.add_mul]
      omega
    rw [inside]
    split <;> simp [hlow, hhigh, hlow.le, hhigh.le]
  rw [onGrid_eq, hinside]
  cases v.inside k (v.floorOn k + 1)
  · rfl
  · simp only
    split <;> rfl

section

variable {k : Int} {a b : Nat}

/-- A comparison in the common unit of a grid compares exact values. -/
theorem mul_step_le_iff :
    a * v.step k ≤ b * v.quarter k ↔ (a : ℚ) * 10 ^ k ≤ b * 2 ^ (v.exponent - 2) := by
  have hstep : (0 : ℚ) < v.step k := by exact_mod_cast v.step_pos k
  have hten : (0 : ℚ) < 10 ^ k := by positivity
  rw [← Nat.cast_le (α := ℚ), Nat.cast_mul, Nat.cast_mul, ← mul_le_mul_iff_left₀ hten,
    mul_assoc (b : ℚ), quarter_mul, ← mul_assoc, mul_right_comm, mul_le_mul_iff_left₀ hstep]

theorem mul_step_lt_iff :
    a * v.step k < b * v.quarter k ↔ (a : ℚ) * 10 ^ k < b * 2 ^ (v.exponent - 2) := by
  have hstep : (0 : ℚ) < v.step k := by exact_mod_cast v.step_pos k
  have hten : (0 : ℚ) < 10 ^ k := by positivity
  rw [← Nat.cast_lt (α := ℚ), Nat.cast_mul, Nat.cast_mul, ← mul_lt_mul_iff_left₀ hten,
    mul_assoc (b : ℚ), quarter_mul, ← mul_assoc, mul_right_comm, mul_lt_mul_iff_left₀ hstep]

end

theorem value_eq (v : Binary) : v.value = (4 * v.mantissa : ℕ) * 2 ^ (v.exponent - 2) := by
  rw [value, dyadic, zpow_sub₀ two_ne_zero]
  push_cast
  ring

theorem floorOn_mul_le (v : Binary) (k : Int) : (v.floorOn k : ℚ) * 10 ^ k ≤ v.value := by
  rw [value_eq, ← mul_step_le_iff]
  exact Nat.div_mul_le_self ..

theorem one_le_floorOn {k : Int} (h : (10 : ℚ) ^ k ≤ v.value) : 1 ≤ v.floorOn k := by
  rw [floorOn, Nat.le_div_iff_mul_le (v.step_pos k), mul_step_le_iff, ← value_eq, Nat.cast_one,
    one_mul]
  exact h

/-! ## The digits that are found -/

end Binary

/-- Trailing zeros change neither the value nor make the coefficient larger. -/
theorem Digits.ofProduct_bounds (c : Nat) (k : Int) :
    (Digits.ofProduct c k).coefficient ≤ c ∧ (c ≠ 0 → (Digits.ofProduct c k).coefficient ≠ 0) ∧
      k ≤ (Digits.ofProduct c k).exponent ∧
      ((Digits.ofProduct c k).coefficient : ℚ) * 10 ^ (Digits.ofProduct c k).exponent =
        c * 10 ^ k := by
  fun_induction Digits.ofProduct c k with
  | case1 c k hzeros ih =>
    obtain ⟨hle, hne, hexponent, hvalue⟩ := ih
    refine ⟨by omega, fun _ => hne (by omega), by omega, ?_⟩
    have hdivision : ((c / 10 : ℕ) : ℚ) * 10 = c := by
      exact_mod_cast show c / 10 * 10 = c by omega
    rw [hvalue, zpow_add_one₀ ten_ne_zero, mul_comm _ (10 : ℚ), ← mul_assoc, hdivision]
  | case2 c k _ => exact ⟨le_refl _, id, le_refl _, rfl⟩

namespace Binary

variable {v : Binary}

/-- The multiples that are found on a grid of some places have one digit more than those places at
most. -/
theorem Regular.onGrid_bounds (hv : v.Regular) {places c : Nat}
    (h : v.onGrid (v.decade - places) = some c) :
    c ≠ 0 ∧ c ≤ 10 ^ (places + 1) ∧
      (c : ℚ) * 10 ^ (v.decade - places) ≤ (4 * v.mantissa + 2 : ℕ) * 2 ^ (v.exponent - 2) := by
  have hdecade := hv.decade_bounds
  obtain ⟨hc, hinside⟩ := onGrid_eq_some h
  have hpos := one_le_floorOn (k := v.decade - places)
    (le_trans (zpow_le_zpow_right₀ (by norm_num) (by omega)) hdecade.1)
  have hlt : v.floorOn (v.decade - places) < 10 ^ (places + 1) := by
    have hle := (v.floorOn_mul_le (v.decade - places)).trans_lt hdecade.2
    have hsplit : (10 : ℚ) ^ (v.decade + 1) = 10 ^ (places + 1) * 10 ^ (v.decade - places) := by
      rw [← zpow_natCast, ← zpow_add₀ ten_ne_zero]
      congr 1
      push_cast
      ring
    rw [hsplit, mul_lt_mul_iff_left₀ (by positivity)] at hle
    exact_mod_cast hle
  exact ⟨by omega, by omega, mul_step_le_iff.1 (le_of_inside hinside)⟩

theorem Regular.isSome_onGrid_seventeen (hv : v.Regular) :
    (v.onGrid (v.decade - (17 : ℕ))).isSome := by
  apply isSome_onGrid hv.pos
  rw [← Nat.one_mul (v.step _), ← Nat.one_mul (v.quarter _), mul_step_lt_iff, Nat.cast_one, one_mul,
    one_mul]
  have hlt : (v.mantissa : ℚ) < 2 ^ 53 := by exact_mod_cast hv.lt
  have hpos : (0 : ℚ) < 2 ^ (v.exponent - 2) := by positivity
  refine (mul_lt_mul_iff_left₀ (show (0 : ℚ) < 10 ^ 17 by positivity)).1 ?_
  calc (10 : ℚ) ^ (v.decade - (17 : ℕ)) * 10 ^ 17 = 10 ^ v.decade := by
        rw [← zpow_natCast, ← zpow_add₀ ten_ne_zero, sub_add_cancel]
    _ ≤ (4 * v.mantissa : ℕ) * 2 ^ (v.exponent - 2) := v.value_eq ▸ hv.decade_bounds.1
    _ < 2 ^ (v.exponent - 2) * 10 ^ 17 := by
        rw [mul_comm, mul_lt_mul_iff_right₀ hpos]
        push_cast
        linarith

theorem Regular.exists_shortest (hv : v.Regular) : ∃ places < 18, ∃ c,
    v.onGrid (v.decade - (places : ℕ)) = some c ∧
      v.shortest = Digits.ofProduct c (v.decade - (places : ℕ)) := by
  rw [shortest]
  cases hfound : (List.range 18).findSome? fun (places : Nat) =>
    (v.onGrid (v.decade - places)).map (Digits.ofProduct · (v.decade - places)) with
  | none =>
    have hnone := List.findSome?_eq_none_iff.1 hfound 17 (by decide)
    rw [Option.map_eq_none_iff] at hnone
    exact absurd hv.isSome_onGrid_seventeen (by rw [hnone]; decide)
  | some d =>
    obtain ⟨places, hplaces, hd⟩ := List.exists_of_findSome?_eq_some hfound
    obtain ⟨c, hc, rfl⟩ := Option.map_eq_some_iff.1 hd
    exact ⟨places, List.mem_range.1 hplaces, c, hc, rfl⟩

/-- The shortest digits are at most eighteen, and not above the rounding interval. -/
theorem Regular.shortest_bounds (hv : v.Regular) :
    v.shortest.coefficient ≠ 0 ∧ v.shortest.coefficient ≤ 10 ^ 18 ∧
      (v.shortest.coefficient : ℚ) * 10 ^ v.shortest.exponent ≤
        (4 * v.mantissa + 2 : ℕ) * 2 ^ (v.exponent - 2) := by
  obtain ⟨places, hplaces, c, hc, hshortest⟩ := hv.exists_shortest
  obtain ⟨hne, hle, hvalue⟩ := hv.onGrid_bounds hc
  obtain ⟨hle', hne', -, hvalue'⟩ := Digits.ofProduct_bounds c (v.decade - places)
  have hdigits : 10 ^ (places + 1) ≤ 10 ^ 18 := Nat.pow_le_pow_right (by decide) hplaces
  rw [hshortest]
  exact ⟨hne' hne, hle'.trans (hle.trans hdigits), hvalue'.trans_le hvalue⟩

theorem Regular.shortest_exponent_lt (hv : v.Regular) : v.shortest.exponent < 309 := by
  obtain ⟨hne, -, hle⟩ := hv.shortest_bounds
  have hone : (1 : ℚ) ≤ v.shortest.coefficient := by exact_mod_cast Nat.one_le_iff_ne_zero.2 hne
  have hlt := hv.lt
  have hhigh := hv.high
  have hmantissa : ((4 * v.mantissa + 2 : ℕ) : ℚ) ≤ 2 ^ 55 := by
    exact_mod_cast show 4 * v.mantissa + 2 ≤ 2 ^ 55 by omega
  have hpow : (10 : ℚ) ^ v.shortest.exponent < 10 ^ (309 : ℤ) :=
    calc (10 : ℚ) ^ v.shortest.exponent
        ≤ v.shortest.coefficient * 10 ^ v.shortest.exponent :=
          le_mul_of_one_le_left (by positivity) hone
      _ ≤ (4 * v.mantissa + 2 : ℕ) * 2 ^ (v.exponent - 2) := hle
      _ ≤ 2 ^ 55 * 2 ^ (969 : ℤ) := by
          exact mul_le_mul hmantissa (zpow_le_zpow_right₀ one_le_two (by omega)) (by positivity)
            (by positivity)
      _ < 10 ^ (309 : ℤ) := by
          rw [zpow_ofNat, zpow_ofNat, show 969 = 51 * 19 from rfl, show 309 = 103 * 3 from rfl,
            pow_mul, pow_mul]
          norm_num
  exact (zpow_lt_zpow_iff_right₀ (by norm_num)).1 hpow

theorem Regular.le_shortest_exponent (hv : v.Regular) : -1100 ≤ v.shortest.exponent := by
  obtain ⟨places, hplaces, c, -, hshortest⟩ := hv.exists_shortest
  obtain ⟨-, -, hexponent, -⟩ := Digits.ofProduct_bounds c (v.decade - places)
  have hlow := hv.low
  have hpow : (10 : ℚ) ^ (-1074 : ℤ) < 10 ^ (v.decade + 1) :=
    calc (10 : ℚ) ^ (-1074 : ℤ) ≤ 2 ^ (-1074 : ℤ) :=
          zpow_le_zpow_of_nonpos two_pos (by norm_num) (by decide)
      _ ≤ 2 ^ (v.mantissa.log2 + v.exponent) := zpow_le_zpow_right₀ one_le_two (by omega)
      _ ≤ v.value := hv.value_bounds.1
      _ < 10 ^ (v.decade + 1) := hv.decade_bounds.2
  have := (zpow_lt_zpow_iff_right₀ (by norm_num)).1 hpow
  rw [hshortest]
  omega

end Binary

end Workflow.Decimal
