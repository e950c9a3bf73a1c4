import Workflow.Proofs.Clock
import Workflow.Proofs.Sums

/-!
Numbers of seconds as durations. A larger number is no shorter a duration, and so are five seconds
more, even where the sum is rounded.
-/
namespace Workflow.Time.Duration

open Decimal (Aligned Binary HasValue dyadic)
open Float.Model.UnpackedFloat (Sign)

/-- The nanoseconds of a number of seconds, given as a mantissa and an exponent. -/
def nanosecondsOf (v : Binary) : Nat :=
  roundedQuotient (v.mantissa * second * 2 ^ v.exponent.toNat) (2 ^ (-v.exponent).toNat)

theorem roundedQuotient_mul_right (n d : Nat) {k : Nat} (hk : 0 < k) :
    roundedQuotient (n * k) (d * k) = roundedQuotient n d := by
  have hrest : n * k % (d * k) = n % d * k := Nat.mul_mod_mul_right k n d
  have hless : 2 * (n % d * k) < d * k ↔ 2 * (n % d) < d := by
    rw [← Nat.mul_assoc, Nat.mul_lt_mul_right hk]
  have htie : 2 * (n % d * k) = d * k ↔ 2 * (n % d) = d := by
    rw [← Nat.mul_assoc, Nat.mul_left_inj hk.ne']
  unfold roundedQuotient
  simp only [Nat.mul_div_mul_right n d hk, hrest, hless, htie]

theorem nanosecondsOf_mono {v w : Binary} (h : v.value ≤ w.value) :
    nanosecondsOf v ≤ nanosecondsOf w := by
  have hv : 0 < 2 ^ (-v.exponent).toNat := Nat.two_pow_pos _
  have hw : 0 < 2 ^ (-w.exponent).toNat := Nat.two_pow_pos _
  have hnat : v.mantissa * 2 ^ v.exponent.toNat * 2 ^ (-w.exponent).toNat ≤
      w.mantissa * 2 ^ w.exponent.toNat * 2 ^ (-v.exponent).toNat := by
    have hv' : (0 : ℚ) < 2 ^ (-v.exponent).toNat := by exact_mod_cast hv
    have hw' : (0 : ℚ) < 2 ^ (-w.exponent).toNat := by exact_mod_cast hw
    have hscaled := mul_le_mul_of_nonneg_right h (mul_pos hv' hw').le
    rw [Binary.value, Binary.value, dyadic, dyadic] at hscaled
    rw [← Nat.cast_le (α := ℚ)]
    push_cast
    rw [← Decimal.zpow_mul_toNat two_ne_zero v.exponent,
      ← Decimal.zpow_mul_toNat two_ne_zero w.exponent]
    linarith
  unfold nanosecondsOf
  rw [← roundedQuotient_mul_right _ (2 ^ (-v.exponent).toNat) hw,
    ← roundedQuotient_mul_right _ (2 ^ (-w.exponent).toNat) hv,
    Nat.mul_comm (2 ^ (-w.exponent).toNat)]
  apply Decimal.roundQuotient_mono
  calc v.mantissa * second * 2 ^ v.exponent.toNat * 2 ^ (-w.exponent).toNat
      = second * (v.mantissa * 2 ^ v.exponent.toNat * 2 ^ (-w.exponent).toNat) := by ring
    _ ≤ second * (w.mantissa * 2 ^ w.exponent.toNat * 2 ^ (-v.exponent).toNat) :=
        Nat.mul_le_mul_left _ hnat
    _ = w.mantissa * second * 2 ^ w.exponent.toNat * 2 ^ (-v.exponent).toNat := by ring

/-! ## Five seconds more -/

theorem ofSeconds_of_zero {x : Float} {s : Sign} (hx : x.toModel.unpack = .zero s) :
    ofSeconds x = zero := by
  have hsame := Decimal.same_ofDouble x
  rw [hx] at hsame
  unfold ofSeconds
  generalize Decimal.ofDouble x = reading at hsame ⊢
  cases hsame
  rfl

/-- A number of seconds above zero is a duration of its nanoseconds, or the longest one. -/
theorem ofSeconds_of_positive {x : Float} {m : Nat} {e : Int} (h : 0 < m)
    (hx : x.toModel.unpack = .finite .positive m e h) :
    ∃ narrow, ofSeconds x = ⟨min (nanosecondsOf ⟨m, e, narrow⟩) longest.nanoseconds⟩ := by
  have hsame := Decimal.same_ofDouble x
  rw [hx] at hsame
  unfold ofSeconds
  generalize Decimal.ofDouble x = reading at hsame ⊢
  cases hsame with
  | finite s m e h narrow =>
    refine ⟨narrow, ?_⟩
    change (if nanosecondsOf ⟨m, e, narrow⟩ ≤ longest.nanoseconds then _ else longest) = _
    split_ifs with hle
    · rw [min_eq_left hle]
      rfl
    · rw [min_eq_right (Nat.le_of_not_le hle)]

/-- A double that is not below zero is zero or has a positive value. -/
theorem not_negative {x : Float} (h : ¬ x < 0.0) {m : Nat} {e : Int} (hm : 0 < m) :
    x.toModel.unpack ≠ .finite .negative m e hm := by
  intro hx
  have hlt : Float.Model.UnpackedFloat.lt x.toModel.unpack (.zero .positive) = true := by
    rw [hx]
    rfl
  exact h (decide_eq_true hlt)

/-- Five seconds more are no shorter. -/
theorem ofSeconds_add_five {x : Float} (hx : x.isFinite) (hsign : ¬ x < 0.0) :
    ofSeconds x ≤ ofSeconds (x + 5.0) := by
  obtain ⟨v, hv⟩ := Decimal.exists_hasValue hx
  generalize hunpack : x.toModel.unpack = u at hv
  cases hv with
  | zero s =>
    rw [ofSeconds_of_zero hunpack]
    exact Nat.zero_le _
  | @positive m e h =>
    have hfield := Decimal.exponentField_lt_of_isFinite hx
    have hexponent := Decimal.below_unpack hfield
    rw [hunpack] at hexponent
    obtain ⟨m', e', h', hunpack', hle⟩ :=
      Decimal.exists_unpack_add_five h (hexponent.2.trans (by omega)) hunpack
    obtain ⟨narrow, hseconds⟩ := ofSeconds_of_positive h.pos hunpack
    obtain ⟨narrow', hseconds'⟩ := ofSeconds_of_positive h'.pos hunpack'
    have hvalues : (Binary.mk m e narrow).value ≤ (Binary.mk m' e' narrow').value := hle
    rw [hseconds, hseconds']
    exact min_le_min_right _ (nanosecondsOf_mono hvalues)
  | negative h => exact absurd hunpack (not_negative hsign h.pos)

end Workflow.Time.Duration
