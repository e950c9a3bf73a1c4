import Workflow.Decimal.Binary

/-!
The shortest decimal that reads back as a given float. On the grids of 1, 2, … 17 digits the two
neighbours of the value are tested against its rounding interval in exact arithmetic; the
first grid with a hit gives the digits, and of two hits the nearer one is taken.
-/
namespace Workflow.Decimal

/-- The decimal `coefficient · 10 ^ exponent`. -/
structure Digits where
  coefficient : Nat
  exponent : Int
  deriving Repr, DecidableEq

/-- The decimal digits of the coefficient, most significant first. -/
def Digits.text (d : Digits) : List Char := Nat.toDigits 10 d.coefficient

/-- The power of ten of the leading digit. -/
def Digits.leading (d : Digits) : Int := d.exponent + (d.text.length - 1 : Nat)

/-- Moves the trailing zeros of the coefficient into the exponent. -/
def Digits.ofProduct (coefficient : Nat) (exponent : Int) : Digits :=
  if coefficient ≠ 0 ∧ coefficient % 10 = 0 then
    Digits.ofProduct (coefficient / 10) (exponent + 1)
  else
    ⟨coefficient, exponent⟩
termination_by coefficient
decreasing_by omega

def Binary.isBelow (v : Binary) (k : Int) : Bool :=
  v.mantissa * 2 ^ v.exponent.toNat * 10 ^ (-k).toNat
    < 2 ^ (-v.exponent).toNat * 10 ^ k.toNat

/-- The power of ten of the leading decimal digit, found next to an estimate that is at most
one too small or one too large. -/
def Binary.decade (v : Binary) : Int :=
  let estimate := (((Nat.log2 v.mantissa : Int) + v.exponent) * 30103).fdiv 100000
  if v.isBelow estimate then estimate - 1
  else if v.isBelow (estimate + 1) then estimate
  else estimate + 1

/-- The multiple of `10 ^ k` in the rounding interval that is nearest to the value, looked for
among the two multiples around the value; an exact tie goes to the even one. -/
def Binary.onGrid (v : Binary) (k : Int) : Option Nat :=
  let up := 2 ^ (v.exponent - 2).toNat * 10 ^ (-k).toNat
  let unit := 2 ^ (2 - v.exponent).toNat * 10 ^ k.toNat
  let value := 4 * v.mantissa * up
  let low := (4 * v.mantissa - if v.narrowBelow then 1 else 2) * up
  let high := (4 * v.mantissa + 2) * up
  let inside (c : Nat) : Bool :=
    if v.mantissa % 2 = 0 then low ≤ c * unit && c * unit ≤ high
    else low < c * unit && c * unit < high
  let below := value / unit
  let rest := value % unit
  match inside below, inside (below + 1) with
  | true, true =>
    if 2 * rest < unit || (2 * rest = unit && below % 2 = 0) then some below
    else some (below + 1)
  | true, false => some below
  | false, true => some (below + 1)
  | false, false => none

/-- The shortest decimal in the rounding interval, nearest to the value among those. -/
def Binary.shortest (v : Binary) : Digits :=
  let decade := v.decade
  let found := (List.range 18).findSome? fun (places : Nat) =>
    (v.onGrid (decade - places)).map (Digits.ofProduct · (decade - places))
  found.getD ⟨v.mantissa, v.exponent⟩

end Workflow.Decimal
