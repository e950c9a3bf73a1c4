import Workflow.Decimal.Layout

/-!
Floats with a fixed number of decimal places. The exact value is rounded to the nearest multiple of
the last place, and a tie goes to the even one.
-/
namespace Workflow.Decimal

/-- A quotient, rounded to the nearest natural number; a tie goes to the even one. -/
def roundQuotient (numerator denominator : Nat) : Nat :=
  let below := numerator / denominator
  let rest := numerator % denominator
  if 2 * rest < denominator || (2 * rest = denominator && below % 2 = 0) then below else below + 1

/-- The multiples of the last of some decimal places in a value. -/
def Binary.scaled (v : Binary) (places : Nat) : Nat :=
  roundQuotient (v.mantissa * 2 ^ v.exponent.toNat * 10 ^ places) (2 ^ (-v.exponent).toNat)

/-- A value with some places, of which there is at least one. -/
def fixedText (places : Nat) : Reading → String
  | .finite negative v => withSign negative (v.scaled places)
  | .zero negative => withSign negative 0
  | special => Layout.message.ofReading special
where
  withSign (negative : Bool) (scaled : Nat) : String :=
    let digits := String.ofList (placePoint (Nat.toDigits 10 scaled) places)
    if negative then "-" ++ digits else digits

example : fixedText 3 (ofDouble 0.0625) = "0.062" := by decide +kernel

end Workflow.Decimal
