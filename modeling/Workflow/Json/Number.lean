import Workflow.Decimal.Layout

/-!
JSON numbers. Integers in the signed or unsigned 64-bit range are kept as integers; every other
number is a float. The two never compare equal, so `1` and `1.0` stay apart.
-/
namespace Workflow.Json

inductive Number where
  | integer (value : Int)
  | float (value : Float)
  deriving Repr

namespace Number

/-- Integers are compared as integers and floats as floats. -/
protected def beq : Number → Number → Bool
  | integer a, integer b => a == b
  | float a, float b => a == b
  | _, _ => false

instance : BEq Number := ⟨Number.beq⟩

/-- The double nearest to an integer of at most 64 bits. -/
def roundInt (i : Int) : Float :=
  if i < 0 then -(UInt64.ofNat i.natAbs).toFloat else (UInt64.ofNat i.natAbs).toFloat

def toFloat : Number → Float
  | integer i => roundInt i
  | float x => x

def toNat? : Number → Option Nat
  | integer i => if 0 ≤ i then some i.toNat else none
  | float _ => none

/-- Floats are positional from `1e-5` up to below `1e16` and then keep a fraction digit; other
exponents carry their sign. -/
def layout : Decimal.Layout where
  positional d := -5 ≤ d.leading && d.leading ≤ 15
  wholePoint := true
  exponentSign := "+"
  zero := "0.0"
  negativeZero := "-0.0"
  infinity := "inf"
  notANumber := "NaN"

/-- The JSON text of a number; a float that is not finite is written as `null`. -/
def text : Number → String
  | integer i => toString i
  | float x => if x.isFinite then layout.double x else "null"

/-! ## Reading

A number is read with one rounding of its significant digits, as many as fit in 64 bits, and one
multiplication or division by a power of ten. -/

def largestWord : Nat := 2 ^ 64 - 1

/-- Digits taken into a significand as long as it fits in 64 bits. -/
structure Significand where
  value : Nat
  /-- The power of ten to scale by. -/
  exponent : Int
  /-- No further digit is taken. -/
  full : Bool

/-- Takes a digit before the point; a digit that does not fit counts as a power of ten. -/
def Significand.takeWhole (s : Significand) (digit : Nat) : Significand :=
  if s.full || largestWord < s.value * 10 + digit then
    { s with exponent := s.exponent + 1, full := true }
  else
    { s with value := s.value * 10 + digit }

/-- Takes a digit after the point; a digit that does not fit ends the taking. -/
def Significand.takeFraction (s : Significand) (digit : Nat) : Significand :=
  if s.full || largestWord < s.value * 10 + digit then
    { s with full := true }
  else
    { s with value := s.value * 10 + digit, exponent := s.exponent - 1 }

def Significand.ofDigits (whole fraction : List Nat) : Significand :=
  fraction.foldl takeFraction
    { whole.foldl takeWhole ⟨0, 0, false⟩ with full := false }

/-- The exact power of ten rounded to a double, for exponents up to 308. -/
def tenTo (n : Nat) : Float := Float.ofScientific 1 false n

/-- Divides by powers of ten, at most `1e308` at a time. -/
def scaleDown (x : Float) (n : Nat) : Float :=
  if n ≤ 308 then x / tenTo n
  else if x == 0 then x
  else scaleDown (x / tenTo 308) (n - 308)
termination_by n

/-- `value · 10 ^ exponent`, or nothing when it is too large for a double. -/
def scale (value : Nat) (exponent : Int) : Option Float :=
  let x := (UInt64.ofNat value).toFloat
  if exponent < 0 then some (scaleDown x exponent.natAbs)
  else if exponent ≤ 308 then
    let y := x * tenTo exponent.toNat
    if y.isInf then none else some y
  else if value = 0 then some x
  else none

/-- The exponents that are read digit by digit; a larger one leaves zero or nothing. -/
def largestExponent : Nat := 2 ^ 31 - 1

/-- The number with the given sign, digits and exponent; nothing when it is too large.
`fraction` and `exponent` are absent in the text of an integer. -/
def ofText (negative : Bool) (whole : List Nat) (fraction : Option (List Nat))
    (exponent : Option (Bool × Nat)) : Option Number :=
  let sign (x : Float) : Number := float (if negative then -x else x)
  let digits := Significand.ofDigits whole (fraction.getD [])
  match fraction, exponent with
  | none, none =>
    let value : Nat := whole.foldl (fun n d => n * 10 + d) 0
    if negative then
      if value ≠ 0 ∧ value ≤ 2 ^ 63 then some (integer (-(value : Int)))
      else (scale digits.value digits.exponent).map sign
    else if value ≤ largestWord then some (integer value)
    else (scale digits.value digits.exponent).map sign
  | _, none => (scale digits.value digits.exponent).map sign
  | _, some (negativeExponent, n) =>
    if largestExponent < n then
      if digits.value ≠ 0 ∧ ¬ negativeExponent then none else some (sign 0)
    else
      (scale digits.value (digits.exponent + (if negativeExponent then -(n : Int) else n))).map sign

end Number

end Workflow.Json
