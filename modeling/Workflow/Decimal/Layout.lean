import Workflow.Decimal.Shortest

/-!
How a decimal is written. A layout says which decimals are written positionally, whether a whole
number keeps a fraction digit, how an exponent is signed, and what stands for the values that
have no digits.
-/
namespace Workflow.Decimal

structure Layout where
  /-- Whether a decimal is written without an exponent. -/
  positional : Digits → Bool
  /-- Whether a positional whole number ends in `.0`. -/
  wholePoint : Bool
  /-- What stands before a non-negative exponent. -/
  exponentSign : String
  zero : String
  negativeZero : String
  infinity : String
  notANumber : String

/-- The digits with a point before the last `places` of them. -/
def placePoint (digits : List Char) (places : Nat) : List Char :=
  let padded := List.replicate (places + 1 - digits.length) '0' ++ digits
  padded.take (padded.length - places) ++ '.' :: padded.drop (padded.length - places)

/-- A decimal without an exponent. -/
def Digits.positionalText (d : Digits) (wholePoint : Bool) : List Char :=
  if d.exponent < 0 then placePoint d.text (-d.exponent).toNat
  else d.text ++ List.replicate d.exponent.toNat '0' ++ (if wholePoint then ['.', '0'] else [])

/-- A decimal with one digit before the point and an exponent. -/
def Digits.scientificText (d : Digits) (sign : String) : List Char :=
  let mantissa := match d.text with
    | [] => []
    | [digit] => [digit]
    | digit :: rest => digit :: '.' :: rest
  let exponent :=
    if d.leading < 0 then '-' :: Nat.toDigits 10 d.leading.natAbs
    else sign.toList ++ Nat.toDigits 10 d.leading.natAbs
  mantissa ++ 'e' :: exponent

namespace Layout

def ofDigits (l : Layout) (d : Digits) : String :=
  String.ofList (if l.positional d then d.positionalText l.wholePoint
    else d.scientificText l.exponentSign)

def ofReading (l : Layout) : Reading → String
  | .notANumber => l.notANumber
  | .infinite negative => if negative then "-" ++ l.infinity else l.infinity
  | .zero negative => if negative then l.negativeZero else l.zero
  | .finite negative v =>
    let text := l.ofDigits v.shortest
    if negative then "-" ++ text else text

def double (l : Layout) (x : Float) : String := l.ofReading (ofDouble x)

def single (l : Layout) (x : Float32) : String := l.ofReading (ofSingle x)

/-- Numbers in messages never have an exponent, and a whole number is written as an integer. -/
def message : Layout where
  positional _ := true
  wholePoint := false
  exponentSign := ""
  zero := "0"
  negativeZero := "-0"
  infinity := "inf"
  notANumber := "NaN"

end Layout

end Workflow.Decimal
