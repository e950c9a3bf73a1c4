import Workflow.Text.Blank

/-!
Reading decimals as doubles with correct rounding. A numeral has a sign, digits with an optional
point among them or at one of their ends, and an optional exponent; infinity and not-a-number are
written as words.
-/
namespace Workflow.Decimal

inductive NumeralFault where
  | empty
  | malformed
  deriving Repr, DecidableEq

def NumeralFault.message : NumeralFault → String
  | empty => "cannot parse float from empty string"
  | malformed => "invalid float literal"

def infinity : Float := 1.0 / 0.0

def notANumber : Float := 0.0 / 0.0

/-- `coefficient · 10 ^ exponent` rounded to a double. Values far outside the range of doubles are
decided by the place of their leading digit. -/
def round (coefficient : Nat) (exponent : Int) : Float :=
  let leading := exponent + (Nat.toDigits 10 coefficient).length
  if coefficient = 0 then 0.0
  else if 400 < leading then infinity
  else if leading < -400 then 0.0
  else if exponent < 0 then Float.ofScientific coefficient true exponent.natAbs
  else Float.ofScientific coefficient false exponent.natAbs

def natOf (digits : List Char) : Nat :=
  digits.foldl (fun n c => n * 10 + (c.toNat - 48)) 0

def signed : List Char → Bool × List Char
  | '-' :: rest => (true, rest)
  | '+' :: rest => (false, rest)
  | s => (false, s)

/-- The exponent behind the digits; nothing when the text is not one. -/
def exponent? : List Char → Option Int
  | [] => some 0
  | c :: rest =>
    if c = 'e' || c = 'E' then
      let (negative, digits) := signed rest
      if digits.isEmpty || !digits.all Char.isDigit then none
      else some (if negative then -(natOf digits : Int) else natOf digits)
    else none

/-- A numeral without its sign. -/
def unsigned? (s : List Char) : Option Float :=
  let word := s.map Char.toLower
  if word = "inf".toList || word = "infinity".toList then some infinity
  else if word = "nan".toList then some notANumber
  else
    let whole := s.takeWhile Char.isDigit
    let rest := s.dropWhile Char.isDigit
    let (fraction, rest) := match rest with
      | '.' :: rest => (rest.takeWhile Char.isDigit, rest.dropWhile Char.isDigit)
      | _ => ([], rest)
    if whole.isEmpty && fraction.isEmpty then none
    else (exponent? rest).map fun e => round (natOf (whole ++ fraction)) (e - fraction.length)

def parseFloat (text : String) : Except NumeralFault Float :=
  let (negative, s) := signed text.toList
  match text.toList, unsigned? s with
  | [], _ => .error .empty
  | _, none => .error .malformed
  | _, some x => .ok (if negative then -x else x)

end Workflow.Decimal
