import Workflow.Decimal.Numeral
import Workflow.Json.Draft
import Workflow.Text.Hex
import Workflow.Time.Calendar

/-!
Numbers, dates and words of TOML. A scalar is a whole word: digits may be grouped by single
underscores, integers fit in 64 bits, and dates and times are kept as texts in a normal form.
-/
namespace Workflow.Toml

def isWordChar (c : Char) : Bool := c.isAlphanum || c ∈ ['+', '-', '_', '.', ':']

/-! ## Numbers -/

/-- The digits at the front, without the underscores between them, and the rest. -/
def digitGroups (isDigit : Char → Bool) : List Char → List Char × List Char
  | c :: '_' :: d :: rest =>
    if isDigit c && isDigit d then
      let (digits, rest) := digitGroups isDigit (d :: rest)
      (c :: digits, rest)
    else if isDigit c then ([c], '_' :: d :: rest)
    else ([], c :: '_' :: d :: rest)
  | c :: rest =>
    if isDigit c then
      let (digits, rest) := digitGroups isDigit rest
      (c :: digits, rest)
    else ([], c :: rest)
  | [] => ([], [])

def digitsOnly? (isDigit : Char → Bool) (s : List Char) : Option (List Char) :=
  match digitGroups isDigit s with
  | ([], _) => none
  | (digits, []) => some digits
  | _ => none

def int64? (i : Int) : Option Int := if -2 ^ 63 ≤ i ∧ i < 2 ^ 63 then some i else none

def based? (base : Nat) (s : List Char) : Option Int := do
  let digits ← digitsOnly? (fun c => (Text.hexDigit? c).any (· < base)) s
  int64? (digits.foldl (fun n c => n * base + (Text.hexDigit? c).getD 0) 0 : Nat)

/-- The digits before a point or an exponent: no zero stands before another digit. -/
def whole? (s : List Char) : Option (List Char × List Char) :=
  match s with
  | '0' :: rest => some (['0'], rest)
  | _ =>
    match digitGroups Char.isDigit s with
    | ([], _) => none
    | found => some found

def integer? (s : List Char) : Option Int :=
  match s with
  | '0' :: 'x' :: rest => based? 16 rest
  | '0' :: 'o' :: rest => based? 8 rest
  | '0' :: 'b' :: rest => based? 2 rest
  | _ => do
    let (negative, digits) := Decimal.signed s
    let (digits, []) ← whole? digits | none
    let n : Int := Decimal.natOf digits
    int64? (if negative then -n else n)

def exponent? : List Char → Option (List Char)
  | 'e' :: rest | 'E' :: rest => do
    let digits ← digitsOnly? Char.isDigit (Decimal.signed rest).2
    return 'e' :: (if rest.head? = some '-' then '-' :: digits else digits)
  | _ => none

/-- The digits behind the point, with an exponent or without. -/
def fraction? (s : List Char) : Option (List Char) :=
  match digitGroups Char.isDigit s with
  | ([], _) => none
  | (digits, []) => some ('.' :: digits)
  | (digits, rest) => do return '.' :: digits ++ (← exponent? rest)

def floatTail? : List Char → Option (List Char)
  | '.' :: rest => fraction? rest
  | s => exponent? s

def float? (s : List Char) : Option Float := do
  let (negative, unsigned) := Decimal.signed s
  let signed (x : Float) : Float := if negative then -x else x
  if unsigned = "inf".toList then return signed Decimal.infinity
  if unsigned = "nan".toList then return signed Decimal.notANumber
  let (digits, rest) ← whole? unsigned
  let tail ← floatTail? rest
  let x := signed (← Decimal.unsigned? (digits ++ tail))
  if x == Decimal.infinity then none else return x

/-! ## Dates and times -/

/-- A number of two digits with a greatest value. -/
def twoDigits? (a b : Char) (least greatest : Nat) : Option Nat :=
  let n := Decimal.natOf [a, b]
  if a.isDigit && b.isDigit && least ≤ n && n ≤ greatest then some n else none

/-- A date at the front, and the rest. -/
def date? : List Char → Option (List Char × List Char)
  | a :: b :: c :: d :: '-' :: e :: f :: '-' :: g :: h :: rest => do
    let year := [a, b, c, d]
    if !year.all Char.isDigit then none
    let month ← twoDigits? e f 1 12
    let _ ← twoDigits? g h 1 (Time.Date.daysInMonth (Decimal.natOf year) month)
    return (year ++ ['-', e, f, '-', g, h], rest)
  | _ => none

/-- The fraction of a second: nine digits at most, and no zeros at the end. -/
def secondFraction? (s : List Char) : Option (List Char × List Char) :=
  match s with
  | '.' :: rest =>
    let digits := rest.takeWhile Char.isDigit
    if digits.isEmpty then none
    else
      let kept := ((digits.take 9).reverse.dropWhile (· = '0')).reverse
      some (if kept.isEmpty then [] else '.' :: kept, rest.drop digits.length)
  | _ => some ([], s)

/-- A time of day at the front, and the rest. -/
def time? : List Char → Option (List Char × List Char)
  | a :: b :: ':' :: c :: d :: ':' :: e :: f :: rest => do
    let _ ← twoDigits? a b 0 23
    let _ ← twoDigits? c d 0 59
    let _ ← twoDigits? e f 0 60
    let (fraction, rest) ← secondFraction? rest
    return ([a, b, ':', c, d, ':', e, f] ++ fraction, rest)
  | _ => none

def offset? : List Char → Option (List Char)
  | [] => some []
  | ['Z'] | ['z'] => some ['Z']
  | [sign, a, b, ':', c, d] => do
    if sign ≠ '+' && sign ≠ '-' then none
    let hours ← twoDigits? a b 0 23
    let minutes ← twoDigits? c d 0 59
    let sign := if hours = 0 && minutes = 0 then '+' else sign
    return [sign, a, b, ':', c, d]
  | _ => none

/-- A date, a time, or both with an offset or without, in the normal form. -/
def moment? (s : List Char) : Option (List Char) :=
  match date? s with
  | some (date, []) => some date
  | some (date, c :: rest) => do
    if c ∉ ['T', 't', ' '] then none
    let (time, rest) ← time? rest
    let offset ← offset? rest
    return date ++ 'T' :: time ++ offset
  | none => do
    let (time, []) ← time? s | none
    return time

/-! ## Values -/

/-- The entry that stands for a date or a time. -/
def momentKey : String := "$__toml_private_datetime"

def ofFloat (x : Float) : Json.Draft :=
  if x.isFinite then .leaf (.number (.float x)) else .special x

def scalar? (s : List Char) : Option Json.Draft :=
  if s = "true".toList then some (.leaf (.bool true))
  else if s = "false".toList then some (.leaf (.bool false))
  else match integer? s with
    | some i => some (.leaf (.number (.integer i)))
    | none =>
      match float? s with
      | some x => some (ofFloat x)
      | none =>
        (moment? s).map fun text =>
          .object [(momentKey, .leaf (.string (String.ofList text)))] none

end Workflow.Toml
