import Workflow.Json.Decode
import Workflow.Text.Blank
import Workflow.Time.Calendar

/-!
Moments and their texts, such as `2020-01-02T03:04:06.500Z`. A text may name an offset from UTC,
and blanks may stand around its numbers; the moment is kept in UTC.
-/
namespace Workflow.Time

/-- A moment: the seconds since the start of 1970 and the nanoseconds since then, which are a
second or more during a leap second. -/
structure Timestamp where
  seconds : Int
  nanoseconds : Nat
  deriving Repr, DecidableEq, Inhabited

namespace Timestamp

def secondsOfDay : Int := 86400

def date (t : Timestamp) : Date := Date.ofDays (t.seconds / secondsOfDay)

/-- Whether a year is one of those that moments are in. -/
def isYear (year : Int) : Bool := -262143 ≤ year && year ≤ 262142

/-- The nanoseconds since the start of 1970. -/
def total (t : Timestamp) : Int := t.seconds * 1000000000 + t.nanoseconds

/-- The moment some nanoseconds after the start of 1970. -/
def ofTotal (nanoseconds : Int) : Timestamp :=
  ⟨nanoseconds / 1000000000, (nanoseconds % 1000000000).toNat⟩

def before (a b : Timestamp) : Bool :=
  a.seconds < b.seconds || (a.seconds = b.seconds && a.nanoseconds < b.nanoseconds)

/-- The whole milliseconds from one moment to another, less what is beyond them. -/
def millisecondsUntil (a b : Timestamp) : Int := (b.total - a.total).tdiv 1000000

/-- The moment some milliseconds later. -/
def later (t : Timestamp) (milliseconds : Nat) : Timestamp :=
  let nanoseconds := t.nanoseconds + milliseconds * 1000000
  ⟨t.seconds + nanoseconds / 1000000000, nanoseconds % 1000000000⟩

/-! ## Writing -/

/-- The fraction of a second in none, three, six or nine digits. -/
def fractionText (nanoseconds : Nat) : String :=
  if nanoseconds = 0 then ""
  else if nanoseconds % 1000000 = 0 then "." ++ padded 3 (nanoseconds / 1000000)
  else if nanoseconds % 1000 = 0 then "." ++ padded 6 (nanoseconds / 1000)
  else "." ++ padded 9 nanoseconds

/-- Date and time without an offset. -/
def localText (t : Timestamp) : String :=
  let d := t.date
  let second := (t.seconds % secondsOfDay).toNat
  let leap := t.nanoseconds / 1000000000
  s!"{yearText d.year}-{padded 2 d.month}-{padded 2 d.day}T{padded 2 (second / 3600)}:"
    ++ s!"{padded 2 (second / 60 % 60)}:{padded 2 (second % 60 + leap)}"
    ++ fractionText (t.nanoseconds % 1000000000)

def text (t : Timestamp) : String := t.localText ++ "Z"

/-- The text with the offset in digits. -/
def offsetText (t : Timestamp) : String := t.localText ++ "+00:00"

/-! ## Reading -/

inductive Fault where
  | tooShort | tooLong | invalid | outOfRange
  /-- The moment in UTC is not one of the calendar's. -/
  | impossible
  deriving Repr, DecidableEq

def Fault.message : Fault → String
  | tooShort => "premature end of input"
  | tooLong => "trailing input"
  | invalid => "input contains invalid characters"
  | outOfRange => "input is out of range"
  | impossible => "no possible date and time matching input"

/-- Reads something at the front of a text and answers with the rest. -/
abbrev Scan (α : Type) := StateT (List Char) (Except Fault) α

namespace Scan

def skipBlanks : Scan Unit := modify (·.dropWhile Text.isBlank)

/-- A number of at most `width` digits, and at least one. -/
def digits (width : Nat) : Scan Nat := do
  let s ← get
  let digits := (s.take width).takeWhile Char.isDigit
  match s, digits with
  | [], _ => throw .tooShort
  | _, [] => throw .invalid
  | _, _ =>
    let n := digits.foldl (fun n c => n * 10 + (c.toNat - 48)) 0
    if 2 ^ 63 ≤ n then throw .outOfRange
    set (s.drop digits.length)
    return n

/-- A number between bounds, blanks before it. -/
def number (width least greatest : Nat) : Scan Nat := do
  skipBlanks
  let n ← digits width
  if n < least || greatest < n then throw .outOfRange
  return n

/-- A year: four digits, or any number of digits behind a sign. -/
def year : Scan Int := do
  skipBlanks
  let s ← get
  let n : Int ← match s with
    | '-' :: rest => do
      set rest
      pure (-(← digits (rest.length + 1) : Int))
    | '+' :: rest => do
      set rest
      pure (← digits (rest.length + 1) : Int)
    | _ => do pure (← digits 4 : Int)
  if n < -(2 ^ 31) || 2 ^ 31 ≤ n then throw .outOfRange
  return n

def character (c : Char) : Scan Unit := do
  skipBlanks
  match ← get with
  | [] => throw .tooShort
  | d :: rest => if c = d then set rest else throw .invalid

/-- The fraction of a second, if there is one; digits beyond the ninth do not count. -/
def fraction : Scan Nat := do
  match ← get with
  | '.' :: rest =>
    set rest
    let n ← digits 9
    let left ← get
    set (left.dropWhile Char.isDigit)
    return n * 10 ^ (9 - (rest.length - left.length))
  | _ => return 0

def twoDigits : Scan Nat := do
  match ← get with
  | a :: b :: rest =>
    if a.isDigit && b.isDigit then
      set rest
      return (a.toNat - 48) * 10 + (b.toNat - 48)
    else throw .invalid
  | _ => throw .tooShort

/-- The seconds that a local time is ahead of UTC. -/
def offset : Scan Int := do
  skipBlanks
  match ← get with
  | [] => throw .tooShort
  | c :: rest =>
    if c = 'Z' || c = 'z' then
      set rest
      return 0
    else if (c :: rest.take 2).map Char.toLower = ['u', 't', 'c'] then
      set (rest.drop 2)
      return 0
    else if c = '+' || c = '-' || c = '\u2212' then
      set rest
      let hours ← twoDigits
      modify (·.dropWhile fun c => c = ':' || Text.isBlank c)
      let minutes ← twoDigits
      if 60 ≤ minutes then throw .outOfRange
      let n : Int := hours * 3600 + minutes * 60
      return if c = '+' then n else -n
    else throw .invalid

def timestamp : Scan Timestamp := do
  let year ← year
  character '-'
  let month ← number 2 1 12
  character '-'
  let day ← number 2 1 31
  match ← get with
  | [] => throw .tooShort
  | c :: rest => if c = 'T' || c = 't' || c = ' ' then set rest else throw .invalid
  let hour ← number 2 0 23
  character ':'
  let minute ← number 2 0 59
  character ':'
  let second ← number 2 0 60
  let nanoseconds ← fraction
  let offset ← offset
  if !(← get).all Text.isBlank then throw .tooLong
  let date : Date := ⟨year, month, day⟩
  if !date.isValid || !isYear year then throw .outOfRange
  if offset ≤ -secondsOfDay || secondsOfDay ≤ offset then throw .outOfRange
  let leap := if second = 60 then 1 else 0
  let seconds := date.toDays * secondsOfDay + hour * 3600 + minute * 60 + (second - leap : Nat)
  let t : Timestamp := ⟨seconds - offset, nanoseconds + leap * 1000000000⟩
  if !isYear t.date.year then throw .impossible
  return t

end Scan

def ofText (text : String) : Except Fault Timestamp := do
  let (t, _) ← Scan.timestamp.run text.toList
  return t

def decoder : Json.Decoder Timestamp
  | .leaf (.string s) =>
    match ofText s with
    | .ok t => .ok t
    | .error e => .error (.malformed e.message)
  | d => Json.Decoder.mismatch "an RFC 3339 formatted date and time string" d

def toJson (t : Timestamp) : Json := .string t.text

end Timestamp

end Workflow.Time
