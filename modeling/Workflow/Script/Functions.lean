import Workflow.Decimal.Numeral
import Workflow.Json.Reader
import Workflow.Script.Operators
import Workflow.Text.Blank
import Workflow.Text.Case

/-!
The functions that scripts may call. A function gets its arguments as values and answers with a
result and with what it leaves in place of its first argument, so a call on a variable can change
the variable. Positions in texts and arrays count from the end when they are negative.
-/
namespace Workflow.Script

/-- The result of a call, and what is left of the first argument. -/
structure Answer where
  result : Value
  receiver : Value

namespace Function

/-- A call that leaves its first argument alone. -/
def pureAnswer (receiver result : Value) : Option (Except Fault Answer) :=
  some (.ok ⟨result, receiver⟩)

/-- A call that changes its first argument and has no result. -/
def changed (receiver : Value) : Option (Except Fault Answer) := some (.ok ⟨.unit, receiver⟩)

def failed (f : Fault) : Option (Except Fault Answer) := some (.error f)

/-- A position as a count from the front; too small ones are the front and too large ones the
end. -/
def clampIndex (length : Nat) (i : Int) : Nat :=
  if i < 0 then length - i.natAbs else min i.toNat length

/-- A position as a count from the front, if there is something at it. -/
def wrapIndex? (length : Nat) (i : Int) : Option Nat :=
  if i < 0 then (if i.natAbs ≤ length then some (length - i.natAbs) else none)
  else if i.toNat < length then some i.toNat
  else none

def ofChars (s : List Char) : Value := .string (String.ofList s)

/-- The characters from a position on, at most `count` of them. -/
def subString (s : List Char) (start count : Int) : Value :=
  if count ≤ 0 then .string ""
  else ofChars ((s.drop (clampIndex s.length start)).take count.toNat)

/-- The first position of a text in another; an empty text holds nothing. -/
def indexOfText (needle s : List Char) : Value :=
  if s.isEmpty then .int (-1)
  else match Text.indexOf? needle s with
    | some n => .int n
    | none => .int (-1)

def indexOfTextFrom (needle s : List Char) (start : Int) : Value :=
  let first := if start < 0 then s.length - start.natAbs else start.toNat
  if s.isEmpty || (s.length ≤ first && 0 < start) then .int (-1)
  else match Text.indexOf? needle (s.drop first) with
    | some n => .int (first + n)
    | none => .int (-1)

def indexOfItem (items : List Value) (v : Value) (start : Int) : Value :=
  let first := clampIndex items.length start
  match (items.drop first).findIdx? (Value.same v) with
  | some n => .int (first + n)
  | none => .int (-1)

def words (s : List Char) : List (List Char) :=
  ((s.foldr (fun c (acc : List (List Char)) =>
    if Text.isBlank c then [] :: acc
    else match acc with
      | [] => [[c]]
      | w :: rest => (c :: w) :: rest) [[]]).filter (!·.isEmpty))

/-- Whether the items are sorted by a comparison of neighbours; used by `sort`. -/
def atMost (a b : Value) : Bool :=
  match a, b with
  | .int x, .int y => x ≤ y
  | .float x, .float y => !(y < x)
  | .string s, .string t => !(t < s)
  | .char c, .char d => c ≤ d
  | .bool x, .bool y => x.toNat ≤ y.toNat
  | _, _ => true

def isSortable : Value → Bool
  | .int _ | .float _ | .string _ | .char _ | .bool _ => true
  | _ => false

/-- The items in increasing order; they have to be of one type that has an order. -/
def sort (items : List Value) : Except Fault (List Value) :=
  match items with
  | [] | [_] => .ok items
  | first :: _ =>
    if items.any fun v => v.typeName ≠ first.typeName then
      .error (.functionNotFound "sort() cannot be called with elements of different types")
    else if isSortable first then .ok (items.mergeSort atMost)
    else .ok items

/-- The value of a digit of any base up to 36; letters of either case follow the decimal digits. -/
def digit? (c : Char) : Option Nat :=
  if c.isDigit then some (c.toNat - '0'.toNat)
  else if c.isAlpha then some (c.toLower.toNat - 'a'.toNat + 10)
  else none

def parseInt (text : String) (base : Int) : Except Fault Int :=
  let fail (reason : String) : Except Fault Int :=
    .error (.arithmetic s!"Error parsing integer number '{text}': {reason}")
  let (negative, digits) := Decimal.signed (Text.trimChars text.toList)
  let trimmed := Text.trimChars text.toList
  if base < 2 || 36 < base then .error (.arithmetic s!"Invalid radix: '{base}'")
  else if trimmed.isEmpty then fail "cannot parse integer from empty string"
  else if digits.isEmpty || !digits.all fun c => (digit? c).any (· < base.toNat) then
    fail "invalid digit found in string"
  else
    let n : Int := digits.foldl (fun n c => n * base + (digit? c).getD 0) 0
    let n := if negative then -n else n
    if n < Value.smallestInt then fail "number too small to fit in target type"
    else if Value.largestInt < n then fail "number too large to fit in target type"
    else .ok n

def truncate (x : Float) : Except Fault Int :=
  let tooLarge : Except Fault Int :=
    .error (.arithmetic s!"Integer overflow: to_int({Decimal.Layout.message.double x})")
  if x < -9223372036854775808.0 || 9223372036854775808.0 < x then tooLarge
  else match Decimal.ofDouble x with
    | .finite negative v =>
      let n : Int := v.mantissa * 2 ^ v.exponent.toNat / 2 ^ (-v.exponent).toNat
      .ok (max Value.smallestInt (min Value.largestInt (if negative then -n else n)))
    | _ => .ok 0

/-- The larger or the smaller of two values that have an order. -/
def extreme (larger : Bool) (a b : Value) : Option Value :=
  let pick (firstIsLarger : Bool) : Value := if firstIsLarger == larger then a else b
  match a, b with
  | .int x, .int y => some (pick (y ≤ x))
  | .float x, .float y => some (pick (y ≤ x))
  | .int x, .float y =>
    let x := Json.Number.roundInt x
    some (.float (if (y ≤ x) == larger then x else y))
  | .float x, .int y =>
    let y := Json.Number.roundInt y
    some (.float (if (y ≤ x) == larger then x else y))
  | .string s, .string t => some (pick (!(s < t)))
  | .char c, .char d => some (pick (d ≤ c))
  | _, _ => none

def onText (name : String) (text : String) (rest : List Value) : Option (Except Fault Answer) :=
  let s := text.toList
  let self : Value := .string text
  let answer := pureAnswer self
  let pieces (ps : List (List Char)) : Value := .array (ps.map ofChars)
  match name, rest with
  | "len", [] => answer (.int s.length)
  | "is_empty", [] => answer (.bool s.isEmpty)
  | "bytes", [] => answer (.int text.utf8ByteSize)
  | "clear", [] => changed (.string "")
  | "trim", [] => changed (ofChars (Text.trimChars s))
  | "to_upper", [] => answer (ofChars (Text.upper s))
  | "to_lower", [] => answer (ofChars (Text.lower s))
  | "contains", [.string t] => answer (.bool (Text.occursIn t.toList s))
  | "contains", [.char c] => answer (.bool (s.contains c))
  | "starts_with", [.string t] => answer (.bool (t.toList.isPrefixOf s))
  | "ends_with", [.string t] => answer (.bool (t.toList.isSuffixOf s))
  | "index_of", [.string t] => answer (indexOfText t.toList s)
  | "index_of", [.char c] => answer (indexOfText [c] s)
  | "index_of", [.string t, .int i] => answer (indexOfTextFrom t.toList s i)
  | "index_of", [.char c, .int i] => answer (indexOfTextFrom [c] s i)
  | "sub_string", [.int i] => answer (subString s i s.length)
  | "sub_string", [.int i, .int n] => answer (subString s i n)
  | "sub_string", [.range first last inclusive] =>
    let first := max first 0
    answer (subString s first (max last 0 - first + (if inclusive then 1 else 0)))
  | "split", [] => answer (pieces (words s))
  | "split", [.string t] => answer (pieces (Text.pieces t.toList s))
  | "split", [.char c] => answer (pieces (Text.pieces [c] s))
  | "split", [.string t, .int n] => answer (pieces (Text.piecesUpTo t.toList (max n 1).toNat s))
  | "split", [.char c, .int n] => answer (pieces (Text.piecesUpTo [c] (max n 1).toNat s))
  | "split", [.int i] =>
    let n := if i ≤ 0 then s.length - i.natAbs else min i.toNat s.length
    answer (pieces [s.take n, s.drop n])
  | "replace", [.string t, .string u] => changed (ofChars (Text.replace t.toList u.toList s))
  | "replace", [.string t, .char d] => changed (ofChars (Text.replace t.toList [d] s))
  | "replace", [.char c, .string u] => changed (ofChars (Text.replace [c] u.toList s))
  | "replace", [.char c, .char d] => changed (ofChars (Text.replace [c] [d] s))
  | "remove", [.string t] => changed (ofChars (Text.replace t.toList [] s))
  | "remove", [.char c] => changed (ofChars (s.filter (· ≠ c)))
  | "append", [v] => changed (.string (text ++ v.text))
  | "pop", [] =>
    match s.getLast? with
    | some c => some (.ok ⟨.char c, ofChars s.dropLast⟩)
    | none => some (.ok ⟨.unit, self⟩)
  | "pop", [.int n] =>
    let rest := s.take (s.length - n.toNat)
    some (.ok ⟨ofChars (s.drop rest.length), ofChars rest⟩)
  | "truncate", [.int n] => changed (ofChars (s.take n.toNat))
  | "parse_int", [] => some do
    let i ← parseInt text 10
    return ⟨.int i, self⟩
  | "parse_int", [.int base] => some do
    let i ← parseInt text base
    return ⟨.int i, self⟩
  | "parse_float", [] =>
    match Decimal.parseFloat (Text.trim text) with
    | .ok x => answer (.float x)
    | .error e =>
      failed (.arithmetic s!"Error parsing floating-point number '{text}': {e.message}")
  | _, _ => none

def onArray (name : String) (items : List Value) (rest : List Value) :
    Option (Except Fault Answer) :=
  let answer := pureAnswer (.array items)
  match name, rest with
  | "len", [] => answer (.int items.length)
  | "is_empty", [] => answer (.bool items.isEmpty)
  | "clear", [] => changed (.array [])
  | "push", [v] => changed (.array (items ++ [v]))
  | "append", [.array more] => changed (.array (items ++ more))
  | "pop", [] => some (.ok ⟨items.getLast?.getD .unit, .array items.dropLast⟩)
  | "shift", [] => some (.ok ⟨items.head?.getD .unit, .array items.tail⟩)
  | "insert", [.int i, v] =>
    let n := clampIndex items.length i
    changed (.array (items.take n ++ v :: items.drop n))
  | "remove", [.int i] =>
    match wrapIndex? items.length i with
    | some n => some (.ok ⟨items[n]?.getD .unit, .array (items.eraseIdx n)⟩)
    | none => answer .unit
  | "reverse", [] => changed (.array items.reverse)
  | "sort", [] => some do
    let sorted ← sort items
    return ⟨.unit, .array sorted⟩
  | "contains", [v] => answer (.bool (items.any (Value.same v)))
  | "index_of", [v] => answer (indexOfItem items v 0)
  | "index_of", [v, .int start] => answer (indexOfItem items v start)
  | "truncate", [.int n] => changed (.array (items.take n.toNat))
  | _, _ => none

def onMap (name : String) (fields : List (String × Value)) (rest : List Value) :
    Option (Except Fault Answer) :=
  let answer := pureAnswer (.map fields)
  match name, rest with
  | "len", [] => answer (.int fields.length)
  | "is_empty", [] => answer (.bool fields.isEmpty)
  | "clear", [] => changed (.map [])
  | "contains", [.string key] => answer (.bool (Value.find? fields key).isSome)
  | "keys", [] => answer (.array (fields.map fun kv => .string kv.1))
  | "values", [] => answer (.array (fields.map (·.2)))
  | "remove", [.string key] =>
    some (.ok ⟨(Value.find? fields key).getD .unit, .map (Value.erase fields key)⟩)
  | "get", [.string key] => answer ((Value.find? fields key).getD .unit)
  | "set", [.string key, v] => changed (.map (Value.insert fields key v))
  | "mixin", [.map more] =>
    changed (.map (more.foldl (fun m kv => Value.insert m kv.1 kv.2) fields))
  | _, _ => none

def onNumber (name : String) (self : Value) (rest : List Value) : Option (Except Fault Answer) :=
  let answer := pureAnswer self
  match name, self, rest with
  | "abs", .int i, [] =>
    some do return ⟨← Value.checked i.natAbs "Negation" s!"-{i}", self⟩
  | "abs", .float x, [] => answer (.float x.abs)
  | "floor", .float x, [] => answer (.float x.floor)
  | "ceiling", .float x, [] => answer (.float x.ceil)
  | "round", .float x, [] => answer (.float x.round)
  | "sqrt", .float x, [] => answer (.float x.sqrt)
  | "to_int", .int i, [] => answer (.int i)
  | "to_int", .float x, [] => some do return ⟨.int (← truncate x), self⟩
  | "to_int", .char c, [] => answer (.int c.toNat)
  | "to_float", .int i, [] => answer (.float (Json.Number.roundInt i))
  | "to_float", .float x, [] => answer (.float x)
  | _, _, _ => none

/-- The steps of `range`; a step of zero is refused. -/
def rangeSteps (first last step : Int) : Option (Except Fault Answer) :=
  if step = 0 then failed .zeroStep
  else pureAnswer (.int first) (.steps first last step)

/-- The steps of `range` on floats; a step that does not move on from the first one is refused. -/
def rangeFloatSteps (first last step : Float) : Option (Except Fault Answer) :=
  if first + step == first then failed .zeroStep
  else pureAnswer (.float first) (.floatSteps first last step)

/-- The function of a name on arguments; nothing if there is no such function. `now` is the time
in milliseconds. -/
def call (now : Int) (name : String) (arguments : List Value) : Option (Except Fault Answer) :=
  match name, arguments with
  | "now_ms", [] => pureAnswer .unit (.int now)
  | "print", [v] | "debug", [v] => pureAnswer v .unit
  | "print", [] | "debug", [] => pureAnswer .unit .unit
  | "type_of", [v] => pureAnswer v (.string v.typeName)
  | "to_string", [v] => pureAnswer v (.string v.text)
  | "to_debug", [v] => pureAnswer v (.string v.innerText)
  | "json_encode", [v] =>
    match v.toJson with
    | .ok j => pureAnswer v (.string j.compact)
    | .error t => pureAnswer v (.string (Json.string t).compact)
  | "json_decode", [.string s] =>
    match Json.parse s with
    | .ok j => pureAnswer (.string s) (.ofJson j)
    | .error e => failed (.thrown (.string s!"invalid JSON: {e.message}"))
  | "range", [.int a, .int b] => pureAnswer (.int a) (.range a b false)
  | "range", [.int a, .int b, .int step] => rangeSteps a b step
  | "range", [.range a b false, .int step] => rangeSteps a b step
  | "range", [.float a, .float b, .float step] => rangeFloatSteps a b step
  | "min", [a, b] => (extreme false a b).map fun v => .ok ⟨v, a⟩
  | "max", [a, b] => (extreme true a b).map fun v => .ok ⟨v, a⟩
  | "contains", [.range a b i, v] =>
    (Value.holds (.range a b i) v).map fun r => .ok ⟨.bool r, .range a b i⟩
  | "to_upper", [.char c] => pureAnswer (.char c) (ofChars (Text.upper [c]))
  | "to_lower", [.char c] => pureAnswer (.char c) (ofChars (Text.lower [c]))
  | _, .string s :: rest => onText name s rest
  | _, .array items :: rest => onArray name items rest
  | _, .map fields :: rest => onMap name fields rest
  | _, v :: rest => onNumber name v rest
  | _, [] => none

def property (name : String) (v : Value) : Option Value :=
  let known : Bool := match v with
    | .string _ => name ∈ ["len", "is_empty", "bytes"]
    | .array _ => name ∈ ["len", "is_empty"]
    | .float _ => name ∈ ["floor", "ceiling", "round"]
    | _ => false
  if known then
    match call 0 name [v] with
    | some (.ok a) => some a.result
    | _ => none
  else none

end Function

end Workflow.Script
