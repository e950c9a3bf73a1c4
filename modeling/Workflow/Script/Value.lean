import Workflow.Decimal.Layout
import Workflow.Json.Printer
import Workflow.Json.Decode

/-!
Values of the scripting language, their texts, and the two ways between them and JSON. Integers
have 64 bits; an integer of JSON that does not fit becomes a float. A value that holds a range has
no JSON form.
-/
namespace Workflow.Script

/-- A value of a script. The entries of a map are in increasing order of keys. -/
inductive Value where
  | unit
  | bool (value : Bool)
  | int (value : Int)
  | float (value : Float)
  | char (value : Char)
  | string (text : String)
  | array (items : List Value)
  | map (fields : List (String × Value))
  /-- The integers from `first` on, up to `last` or up to below it. -/
  | range (first last : Int) (inclusive : Bool)
  /-- The integers from `first` on in steps, up to below `last`. -/
  | steps (first last step : Int)
  /-- The floats from `first` on in steps, up to below `last`. -/
  | floatSteps (first last step : Float)
  deriving Repr, Inhabited

namespace Value

def typeName : Value → String
  | unit => "()"
  | bool _ => "bool"
  | int _ => "i64"
  | float _ => "f64"
  | char _ => "char"
  | string _ => "string"
  | array _ => "array"
  | map _ => "map"
  | range _ _ false => "range"
  | range _ _ true => "range="
  | steps _ _ _ | floatSteps _ _ _ => "range"

def fullTypeName : Value → String
  | range _ _ false => "core::ops::range::Range<i64>"
  | range _ _ true => "core::ops::range::RangeInclusive<i64>"
  | v => v.typeName

/-- The name of the type of an argument in the signature of a call. -/
def signatureName : Value → String
  | string _ => "&str | ImmutableString | String"
  | v => v.typeName

/-! ## Text -/

/-- A float that stands for itself has a fraction digit and no exponent from `1e-7` up to `1e13`. -/
def floatLayout : Decimal.Layout where
  positional d := -7 ≤ d.leading && (d.leading < 13 || (d.leading = 13 && d.coefficient = 1))
  wholePoint := true
  exponentSign := ""
  zero := "0.0"
  negativeZero := "0.0"
  infinity := "inf"
  notANumber := "NaN"

/-- A float inside an array or a map has no exponent from `1e-4` up to below `1e16`. -/
def innerFloatLayout : Decimal.Layout where
  positional d := -4 ≤ d.leading && d.leading < 16
  wholePoint := true
  exponentSign := ""
  zero := "0.0"
  negativeZero := "-0.0"
  infinity := "inf"
  notANumber := "NaN"

def quoteChar (c : Char) : String :=
  if c = '\x27' then "'\\''"
  else if c = '"' then "'\"'"
  else "'" ++ (((Json.quoteForMessage c.toString).drop 1).dropEnd 1).toString ++ "'"

mutual

/-- The text of a value inside an array or a map. -/
def innerText : Value → String
  | unit => "()"
  | bool b => if b then "true" else "false"
  | int i => toString i
  | float x => innerFloatLayout.double x
  | char c => quoteChar c
  | string s => Json.quoteForMessage s
  | array items => "[" ++ ", ".intercalate (innerTexts items) ++ "]"
  | map fields => "#\x7b" ++ ", ".intercalate (fieldTexts fields) ++ "\x7d"
  | range first last inclusive => s!"{first}.." ++ (if inclusive then "=" else "") ++ s!"{last}"
  | steps first last step => s!"range({first}, {last}, {step})"
  | floatSteps first last step =>
    "range(" ++ ", ".intercalate ([first, last, step].map innerFloatLayout.double) ++ ")"

def innerTexts : List Value → List String
  | [] => []
  | v :: rest => innerText v :: innerTexts rest

def fieldTexts : List (String × Value) → List String
  | [] => []
  | (key, v) :: rest => (Json.quoteForMessage key ++ ": " ++ innerText v) :: fieldTexts rest

end

/-- The text of a value on its own: strings and characters stand for themselves and the unit
value for nothing. -/
def text : Value → String
  | unit => ""
  | float x => floatLayout.double x
  | char c => c.toString
  | string s => s
  | v => v.innerText

/-! ## Maps -/

def find? : List (String × Value) → String → Option Value
  | [], _ => none
  | (k, v) :: rest, key => if k = key then some v else find? rest key

def insert : List (String × Value) → String → Value → List (String × Value)
  | [], key, value => [(key, value)]
  | (k, v) :: rest, key, value =>
    if k = key then (key, value) :: rest
    else if key < k then (key, value) :: (k, v) :: rest
    else (k, v) :: insert rest key value

def erase (fields : List (String × Value)) (key : String) : List (String × Value) :=
  fields.filter (·.1 ≠ key)

/-! ## JSON -/

def smallestInt : Int := -(2 ^ 63)

def largestInt : Int := 2 ^ 63 - 1

mutual

def ofJson : Json → Value
  | .null => unit
  | .bool b => bool b
  | .number (.integer i) => if i ≤ largestInt then int i else float (Json.Number.roundInt i)
  | .number (.float x) => float x
  | .string s => string s
  | .array items => array (ofItems items)
  | .object fields => map (ofFields fields)

def ofItems : List Json → List Value
  | [] => []
  | item :: rest => ofJson item :: ofItems rest

def ofFields : List (String × Json) → List (String × Value)
  | [] => []
  | (key, value) :: rest => (key, ofJson value) :: ofFields rest

end

mutual

/-- The JSON value of a value; the error is the type that has none. -/
def toJson : Value → Except String Json
  | unit => .ok .null
  | bool b => .ok (.bool b)
  | int i => .ok (.ofInt i)
  | float x => .ok (.ofFloat x)
  | char c => .ok (.string c.toString)
  | string s => .ok (.string s)
  | array items => do return .array (← toItems items)
  | map fields => do return .object (← toFields fields)
  | range first last inclusive => .error (range first last inclusive).fullTypeName
  | steps first last step => .error (steps first last step).fullTypeName
  | floatSteps first last step => .error (floatSteps first last step).fullTypeName

def toItems : List Value → Except String (List Json)
  | [] => .ok []
  | v :: rest => do
    let item ← toJson v
    let items ← toItems rest
    return item :: items

def toFields : List (String × Value) → Except String (List (String × Json))
  | [] => .ok []
  | (key, v) :: rest => do
    let value ← toJson v
    let fields ← toFields rest
    return (key, value) :: fields

end

/-! ## Size -/

/-- How much a value holds, nested values included. -/
structure Size where
  items : Nat
  entries : Nat
  bytes : Nat

def Size.add (a b : Size) : Size :=
  ⟨a.items + b.items, a.entries + b.entries, a.bytes + b.bytes⟩

instance : Add Size := ⟨Size.add⟩

mutual

def size : Value → Size
  | string s => ⟨0, 0, s.utf8ByteSize⟩
  | array items => itemsSize items
  | map fields => fieldsSize fields
  | _ => ⟨0, 0, 0⟩

def itemsSize : List Value → Size
  | [] => ⟨0, 0, 0⟩
  | v :: rest => ⟨1, 0, 0⟩ + size v + itemsSize rest

def fieldsSize : List (String × Value) → Size
  | [] => ⟨0, 0, 0⟩
  | (_, v) :: rest => ⟨0, 1, 0⟩ + size v + fieldsSize rest

end

end Value

end Workflow.Script
