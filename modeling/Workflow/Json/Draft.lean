import Workflow.Json.Basic

/-!
Documents as far as they could be read. A draft keeps the entries of objects in the order of the
text, repeated keys included, and marks the place where reading stopped, so that a later stage can
report whichever error comes first in the text: one of its own or one of the text. What is only
passed over is looked at less closely than what is read, and a draft says what is wrong for either.
-/
namespace Workflow.Json

inductive Fault where
  | endInList | endInObject | endInString | endInValue
  | expectedColon | expectedListComma | expectedObjectComma | expectedWord | expectedValue
  | badEscape | badNumber | outOfRange | controlCharacter | keyNotString
  | loneSurrogate | endInEscape | notUnicode | trailingComma | trailingCharacters | tooDeep
  deriving Repr, DecidableEq

def Fault.message : Fault → String
  | endInList => "EOF while parsing a list"
  | endInObject => "EOF while parsing an object"
  | endInString => "EOF while parsing a string"
  | endInValue => "EOF while parsing a value"
  | expectedColon => "expected `:`"
  | expectedListComma => "expected `,` or `]`"
  | expectedObjectComma => "expected `,` or `\x7d`"
  | expectedWord => "expected ident"
  | expectedValue => "expected value"
  | badEscape => "invalid escape"
  | badNumber => "invalid number"
  | outOfRange => "number out of range"
  | controlCharacter => "control character (\\u0000-\\u001F) found while parsing a string"
  | keyNotString => "key must be a string"
  | loneSurrogate => "lone leading surrogate in hex escape"
  | endInEscape => "unexpected end of hex escape"
  | notUnicode => "invalid unicode code point"
  | trailingComma => "trailing comma"
  | trailingCharacters => "trailing characters"
  | tooDeep => "recursion limit exceeded"

/-- A place in a text: the line, and the bytes before the place on that line. -/
structure Position where
  line : Nat
  column : Nat
  deriving Repr, DecidableEq

namespace Position

def start : Position := ⟨1, 0⟩

def after (p : Position) (c : Char) : Position :=
  if c = '\n' then ⟨p.line + 1, 0⟩ else ⟨p.line, p.column + c.utf8Size⟩

/-- The place behind the first byte of a character. -/
def into (p : Position) (c : Char) : Position :=
  if c = '\n' then ⟨p.line + 1, 0⟩ else ⟨p.line, p.column + 1⟩

end Position

structure ReadError where
  fault : Fault
  position : Position
  deriving Repr, DecidableEq

def ReadError.message (e : ReadError) : String :=
  s!"{e.fault.message} at line {e.position.line} column {e.position.column}"

/-- What is wrong at a place: for whoever reads the values, and for whoever only passes over them
and may find nothing wrong there. -/
structure Flaw where
  error : ReadError
  skipped : Option ReadError
  deriving Repr, DecidableEq

def Flaw.hard (e : ReadError) : Flaw := ⟨e, some e⟩

def Flaw.soft (e : ReadError) : Flaw := ⟨e, none⟩

/-- A value as far as it could be read. -/
inductive Draft where
  | leaf (value : Json)
  /-- A number that is not finite, which JSON has no text for. As a value it is null. -/
  | special (number : Float)
  /-- A number that is too large for a double. -/
  | tooLarge (error : ReadError)
  /-- No value could be read here. -/
  | broken (flaw : Flaw)
  /-- `ending` is present when whoever reads the values does not reach the closing bracket. -/
  | array (items : List Draft) (ending : Option Flaw)
  | object (fields : List (String × Draft)) (ending : Option Flaw)
  deriving Repr, Inhabited

/-- A whole text: its value, and what is wrong with the text behind the value. -/
structure Document where
  root : Draft
  trailing : Option ReadError
  deriving Repr

namespace Draft

mutual

def ofJson : Json → Draft
  | .array items => .array (ofItems items) none
  | .object fields => .object (ofFields fields) none
  | .null => .leaf .null
  | .bool b => .leaf (.bool b)
  | .number n => .leaf (.number n)
  | .string s => .leaf (.string s)

def ofItems : List Json → List Draft
  | [] => []
  | item :: rest => ofJson item :: ofItems rest

def ofFields : List (String × Json) → List (String × Draft)
  | [] => []
  | (key, value) :: rest => (key, ofJson value) :: ofFields rest

end

/-- Fails with a flaw that is there. -/
def check : Option Flaw → Except ReadError Unit
  | none => .ok ()
  | some f => .error f.error

mutual

/-- The value of a draft, or the first thing in the text that keeps it from having one. -/
def toJson : Draft → Except ReadError Json
  | .leaf value => .ok value
  | .special _ => .ok .null
  | .tooLarge e => .error e
  | .broken f => .error f.error
  | .array items ending => do
    let values ← toItems items
    check ending
    return .array values
  | .object fields ending => do
    let entries ← toFields fields
    check ending
    return .object (Payload.ofList entries)

def toItems : List Draft → Except ReadError (List Json)
  | [] => .ok []
  | item :: rest => do
    let value ← toJson item
    let values ← toItems rest
    return value :: values

def toFields : List (String × Draft) → Except ReadError (List (String × Json))
  | [] => .ok []
  | (key, draft) :: rest => do
    let value ← toJson draft
    let entries ← toFields rest
    return (key, value) :: entries

end

mutual

/-- The first place that is wrong for whoever passes over the value; numbers that are too large are
not. -/
def firstError : Draft → Option ReadError
  | .leaf _ => none
  | .special _ => none
  | .tooLarge _ => none
  | .broken f => f.skipped
  | .array items ending => (firstItemError items).or (ending.bind Flaw.skipped)
  | .object fields ending => (firstFieldError fields).or (ending.bind Flaw.skipped)

def firstItemError : List Draft → Option ReadError
  | [] => none
  | item :: rest => (firstError item).or (firstItemError rest)

def firstFieldError : List (String × Draft) → Option ReadError
  | [] => none
  | (_, draft) :: rest => (firstError draft).or (firstFieldError rest)

end

end Draft

def Document.toJson (d : Document) : Except ReadError Json := do
  let value ← d.root.toJson
  Draft.check (d.trailing.map .hard)
  return value

end Workflow.Json
