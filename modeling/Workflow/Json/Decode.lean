import Workflow.Json.Reader
import Workflow.Json.Printer

/-!
Decoding: reading a value of a given type out of a draft. A structure may be given as an object,
in any order and with fields that are not its own, or as the sequence of its fields. Whatever is
wrong first, in the order of the text, is reported.
-/
namespace Workflow.Json

/-- What stands where something else was expected. -/
inductive Found where
  | null
  | bool (value : Bool)
  | integer (value : Int)
  | float (value : Float)
  | string (text : String)
  | sequence
  | map
  deriving Repr

/-- Text in quotes for messages: quotes, backslashes and control characters are escaped. -/
def quoteForMessage (s : String) : String :=
  let escape (c : Char) : List Char :=
    if c = '"' then ['\\', '"']
    else if c = '\\' then ['\\', '\\']
    else if c = '\n' then ['\\', 'n']
    else if c = '\r' then ['\\', 'r']
    else if c = '\t' then ['\\', 't']
    else if c.toNat = 0 then ['\\', '0']
    else if c.toNat < 32 || (0x7f ≤ c.toNat && c.toNat < 0xa0) then
      ['\\', 'u', '{'] ++ Nat.toDigits 16 c.toNat ++ ['}']
    else [c]
  String.ofList ('"' :: s.toList.flatMap escape ++ ['"'])

def Found.text : Found → String
  | null => "null"
  | bool true => "boolean `true`"
  | bool false => "boolean `false`"
  | integer i => s!"integer `{i}`"
  | float x => "floating point `" ++ Number.layout.double x ++ "`"
  | string s => "string " ++ quoteForMessage s
  | sequence => "sequence"
  | map => "map"

def Found.ofJson : Json → Found
  | .null => null
  | .bool b => bool b
  | .number (.integer i) => integer i
  | .number (.float x) => float x
  | .string s => string s
  | .array _ => sequence
  | .object _ => map

inductive DecodeError where
  | unreadable (error : ReadError)
  | invalidType (found : Found) (expected : String)
  | invalidValue (found : Found) (expected : String)
  | tooShort (length : Nat) (expected : String)
  /-- A sequence goes on behind the last field. -/
  | tooLong (length : Nat)
  | missing (field : String)
  | duplicate (field : String)
  | unknownVariant (name : String) (options : List String)
  /-- A text that is not of its form, with the reason. -/
  | malformed (reason : String)
  deriving Repr

def optionsText : List String → String
  | [] => "there are no variants"
  | [a] => s!"expected `{a}`"
  | [a, b] => s!"expected `{a}` or `{b}`"
  | options => "expected one of " ++ ", ".intercalate (options.map fun o => s!"`{o}`")

def DecodeError.message : DecodeError → String
  | unreadable e => e.fault.message
  | invalidType found expected => s!"invalid type: {found.text}, expected {expected}"
  | invalidValue found expected => s!"invalid value: {found.text}, expected {expected}"
  | tooShort length expected => s!"invalid length {length}, expected {expected}"
  | tooLong length => s!"invalid length {length}, expected fewer elements in array"
  | missing field => s!"missing field `{field}`"
  | duplicate field => s!"duplicate field `{field}`"
  | unknownVariant name options => s!"unknown variant `{name}`, {optionsText options}"
  | malformed reason => reason

/-- In a text, a sequence that goes on behind its last field has trailing characters. -/
def DecodeError.inText : DecodeError → String
  | tooLong _ => Fault.trailingCharacters.message
  | e => e.message

/-- Reads a value of one type. -/
abbrev Decoder (α : Type) := Draft → Except DecodeError α

namespace Decoder

def mismatch {α : Type} (expected : String) : Decoder α
  | .leaf value => .error (.invalidType (.ofJson value) expected)
  | .special x => .error (.invalidType (.float x) expected)
  | .tooLarge e => .error (.unreadable e)
  | .broken f => .error (.unreadable f.error)
  | .array _ _ => .error (.invalidType .sequence expected)
  | .object _ _ => .error (.invalidType .map expected)

def liftRead {α : Type} : Except ReadError α → Except DecodeError α
  | .ok a => .ok a
  | .error e => .error (.unreadable e)

def value : Decoder Json := fun d => liftRead d.toJson

def string : Decoder String
  | .leaf (.string s) => .ok s
  | d => mismatch "a string" d

/-- A natural number below a bound; the name of its type is used in messages. -/
def natBelow (bound : Nat) (typeName : String) : Decoder Nat
  | .leaf (.number (.integer i)) =>
    if 0 ≤ i ∧ i.toNat < bound then .ok i.toNat
    else .error (.invalidValue (.integer i) typeName)
  | d => mismatch typeName d

def word32 : Decoder Nat := natBelow (2 ^ 32) "u32"

def word64 : Decoder Nat := natBelow (2 ^ 64) "u64"

def size : Decoder Nat := natBelow (2 ^ 64) "usize"

def double : Decoder Float
  | .leaf (.number n) => .ok n.toFloat
  | .special x => .ok x
  | d => mismatch "f64" d

def single : Decoder Float32
  | .leaf (.number n) => .ok n.toFloat.toFloat32
  | .special x => .ok x.toFloat32
  | d => mismatch "f32" d

def payload : Decoder Payload
  | d@(.object _ _) => do
    match ← liftRead d.toJson with
    | .object fields => .ok fields
    | _ => .ok []
  | d => mismatch "a map" d

def optional {α : Type} (inner : Decoder α) : Decoder (Option α)
  | .leaf .null => .ok none
  | d => do return some (← inner d)

def list {α : Type} (inner : Decoder α) : Decoder (List α)
  | .array items ending => do
    let values ← items.mapM inner
    liftRead (Draft.check ending)
    return values
  | d => mismatch "a sequence" d

/-- The values of a map with values of one type, in increasing order of keys. -/
def mapOf {α : Type} (inner : Decoder α) : Decoder (List (String × α))
  | .object fields ending => do
    let entries ← fields.mapM fun (key, d) => do return (key, ← inner d)
    liftRead (Draft.check ending)
    return entries
  | d => mismatch "a map" d

/-- One of several names, as a string or as an object with this one key and null under it. -/
def choice {α : Type} (names : List (String × α)) : Decoder α
  | .leaf (.string s) => find s
  | .object [(key, d)] none => do
    let found ← find key
    match d with
    | .leaf .null => .ok found
    | d => mismatch "unit" d
  | .object _ _ => .error (.invalidValue .map "map with a single key")
  | d => mismatch "string or map" d
where
  find (name : String) : Except DecodeError α :=
    match names.find? (·.1 = name) with
    | some (_, a) => .ok a
    | none => .error (.unknownVariant name (names.map (·.1)))

/-! ## Structures -/

/-- How a field is read into a structure under construction. -/
structure Field (β : Type) where
  name : String
  /-- A sequence may end before this field. -/
  hasDefault : Bool
  read : Draft → β → Except DecodeError β

/-- How a structure is read: `β` is the structure under construction. -/
structure Shape (β α : Type) where
  name : String
  fields : List (Field β)
  empty : β
  finish : β → Except DecodeError α

/-- A field whose value is put in by `set`. -/
def Field.of {β γ : Type} (name : String) (decoder : Decoder γ) (set : β → γ → β)
    (hasDefault : Bool) : Field β :=
  ⟨name, hasDefault, fun d b => do return set b (← decoder d)⟩

namespace Shape

variable {β α : Type}

/-- Reads the entries of an object; `seen` holds the fields read so far. -/
def readEntries (s : Shape β α) : List (String × Draft) → List String → β →
    Except DecodeError β
  | [], _, b => .ok b
  | (key, d) :: rest, seen, b =>
    match s.fields.find? (·.name = key) with
    | none =>
      match d.firstError with
      | some e => .error (.unreadable e)
      | none => s.readEntries rest seen b
    | some field =>
      if key ∈ seen then .error (.duplicate key)
      else do
        let b ← field.read d b
        s.readEntries rest (key :: seen) b

def lengthText (s : Shape β α) : String :=
  s!"struct {s.name} with {s.fields.length} elements"

/-- Reads the items of a sequence into the fields in their order. -/
def readItems (s : Shape β α) (length : Nat) (ending : Option Flaw) :
    List (Field β) → List Draft → β → Except DecodeError β
  | [], [], b =>
    match ending with
    | none => .ok b
    | some ⟨⟨.expectedListComma, p⟩, _⟩ => .error (.unreadable ⟨.trailingCharacters, p⟩)
    | some f => .error (.unreadable f.error)
  | [], _ :: _, _ => .error (.tooLong length)
  | field :: fields, d :: items, b => do
    let b ← field.read d b
    s.readItems length ending fields items b
  | field :: fields, [], b =>
    match ending with
    | some f => .error (.unreadable f.error)
    | none =>
      if field.hasDefault then s.readItems length ending fields [] b
      else .error (.tooShort (s.fields.length - fields.length - 1) s.lengthText)

def decode (s : Shape β α) : Decoder α
  | .object fields ending => do
    let b ← s.readEntries fields [] s.empty
    liftRead (Draft.check ending)
    s.finish b
  | .array items ending => do
    let b ← s.readItems items.length ending s.fields items s.empty
    s.finish b
  | d => mismatch s!"struct {s.name}" d

end Shape

def require {α : Type} (name : String) : Option α → Except DecodeError α
  | some a => .ok a
  | none => .error (.missing name)

end Decoder

def decode {α : Type} (decoder : Decoder α) (value : Json) : Except DecodeError α :=
  decoder (Draft.ofJson value)

def Document.decode {α : Type} (d : Document) (decoder : Decoder α) : Except DecodeError α := do
  let value ← decoder d.root
  Decoder.liftRead (Draft.check (d.trailing.map .hard))
  return value

def decodeText {α : Type} (decoder : Decoder α) (text : String) : Except DecodeError α :=
  (readDraft text).decode decoder

def decodeBytes {α : Type} (decoder : Decoder α) (bytes : List UInt8) : Except DecodeError α :=
  (readBytes bytes).decode decoder

end Workflow.Json
