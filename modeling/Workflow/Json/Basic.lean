import Workflow.Json.Number

/-!
JSON values. An object lists its entries in strictly increasing order of keys, which is the order
of their UTF-8 bytes; `Payload.insert` keeps that order, so objects with the same entries are
the same list. Main statement: inserting a key puts exactly that entry under exactly that key.
-/
namespace Workflow

/-- A JSON value. -/
inductive Json where
  | null
  | bool (value : Bool)
  | number (value : Json.Number)
  | string (text : String)
  | array (items : List Json)
  | object (fields : List (String × Json))
  deriving Repr, Inhabited

/-- The entries of an object, in increasing order of keys. -/
abbrev Payload := List (String × Json)

namespace Payload

/-- The value under a key. -/
def find? : Payload → String → Option Json
  | [], _ => none
  | (k, v) :: rest, key => if k = key then some v else find? rest key

/-- Puts a value under a key, in place of the one that is there. -/
def insert : Payload → String → Json → Payload
  | [], key, value => [(key, value)]
  | (k, v) :: rest, key, value =>
    if k = key then (key, value) :: rest
    else if key < k then (key, value) :: (k, v) :: rest
    else (k, v) :: insert rest key value

/-- Puts entries in one after the other; of a repeated key the last one stays. -/
def insertAll (payload : Payload) (entries : List (String × Json)) : Payload :=
  entries.foldl (fun p e => insert p e.1 e.2) payload

/-- The object with the given entries; of a repeated key the last one stays. -/
def ofList (entries : List (String × Json)) : Payload := insertAll [] entries

/-- Drops the entry under a key. -/
def erase (payload : Payload) (key : String) : Payload := payload.filter (·.1 ≠ key)

/-- Keys in strictly increasing order. -/
def Sorted (payload : Payload) : Prop := payload.Pairwise (·.1 < ·.1)

@[simp]
theorem find?_insert_self (p : Payload) (key : String) (value : Json) :
    find? (insert p key value) key = some value := by
  induction p with
  | nil => simp [insert, find?]
  | cons e rest ih =>
    obtain ⟨k, v⟩ := e
    by_cases h : k = key
    · simp [insert, find?, h]
    · by_cases hlt : key < k <;> simp [insert, find?, h, hlt, ih]

@[simp]
theorem find?_insert_of_ne (p : Payload) {key other : String} (value : Json)
    (h : other ≠ key) : find? (insert p key value) other = find? p other := by
  induction p with
  | nil => simp [insert, find?, Ne.symm h]
  | cons e rest ih =>
    obtain ⟨k, v⟩ := e
    by_cases hk : k = key
    · subst hk
      simp [insert, find?, Ne.symm h]
    · by_cases hlt : key < k
      · simp [insert, find?, hk, hlt, Ne.symm h]
      · simp [insert, find?, hk, hlt, ih]

end Payload

namespace Json

/-- The kinds of JSON values. -/
inductive Kind where
  | null | bool | number | string | array | object
  deriving Repr, DecidableEq

def Kind.name : Kind → String
  | null => "null"
  | bool => "bool"
  | number => "number"
  | string => "string"
  | array => "array"
  | object => "object"

def kind : Json → Kind
  | .null => .null
  | .bool _ => .bool
  | .number _ => .number
  | .string _ => .string
  | .array _ => .array
  | .object _ => .object

def ofInt (i : Int) : Json := .number (.integer i)

def ofFloat (x : Float) : Json := if x.isFinite then .number (.float x) else .null

def ofTexts (texts : List String) : Json := .array (texts.map .string)

/-- A text or null. -/
def ofText? : Option String → Json
  | some s => .string s
  | none => .null

/-- An object or null. -/
def ofPayload? : Option Payload → Json
  | some p => .object p
  | none => .null

/-- The entry of an optional value. -/
def optionalEntry (key : String) : Option Json → List (String × Json)
  | some v => [(key, v)]
  | none => []

/-- The value under a key of an object. -/
def field? : Json → String → Option Json
  | .object fields, key => Payload.find? fields key
  | _, _ => none

def text? : Json → Option String
  | .string s => some s
  | _ => none

def payload? : Json → Option Payload
  | .object fields => some fields
  | _ => none

mutual

/-- Structural equality; integers and floats are never equal. -/
protected def beq : Json → Json → Bool
  | .null, .null => true
  | .bool a, .bool b => a == b
  | .number a, .number b => a == b
  | .string a, .string b => a == b
  | .array as, .array bs => Json.beqItems as bs
  | .object as, .object bs => Json.beqFields as bs
  | _, _ => false

protected def beqItems : List Json → List Json → Bool
  | [], [] => true
  | a :: as, b :: bs => Json.beq a b && Json.beqItems as bs
  | _, _ => false

protected def beqFields : List (String × Json) → List (String × Json) → Bool
  | [], [] => true
  | (k, a) :: as, (l, b) :: bs => k == l && Json.beq a b && Json.beqFields as bs
  | _, _ => false

end

instance : BEq Json := ⟨Json.beq⟩

end Json

end Workflow
