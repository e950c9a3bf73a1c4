import Workflow.Json.Basic
import Workflow.Json.Decode
import Workflow.Text.Find

/-!
Comparison operators of conditions. Numbers are compared as doubles, integers and floats alike;
texts and truth values have their own order; values of different kinds have none.
-/
namespace Workflow.Condition

/-- The operators of a condition. -/
inductive Operator where
  | eq | ne | gt | lt | ge | le | contains | isIn
  deriving Repr, DecidableEq

namespace Operator

def all : List Operator := [eq, ne, gt, lt, ge, le, contains, isIn]

def text : Operator → String
  | eq => "=="
  | ne => "!="
  | gt => ">"
  | lt => "<"
  | ge => ">="
  | le => "<="
  | contains => "contains"
  | isIn => "in"

def decoder : Json.Decoder Operator := Json.Decoder.choice (all.map fun o => (o.text, o))

end Operator

/-- Why two values cannot be compared. -/
inductive Incomparable where
  | kinds (left right : Json.Kind)
  | numbers (left right : Json.Number)
  | containment (container item : Json.Kind)
  deriving Repr

def Incomparable.message : Incomparable → String
  | kinds l r => s!"cannot order {l.name} and {r.name}"
  | numbers l r => s!"cannot order {l.text} and {r.text}"
  | containment c i => s!"{c.name} cannot contain {i.name}"

/-- Two numbers are equal when their doubles are; other values when they are the same value. -/
def looselyEqual : Json → Json → Bool
  | .number x, .number y => x.toFloat == y.toFloat
  | a, b => a == b

/-- The order of two doubles, if they have one. -/
def orderFloats (x y : Float) : Option Ordering :=
  if x < y then some .lt
  else if x == y then some .eq
  else if y < x then some .gt
  else none

def orderTexts (s t : String) : Ordering :=
  if s < t then .lt else if s = t then .eq else .gt

def orderBools : Bool → Bool → Ordering
  | false, true => .lt
  | true, false => .gt
  | _, _ => .eq

/-- The order of two values of one ordered kind. -/
def order : Json → Json → Except Incomparable Ordering
  | .number x, .number y =>
    match orderFloats x.toFloat y.toFloat with
    | some o => .ok o
    | none => .error (.numbers x y)
  | .string s, .string t => .ok (orderTexts s t)
  | .bool a, .bool b => .ok (orderBools a b)
  | a, b => .error (.kinds a.kind b.kind)

/-- Whether a text, an array or an object holds an item. -/
def contains : Json → Json → Except Incomparable Bool
  | .string haystack, .string needle => .ok (Text.occursIn needle.toList haystack.toList)
  | .array items, item => .ok (items.any (looselyEqual · item))
  | .object fields, .string key => .ok (Payload.find? fields key).isSome
  | container, item => .error (.containment container.kind item.kind)

/-- Applies an operator to a value and the value that it is compared with. -/
def Operator.evaluate (operator : Operator) (left right : Json) : Except Incomparable Bool :=
  match operator with
  | eq => .ok (looselyEqual left right)
  | ne => .ok !(looselyEqual left right)
  | gt => (order left right).map (· == .gt)
  | lt => (order left right).map (· == .lt)
  | ge => (order left right).map (· != .lt)
  | le => (order left right).map (· != .gt)
  | contains => Condition.contains left right
  | isIn => Condition.contains right left

end Workflow.Condition
