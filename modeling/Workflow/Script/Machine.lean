import Workflow.Script.Limits
import Workflow.Script.Program

/-!
The state of a running script: the variables in scope and the operations that were counted. Every
expression, statement, access along a chain and call of a function counts as one operation. A run
also has a budget of work after which its time is up, so every run ends.
-/
namespace Workflow.Script

structure Entry where
  name : String
  value : Value
  isConstant : Bool

/-- What changes during a run: the variables, latest first, the operations so far, and the work
that was done. -/
structure Machine where
  scope : List Entry
  operations : Nat
  work : Nat

/-- What is fixed during a run; `now` is the time in milliseconds. -/
structure Setting where
  functions : List Function
  limits : Limits
  now : Int
  budget : Nat

inductive Signal where
  | failed (error : Error)
  | returned (value : Value)
  | left (value : Value)
  | again
  | timeUp

abbrev Eval (α : Type) := ExceptT Signal (StateM Machine) α

namespace Eval

def fail {α : Type} (f : Fault) (p : Position) : Eval α := throw (.failed (.at f (some p)))

def lift {α : Type} : Except Error α → Eval α
  | .ok a => pure a
  | .error e => throw (.failed e)

/-- Does some work; the run ends when its budget is spent. -/
def spend (s : Setting) (n : Nat) : Eval Unit := do
  let m ← get
  if s.budget ≤ m.work then throw .timeUp
  set { m with work := m.work + n }

def count (s : Setting) (p : Position) : Eval Unit := do
  let m ← get
  set { m with operations := m.operations + 1 }
  if exceeds (m.operations + 1) s.limits.operations then fail .tooManyOperations p
  spend s 1

/-- Goes on with a value that does not hold too much. -/
def sized (s : Setting) (p : Position) (v : Value) : Eval Value := do
  let size := v.size
  spend s ((size.items + size.entries) / 16)
  match s.limits.check size with
  | .ok () => return v
  | .error f => fail f p

def declare (name : String) (value : Value) (isConstant : Bool) : Eval Unit :=
  modify fun m => { m with scope := ⟨name, value, isConstant⟩ :: m.scope }

def find (name : String) (p : Position) : Eval Entry := do
  match (← get).scope.find? (·.name = name) with
  | some e => return e
  | none => fail (.variableNotFound name) p

/-- The scope with another value for the latest variable of a name. -/
def replaced (name : String) (value : Value) : List Entry → List Entry
  | [] => []
  | e :: rest =>
    if e.name = name then { e with value } :: rest else e :: replaced name value rest

def assign (name : String) (value : Value) : Eval Unit :=
  modify fun m => { m with scope := replaced name value m.scope }

/-- Drops the variables that were declared since there were `n` of them. -/
def dropTo (n : Nat) : Eval Unit :=
  modify fun m => { m with scope := m.scope.drop (m.scope.length - n) }

/-- Runs something and drops the variables that it declares, however it ends. -/
def inScope {α : Type} (inner : Eval α) : Eval α := do
  let n := (← get).scope.length
  try
    let a ← inner
    dropTo n
    return a
  catch e =>
    dropTo n
    throw e

/-- Runs something in a scope of its own. -/
def isolated {α : Type} (scope : List Entry) (inner : Eval α) : Eval α := do
  let outer := (← get).scope
  modify fun m => { m with scope }
  try
    let a ← inner
    modify fun m => { m with scope := outer }
    return a
  catch e =>
    modify fun m => { m with scope := outer }
    throw e

end Eval

/-- Items that a loop goes through one by one. -/
inductive Source where
  | items (values : List Value)
  /-- Integers from `first` on, up to below `last` or, when the step is negative, down to above
  it. -/
  | count (first last step : Int)
  /-- Floats in the same way. -/
  | measure (first last step : Float)

namespace Source

def ofValue : Value → Option Source
  | .array values => some (.items values)
  | .string s => some (.items (s.toList.map .char))
  | .range first last inclusive => some (.count first (if inclusive then last + 1 else last) 1)
  | .steps first last step => some (.count first last step)
  | .floatSteps first last step => some (.measure first last step)
  | _ => none

def next? : Source → Option (Value × Source)
  | items [] => none
  | items (v :: rest) => some (v, items rest)
  | count first last step =>
    if (0 < step && first < last) || (step < 0 && last < first) then
      some (.int first, count (first + step) last step)
    else none
  | measure first last step =>
    if (0 < step && first < last) || (step < 0 && last < first) then
      some (.float first, measure (first + step) last step)
    else none

end Source

end Workflow.Script
