import Workflow.Condition.Operator
import Workflow.Graph.Validation
import Workflow.Node.Init
import Workflow.Template.Render

/-!
Nodes that compare an entry of their input with a value and choose one of two branches. A
comparison that has no meaning counts as false.
-/
namespace Workflow.Node.Condition

open Json.Decoder (Field Shape require)
open Run (Context)
open Time (Timed)
open Workflow.Condition (Operator)

structure Config where
  field : String
  operator : Operator
  value : Json
  trueBranch : Option String
  falseBranch : Option String

/-- A configuration as far as it has been read. -/
structure Parts where
  field : Option String := none
  operator : Option Operator := none
  value : Json := .null
  trueBranch : Option String := none
  falseBranch : Option String := none

def Parts.finish (p : Parts) : Except Json.DecodeError Config := do
  let field ← require "field" p.field
  let operator ← require "operator" p.operator
  return ⟨field, operator, p.value, p.trueBranch, p.falseBranch⟩

def shape : Shape Parts Config where
  name := "ConditionConfig"
  fields :=
    [.of "field" .string (fun p v => { p with field := some v }) false,
      .of "operator" Operator.decoder (fun p v => { p with operator := some v }) false,
      .of "value" .value (fun p v => { p with value := v }) true,
      .of "true_branch" (.optional .string) (fun p v => { p with trueBranch := v }) true,
      .of "false_branch" (.optional .string) (fun p v => { p with falseBranch := v }) true]
  empty := {}
  finish := Parts.finish

namespace Config

/-- The entry of the input that is compared; null if there is none. -/
def fieldValue (c : Config) (input : Payload) : Json :=
  (Template.lookup input c.field).getD .null

def holds (c : Config) (input : Payload) : Bool :=
  match c.operator.evaluate (c.fieldValue input) c.value with
  | .ok b => b
  | .error _ => false

/-- The branch that is taken, if it leads anywhere. -/
def branch (c : Config) (input : Payload) : Option String :=
  if c.holds input then c.trueBranch else c.falseBranch

/-- The input with a note on the comparison. -/
def output (c : Config) (input : Payload) : Payload :=
  Payload.insert input "_condition_result" (.object (Payload.ofList
    [("field", .string c.field), ("field_value", c.fieldValue input),
      ("operator", .string c.operator.text), ("compare_value", c.value),
      ("result", .bool (c.holds input)), ("next_branch", .ofText? (c.branch input))]))

end Config

def execute {σ : Type} (c : Config) (input : Payload) (context : Context) (world : σ) :
    Timed Attempt × σ :=
  (.now (.leaving context (.ok ⟨c.output input, some (c.branch input).toList⟩)), world)

def construct {σ : Type} (i : Init) : Except Error (Behavior σ) := do
  let c ← i.read shape.decode
  if (Text.trimChars c.field.toList).isEmpty then
    i.invalid "'field' and 'operator' are required for Condition node"
  else
    return ⟨NodeDefinition.conditionType, none, false, execute c⟩

end Workflow.Node.Condition
