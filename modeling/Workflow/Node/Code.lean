import Workflow.Node.Init
import Workflow.Script.Run

/-!
Nodes that run a script. A script that fails, or runs out of time, does not fail its node: the
input goes on with marks on what happened, and the shared store stays as it was.
-/
namespace Workflow.Node.Code

open Json.Decoder (Field Shape require)
open Run (Context)
open Time (Duration Timed)

structure Config where
  code : String
  timeout : Float

def shape : Shape (Option String × Float) Config where
  name := "CodeConfig"
  fields :=
    [.of "code" .string (fun p v => (some v, p.2)) false,
      .of "timeout" .double (fun p v => (p.1, v)) true]
  empty := (none, 30.0)
  finish p := do return ⟨← require "code" p.1, p.2⟩

/-- The time by which the limit of an attempt exceeds that of the script. -/
def slack : Duration := .ofWholeSeconds 1

def scriptContext (c : Context) : Payload :=
  Payload.ofList
    [("workflow_id", .string c.workflowId), ("execution_id", c.runId.toJson),
      ("global_state", .object c.globalState),
      ("node_outputs", .object (c.nodeOutputs.map fun (id, o) => (id, .object o)))]

/-- The input with marks on a failure. -/
def marked (input : Payload) (message kind : String) : Payload :=
  Payload.insert (Payload.insert input "_script_error" (.string message))
    "_script_error_kind" (.string kind)

abbrev Evaluation := Payload → Payload → Except Script.Failure Script.Outcome

/-- How an attempt ends when the evaluation has ended. -/
def attempt (input : Payload) (context : Context) :
    Except Script.Failure Script.Outcome → Attempt
  | .ok o =>
    let store := match Payload.find? o.context "global_state" with
      | some (.object fields) => fields
      | _ => context.globalState
    ⟨.ok ⟨o.output.getD input, none⟩, store⟩
  | .error (.timeout limit) =>
    let message := s!"Code execution timed out after {limit.text} seconds"
    .leaving context (.ok ⟨marked input message "timeout", none⟩)
  | .error .cancelled => .leaving context (.error (.execution Script.Failure.cancelled.message))
  | .error e => .leaving context (.ok ⟨marked input e.message "exception", none⟩)

def execute {σ : Type} (workers : Script.Workers σ) (evaluation : Script.Worker → Evaluation)
    (input : Payload) (context : Context) (world : σ) : Timed Attempt × σ :=
  let (worker, world) := workers world
  (.now (attempt input context (evaluation worker input (scriptContext context))), world)

/-- The limit of an attempt of a script under a time limit, if there is a duration that long. Where
there is none, whoever asks a node for the limit of its attempts breaks off. -/
def attemptTimeout? (limit : Duration) : Option Duration := limit.add? slack

/-- The behaviour of a node with a script under a time limit. It says nothing of a node whose
attempts have no limit; the longest duration stands in for one. -/
def behavior {σ : Type} (workers : Script.Workers σ) (limit : Duration)
    (evaluation : Script.Worker → Evaluation) : Behavior σ :=
  ⟨"code", some ((attemptTimeout? limit).getD .longest), true, execute workers evaluation⟩

/-- Makes a node; `now` is the time in milliseconds that scripts are told. -/
def construct {σ : Type} (workers : Script.Workers σ) (limits : Script.Limits) (now : Int)
    (i : Init) : Except Error (Behavior σ) := do
  let c ← i.read shape.decode
  if (Text.trimChars c.code.toList).isEmpty then i.invalid "'code' is required for Code node"
  if !(c.timeout.isFinite && 0.0 < c.timeout) then
    i.invalid "'timeout' must be a positive number of seconds"
  let limit := Duration.ofSeconds c.timeout
  match Script.Program.parse limits c.code with
  | .error e => i.invalid (Script.Failure.compile e).message
  | .ok program => return behavior workers limit (program.execute limits now limit)

end Workflow.Node.Code
