import Workflow.Run.Id
import Workflow.Run.Result
import Workflow.Run.Status
import Workflow.Time.Timestamp

/-!
The state of a run: its life, the results so far, the nodes that ran and those that wait. A node
waits at most once and never again after it ran. Nodes share a store, the global state; it starts
with the ids of the workflow and of the run.
-/
namespace Workflow.Run

open Json (Decoder)
open Json.Decoder (Field Shape require)
open Time (Timestamp)

/-- What a node sees of the run that it is part of. -/
structure Context where
  workflowId : String
  runId : Id
  globalState : Payload
  /-- The outputs of earlier nodes under their ids. -/
  nodeOutputs : List (String × Payload)

structure State where
  id : Id
  workflowId : String
  status : Status
  startTime : Option Timestamp
  endTime : Option Timestamp
  input : Payload
  output : Option Payload
  error : Option String
  results : List Result
  /-- The nodes in the order they ran. -/
  executed : List String
  /-- The nodes that wait, the next one first. -/
  pending : List String
  globalState : Payload

namespace State

def new (id : Id) (workflowId : String) (input : Payload) : State where
  id
  workflowId
  status := .pending
  startTime := none
  endTime := none
  input
  output := none
  error := none
  results := []
  executed := []
  pending := []
  globalState := Payload.ofList [("workflow_id", .string workflowId), ("execution_id", id.toJson)]

/-! ## Life -/

/-- Goes to another status if the life of a run has this step. -/
def transition (s : State) (target : Status) : Except InvalidTransition State :=
  if s.status ∈ target.sources then .ok { s with status := target }
  else .error ⟨s.status, target⟩

def start (s : State) (now : Timestamp) : Except InvalidTransition State := do
  let s ← s.transition .running
  return { s with
    startTime := some now
    globalState := Payload.insert s.globalState "start_time" (.string now.offsetText) }

def complete (s : State) (output : Payload) (now : Timestamp) :
    Except InvalidTransition State := do
  let s ← s.transition .completed
  return { s with output := some output, endTime := some now }

def fail (s : State) (message : String) (now : Timestamp) : Except InvalidTransition State := do
  let s ← s.transition .failed
  return { s with error := some message, endTime := some now }

def cancel (s : State) (now : Timestamp) : Except InvalidTransition State := do
  let s ← s.transition .cancelled
  return { s with endTime := some now }

/-! ## Nodes -/

def isExecuted (s : State) (node : String) : Bool := node ∈ s.executed

/-- Appends a result; its node has run and does not wait any more. -/
def record (s : State) (r : Result) : State :=
  { s with
    executed := if r.nodeId ∈ s.executed then s.executed else s.executed ++ [r.nodeId]
    pending := s.pending.filter (· ≠ r.nodeId)
    results := s.results ++ [r] }

/-- Lets a node wait unless it has run or waits already. -/
def enqueue (s : State) (node : String) : State :=
  if s.isExecuted node ∨ node ∈ s.pending then s
  else { s with pending := s.pending ++ [node] }

/-- Lets nodes wait, one after the other. -/
def addPending (s : State) (nodes : List String) : State := nodes.foldl enqueue s

def nextPending (s : State) : Option (String × State) :=
  match s.pending with
  | [] => none
  | node :: rest => some (node, { s with pending := rest })

def hasPending (s : State) : Bool := !s.pending.isEmpty

/-- The output of the first result of a node. -/
def nodeOutput (s : State) (node : String) : Option Payload :=
  (s.results.find? (·.nodeId = node)).bind Result.output

/-- The output of the last result, nothing if it failed; before any result, the input. -/
def latestOutput (s : State) : Payload :=
  match s.results.getLast? with
  | some r => r.output.getD []
  | none => s.input

/-- The first output of every node that has one, in increasing order of ids. -/
def outputs : List Result → List (String × Payload)
  | [] => []
  | r :: rest =>
    match r.output with
    | none => outputs rest
    | some output => put r.nodeId output (outputs rest)
where
  put (node : String) (output : Payload) : List (String × Payload) → List (String × Payload)
    | [] => [(node, output)]
    | (other, o) :: rest =>
      if other = node then (node, output) :: rest
      else if node < other then (node, output) :: (other, o) :: rest
      else (other, o) :: put node output rest

def context (s : State) : Context :=
  ⟨s.workflowId, s.id, s.globalState, outputs s.results⟩

/-- The seconds from start to end, to the millisecond. -/
def seconds (s : State) : Option Float := do
  let start ← s.startTime
  let finish ← s.endTime
  return Json.Number.roundInt (start.millisecondsUntil finish) / 1000.0

/-! ## JSON -/

structure Parts where
  id : Option Id := none
  workflowId : Option String := none
  status : Option Status := none
  startTime : Option Timestamp := none
  endTime : Option Timestamp := none
  input : Option Payload := none
  output : Option Payload := none
  error : Option String := none
  results : Option (List Result) := none
  executed : Option (List String) := none
  pending : Option (List String) := none
  globalState : Option Payload := none

def Parts.finish (p : Parts) : Except Json.DecodeError State := do
  let id ← require "execution_id" p.id
  let workflowId ← require "workflow_id" p.workflowId
  let status ← require "status" p.status
  let input ← require "input_data" p.input
  let results ← require "node_results" p.results
  let executed ← require "executed_nodes" p.executed
  let pending ← require "pending_nodes" p.pending
  let globalState ← require "global_state" p.globalState
  return ⟨id, workflowId, status, p.startTime, p.endTime, input, p.output, p.error, results,
    executed, pending, globalState⟩

def shape : Shape Parts State where
  name := "ExecutionState"
  fields :=
    [.of "execution_id" Id.decoder (fun p v => { p with id := some v }) false,
      .of "workflow_id" .string (fun p v => { p with workflowId := some v }) false,
      .of "status" Status.decoder (fun p v => { p with status := some v }) false,
      .of "start_time" (.optional Timestamp.decoder) (fun p v => { p with startTime := v }) false,
      .of "end_time" (.optional Timestamp.decoder) (fun p v => { p with endTime := v }) false,
      .of "input_data" .payload (fun p v => { p with input := some v }) false,
      .of "output_data" (.optional .payload) (fun p v => { p with output := v }) false,
      .of "error" (.optional .string) (fun p v => { p with error := v }) false,
      .of "node_results" (.list Result.decoder) (fun p v => { p with results := some v }) false,
      .of "executed_nodes" (.list .string) (fun p v => { p with executed := some v }) false,
      .of "pending_nodes" (.list .string) (fun p v => { p with pending := some v }) false,
      .of "global_state" .payload (fun p v => { p with globalState := some v }) false]
  empty := {}
  finish := Parts.finish

def decoder : Decoder State := shape.decode

def timeJson : Option Timestamp → Json
  | some t => t.toJson
  | none => .null

/-- The entries of a state, in the order in which they are written; the results are in JSON
already. -/
def entries (s : State) (results : List Json) : List (String × Json) :=
  [("execution_id", s.id.toJson), ("workflow_id", .string s.workflowId),
    ("status", s.status.toJson), ("start_time", timeJson s.startTime),
    ("end_time", timeJson s.endTime), ("input_data", .object s.input),
    ("output_data", .ofPayload? s.output), ("error", .ofText? s.error),
    ("node_results", .array results), ("executed_nodes", .ofTexts s.executed),
    ("pending_nodes", .ofTexts s.pending), ("global_state", .object s.globalState)]

def toJson (s : State) : Json := .object (Payload.ofList (s.entries (s.results.map Result.toJson)))

/-- The state for writing: its entries and those of its results are not sorted. -/
def document (s : State) : Json := .object (s.entries (s.results.map fun r => .object r.entries))

end State

end Workflow.Run
