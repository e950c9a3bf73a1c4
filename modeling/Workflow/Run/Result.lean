import Workflow.Definition

/-!
What is recorded of a node that ran: how its attempts ended, what it put out and where the run
goes from there.
-/
namespace Workflow

open Json (Decoder)
open Json.Decoder (Field Shape require)

namespace Run

/-- How the attempts of a node ended. -/
inductive NodeStatus where
  | success | error
  deriving Repr, DecidableEq, Inhabited

namespace NodeStatus

def name : NodeStatus → String
  | success => "success"
  | error => "error"

def decoder : Decoder NodeStatus :=
  Json.Decoder.choice [(success.name, success), (error.name, error)]

end NodeStatus

/-- The record of a node that ran. -/
structure Result where
  nodeId : String
  nodeName : String
  status : NodeStatus
  output : Option Payload
  error : Option String
  /-- Seconds over all attempts and the pauses between them. -/
  seconds : Float
  nextNodes : List String
  attempts : Nat

namespace Result

def isSuccess (r : Result) : Bool := r.status = .success

/-- A record as far as it has been read. -/
structure Parts where
  nodeId : Option String := none
  nodeName : Option String := none
  status : Option NodeStatus := none
  output : Option Payload := none
  error : Option String := none
  seconds : Option Float := none
  nextNodes : Option (List String) := none
  attempts : Option Nat := none

def Parts.finish (p : Parts) : Except Json.DecodeError Result := do
  let nodeId ← require "node_id" p.nodeId
  let nodeName ← require "node_name" p.nodeName
  let status ← require "status" p.status
  let seconds ← require "execution_time" p.seconds
  let nextNodes ← require "next_nodes" p.nextNodes
  let attempts ← require "attempts" p.attempts
  return ⟨nodeId, nodeName, status, p.output, p.error, seconds, nextNodes, attempts⟩

def shape : Shape Parts Result where
  name := "NodeResult"
  fields :=
    [.of "node_id" .string (fun p v => { p with nodeId := some v }) false,
      .of "node_name" .string (fun p v => { p with nodeName := some v }) false,
      .of "status" NodeStatus.decoder (fun p v => { p with status := some v }) false,
      .of "output" (.optional .payload) (fun p v => { p with output := v }) false,
      .of "error" (.optional .string) (fun p v => { p with error := v }) false,
      .of "execution_time" .double (fun p v => { p with seconds := some v }) false,
      .of "next_nodes" (.list .string) (fun p v => { p with nextNodes := some v }) false,
      .of "attempts" .word32 (fun p v => { p with attempts := some v }) false]
  empty := {}
  finish := Parts.finish

def decoder : Decoder Result := shape.decode

/-- The entries of a record, in the order in which they are written. -/
def entries (r : Result) : List (String × Json) :=
  [("node_id", .string r.nodeId), ("node_name", .string r.nodeName),
    ("status", .string r.status.name), ("output", .ofPayload? r.output),
    ("error", .ofText? r.error), ("execution_time", .ofFloat r.seconds),
    ("next_nodes", .ofTexts r.nextNodes), ("attempts", .ofInt r.attempts)]

def toJson (r : Result) : Json := .object (Payload.ofList r.entries)

end Result

end Run

end Workflow
