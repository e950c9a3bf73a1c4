import Workflow.Json.Decode

/-!
The states of life of a run, and the steps between them. A run that has ended stays as it is.
-/
namespace Workflow.Run

/-- Where a run is in its life. -/
inductive Status where
  | pending | running | completed | failed | cancelled
  deriving Repr, DecidableEq, Inhabited

namespace Status

def all : List Status := [pending, running, completed, failed, cancelled]

def name : Status → String
  | pending => "pending"
  | running => "running"
  | completed => "completed"
  | failed => "failed"
  | cancelled => "cancelled"

/-- Whether the run has ended. -/
def isTerminal : Status → Bool
  | pending | running => false
  | completed | failed | cancelled => true

/-- The states that a run may be in when it goes to another one. -/
def sources : Status → List Status
  | pending => []
  | running => [pending]
  | completed => [running]
  | failed => [running]
  | cancelled => [pending, running]

def decoder : Json.Decoder Status := Json.Decoder.choice (all.map fun s => (s.name, s))

def toJson (s : Status) : Json := .string s.name

end Status

/-- A step that the life of a run does not have. -/
structure InvalidTransition where
  source : Status
  target : Status
  deriving Repr, DecidableEq

def InvalidTransition.message (e : InvalidTransition) : String :=
  s!"Cannot transition run from {e.source.name} to {e.target.name}"

end Workflow.Run
