import Workflow.Config
import Workflow.Node.Error

/-!
How often and how long a node is tried: the entries `retries`, `retry_delay` and `timeout` of its
configuration, or what the engine has for nodes without them.
-/
namespace Workflow.Node

open Time (Duration)

structure Policy where
  retries : Nat
  retryDelay : Duration
  timeout : Duration
  deriving Repr, DecidableEq

namespace Policy

/-- A number of retries that fits in 32 bits. -/
def retries? : Json → Option Nat
  | .number n => n.toNat?.bind fun k => if k < 2 ^ 32 then some k else none
  | _ => none

/-- A finite number of seconds that is not negative. -/
def seconds? : Json → Option Float
  | .number n => if n.toFloat.isFinite && n.toFloat >= 0.0 then some n.toFloat else none
  | _ => none

/-- The duration under a key; null and nothing stand for the default. -/
def duration (node : String) (config : Payload) (key : String) (default : Duration) :
    Except Error Duration :=
  match Payload.find? config key with
  | none | some .null => .ok default
  | some v =>
    match seconds? v with
    | some x => .ok (.ofSeconds x)
    | none =>
      .error (.invalidConfig node s!"'{key}' must be a non-negative number of seconds")

def ofConfig (node : String) (config : Payload) (engine : EngineConfig) :
    Except Error Policy := do
  let retries ← match Payload.find? config "retries" with
    | none | some .null => pure 0
    | some v =>
      match retries? v with
      | some n => pure n
      | none => .error (.invalidConfig node "'retries' must be a non-negative integer")
  let retryDelay ← duration node config "retry_delay" engine.retryDelay
  let timeout ← duration node config "timeout" engine.nodeTimeout
  return ⟨retries, retryDelay, timeout⟩

end Policy

end Workflow.Node
