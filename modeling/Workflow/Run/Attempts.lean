import Workflow.Run.Prepared

/-!
The attempts of a node. Every attempt gets the same input and the same context. One that takes
longer than its limit ends there with an error, and after an error that may pass there is another
attempt when the pause is over. When the time of the run is up, whatever takes longer is broken
off: what it did to the world stays, and nothing else is left of it. Of what ends at this very tick,
the deadline says what is in time.
-/
namespace Workflow.Run

open Node (Attempt)
open Time (Timed)

/-- A world, and the ticks since the start of the run. -/
structure Moment (σ : Type) where
  world : σ
  clock : Nat

/-- The end of the time of a run. -/
structure Deadline where
  tick : Nat
  /-- The nodes that are in time at this very tick. -/
  admits : String → Bool
  /-- Those of them that are in time even if they have handed over their work. -/
  waitsFor : String → Bool

/-- Whether a node that is done with something at some tick, be it handed over or not, is late. -/
def Deadline.isPast (d : Deadline) (id : String) (handedOver : Bool) (clock : Nat) : Bool :=
  d.tick < clock ||
    (d.tick = clock && !(d.admits id && (!handedOver || d.waitsFor id)))

structure Conclusion where
  last : Attempt
  count : Nat

namespace Prepared

variable {σ : Type}

def late (n : Prepared σ) (c : Context) : Attempt :=
  .leaving c (.error (.timeout n.id n.attemptTimeout.seconds))

def attempt (n : Prepared σ) (input : Payload) (c : Context) (world : σ) : Timed Attempt × σ :=
  let (work, world) := n.behavior.execute input c world
  (work.within n.attemptTimeout (n.late c), world)

def invitesRetry (a : Attempt) : Bool :=
  match a.outcome with
  | .ok _ => false
  | .error e => e.isRetryable

/-- Whether an attempt that ends at some tick comes too late for the run. -/
def isOver (n : Prepared σ) (deadline : Option Deadline) (clock : Nat) : Bool :=
  deadline.any (·.isPast n.id n.behavior.handsOver clock)

/-- Whether a pause that ends at some tick leaves no time for another attempt. -/
def isPauseOver (n : Prepared σ) (deadline : Option Deadline) (clock : Nat) : Bool :=
  deadline.any (·.isPast n.id false clock)

/-- Makes attempts, `left` of them at most beyond the first one; `made` counts those before. There
is no conclusion when the time is up. -/
def attempts (n : Prepared σ) (input : Payload) (c : Context) (deadline : Option Deadline)
    (left made : Nat) (m : Moment σ) : Option Conclusion × Moment σ :=
  let (work, world) := n.attempt input c m.world
  let m : Moment σ := ⟨world, m.clock + work.duration.ticks⟩
  if n.isOver deadline m.clock then (none, m)
  else if !invitesRetry work.value then (some ⟨work.value, made + 1⟩, m)
  else
    match left with
    | 0 => (some ⟨work.value, made + 1⟩, m)
    | left + 1 =>
      let m := { m with clock := m.clock + n.policy.retryDelay.ticks }
      if n.isPauseOver deadline m.clock then (none, m)
      else n.attempts input c deadline left (made + 1) m

def result (n : Prepared σ) (c : Conclusion) (ticks : Nat) : Result :=
  let seconds := (Time.Duration.ofTicks ticks).seconds
  let d := n.definition
  match c.last.outcome with
  | .ok output =>
    ⟨d.id, d.name, .success, some output.data, none, seconds,
      output.nextNodes.getD d.nextNodes, c.count⟩
  | .error e => ⟨d.id, d.name, .error, none, some e.message, seconds, d.onError.toList, c.count⟩

/-- The shared store after the attempts: that of a success, and otherwise the one before. -/
def globalState (c : Conclusion) (before : Payload) : Payload :=
  match c.last.outcome with
  | .ok _ => c.last.globalState
  | .error _ => before

/-- Runs a node and records its result; nothing is recorded when the time is up. -/
def run (n : Prepared σ) (input : Payload) (deadline : Option Deadline) (s : State)
    (m : Moment σ) : Option (Result × State) × Moment σ :=
  let (conclusion, after) := n.attempts input s.context deadline (n.maxAttempts - 1) 0 m
  let finished := conclusion.map fun c =>
    let r := n.result c (after.clock - m.clock)
    (r, State.record { s with globalState := globalState c s.globalState } r)
  (finished, after)

end Prepared

end Workflow.Run
