import Workflow.Run.Traversal

/-!
The engine runs a workflow from its start to one of the ends of its life. A workflow that is not
valid, or has a node that cannot be made, fails before anything runs. A run can be cancelled, and
its time is limited. Work that ends at the very tick of the time limit still counts, unless it was
handed over; what happens at the very tick of a cancellation may come before it or after it.
-/
namespace Workflow.Run

open Time (Duration Timestamp)

structure Engine (σ : Type) where
  config : EngineConfig
  registry : Node.Registry σ

inductive Cancellation where
  | never
  /-- The run is cancelled before any node of it runs. -/
  | already
  /-- The run is cancelled while it lasts: at that very tick, after the nodes that are still in time
  and after the time limit or before it. -/
  | after (duration : Duration) (admits waitsFor : String → Bool) (beforeLimit : Bool)

structure Ended (σ : Type) where
  state : State
  world : σ
  /-- The ticks that it took. -/
  ticks : Nat

namespace Engine

variable {σ : Type}

def prepare (e : Engine σ) (d : Definition) : Except Failure (List (Prepared σ)) := do
  match d.validate with
  | .error reason => throw (.definition reason)
  | .ok () =>
    match d.nodes.mapM (Prepared.ofDefinition e.registry e.config) with
    | .error reason => throw (.build reason)
    | .ok nodes => return nodes

def timeLimit (e : Engine σ) : Nat := e.config.workflowTimeout.ticks

/-- The deadline of a cancellation that comes before the time limit. -/
def cancelDeadline (e : Engine σ) : Cancellation → Option Deadline
  | .after duration admits waitsFor beforeLimit =>
    if duration.ticks < e.timeLimit || (duration.ticks = e.timeLimit && beforeLimit) then
      some ⟨duration.ticks, admits, waitsFor⟩
    else none
  | .never | .already => none

/-- The deadline of a run: that of its cancellation, or else its time limit. -/
def deadline (e : Engine σ) (cancellation : Cancellation) : Deadline :=
  (e.cancelDeadline cancellation).getD ⟨e.timeLimit, fun _ => true, fun _ => false⟩

def orStay (s : State) : Except InvalidTransition State → State
  | .ok next => next
  | .error _ => s

/-- The end of the life of a run after its traversal. -/
def conclude (e : Engine σ) (cancelled : Bool) (exit : Exit) (s : State) (now : Timestamp) :
    State :=
  orStay s (match exit with
    | .finished => s.complete s.latestOutput now
    | .failed reason => s.fail reason.message now
    | .interrupted =>
      if cancelled then s.cancel now
      else s.fail (Failure.timeLimit e.config.workflowSeconds).message now)

/-- Runs a workflow on an input, from a moment on and under an id. -/
def execute (e : Engine σ) (d : Definition) (input : Payload) (cancellation : Cancellation)
    (id : Id) (start : Timestamp) (world : σ) : Ended σ :=
  let s := State.new id d.id input
  let s := orStay s (s.start start)
  match e.prepare d with
  | .error reason => ⟨orStay s (s.fail reason.message start), world, 0⟩
  | .ok nodes =>
    let s := s.addPending [d.startNode]
    match cancellation with
    | .already => ⟨orStay s (s.cancel start), world, 0⟩
    | cancellation =>
      let deadline := e.deadline cancellation
      let limit := e.config.maxIterations
      let t := traverse nodes (some deadline) limit limit s ⟨world, 0⟩
      let ticks := min t.moment.clock deadline.tick
      let isCancelled := (e.cancelDeadline cancellation).isSome
      ⟨e.conclude isCancelled t.exit t.state (start.later ticks), t.moment.world, ticks⟩

end Engine

end Workflow.Run
