import Workflow.Proofs.Preparation
import Workflow.Proofs.Steps

/-!
The run of a prepared workflow from its opening state to its end. Nodes that run change the
results, the lists of nodes and the shared store of a run and nothing else, so the run is still
running when its traversal halts, and how it halted decides how the run ends.
-/
namespace Workflow

/-- A behaviour whose attempts all end in the same way after the same time. -/
def Node.Behavior.constant {σ : Type} (outcome : Except Node.Error Node.Output)
    (duration : Time.Duration) : Node.Behavior σ where
  nodeType := "constant"
  attemptTimeout := none
  execute _ c world := (⟨.leaving c outcome, duration⟩, world)

namespace Run

open Time (Timestamp)

variable {σ : Type}

namespace State

/-- Two states that differ at most in what nodes change. -/
structure SameRun (s s' : State) : Prop where
  id : s'.id = s.id
  workflowId : s'.workflowId = s.workflowId
  status : s'.status = s.status
  startTime : s'.startTime = s.startTime
  endTime : s'.endTime = s.endTime
  input : s'.input = s.input
  output : s'.output = s.output
  error : s'.error = s.error

theorem SameRun.refl (s : State) : s.SameRun s := ⟨rfl, rfl, rfl, rfl, rfl, rfl, rfl, rfl⟩

theorem SameRun.trans {s s' s'' : State} (h : s.SameRun s') (h' : s'.SameRun s'') :
    s.SameRun s'' where
  id := h'.id.trans h.id
  workflowId := h'.workflowId.trans h.workflowId
  status := h'.status.trans h.status
  startTime := h'.startTime.trans h.startTime
  endTime := h'.endTime.trans h.endTime
  input := h'.input.trans h.input
  output := h'.output.trans h.output
  error := h'.error.trans h.error

theorem sameRun_taken (s : State) (rest : List String) : s.SameRun (s.taken rest) :=
  ⟨rfl, rfl, rfl, rfl, rfl, rfl, rfl, rfl⟩

theorem sameRun_settle (s : State) (rest : List String) (c : Conclusion) (r : Result) :
    s.SameRun (s.settle rest c r) := ⟨rfl, rfl, rfl, rfl, rfl, rfl, rfl, rfl⟩

theorem sameRun_addPending (s : State) (nodes : List String) : s.SameRun (s.addPending nodes) := by
  rw [addPending_eq]
  exact ⟨rfl, rfl, rfl, rfl, rfl, rfl, rfl, rfl⟩

end State

theorem Step.sameRun {nodes : List (Prepared σ)} {deadline : Option Deadline} {s s' : State}
    {m m' : Moment σ} (h : Step nodes deadline s m s' m') : s.SameRun s' := by
  cases h with
  | skip => exact s.sameRun_taken _
  | turn => exact (s.sameRun_settle _ _ _).trans (State.sameRun_addPending _ _)

theorem Steps.sameRun {nodes : List (Prepared σ)} {deadline : Option Deadline} {k : Nat}
    {s s' : State} {m m' : Moment σ} (h : Steps nodes deadline k s m s' m') : s.SameRun s' := by
  induction h with
  | nil s m => exact State.SameRun.refl s
  | cons hfirst _ ih => exact hfirst.sameRun.trans ih

theorem sameRun_traverse (nodes : List (Prepared σ)) (deadline : Option Deadline) (limit left : Nat)
    (s : State) (m : Moment σ) : s.SameRun (traverse nodes deadline limit left s m).state := by
  obtain ⟨k, s', m', _, hsteps, hhalts⟩ := traverse_halts nodes deadline limit left s m
  generalize traverse nodes deadline limit left s m = ended at hhalts ⊢
  generalize left - k = remaining at hhalts
  cases hhalts with
  | drained _ _ _ _ => exact hsteps.sameRun
  | exhausted _ _ _ => exact hsteps.sameRun
  | interrupted _ _ _ n rest m'' _ => exact hsteps.sameRun.trans (s'.sameRun_taken rest)
  | failed _ _ _ n rest c r m'' _ _ => exact hsteps.sameRun.trans (s'.sameRun_settle rest c r)

/-- The state in which the traversal of a run begins. -/
def opening (d : Definition) (input : Payload) (id : Id) (start : Timestamp) : State where
  id
  workflowId := d.id
  status := .running
  startTime := some start
  endTime := none
  input
  output := none
  error := none
  results := []
  executed := []
  pending := [d.startNode]
  globalState :=
    Payload.insert (State.new id d.id input).globalState "start_time" (.string start.offsetText)

namespace Engine

variable (e : Engine σ)

section Conclude

variable (cancelled : Bool) {s : State} (now : Timestamp) (h : s.status = .running)
include h

theorem conclude_finished :
    e.conclude cancelled .finished s now =
      { s with status := .completed, output := some s.latestOutput, endTime := some now } := by
  simp only [conclude, State.complete, State.transition, h]
  rfl

theorem conclude_failed (reason : Failure) :
    e.conclude cancelled (.failed reason) s now =
      { s with status := .failed, error := some reason.message, endTime := some now } := by
  simp only [conclude, State.fail, State.transition, h]
  rfl

theorem conclude_cancelled :
    e.conclude true .interrupted s now =
      { s with status := .cancelled, endTime := some now } := by
  simp only [conclude, State.cancel, State.transition, h]
  rfl

theorem conclude_timedOut :
    e.conclude false .interrupted s now =
      { s with
        status := .failed
        error := some (Failure.timeLimit e.config.workflowSeconds).message
        endTime := some now } := by
  simp only [conclude, State.fail, State.transition, h]
  rfl

end Conclude

variable {e} {d : Definition} {nodes : List (Prepared σ)} (input : Payload) (id : Id)
  (start : Timestamp) (world : σ)

/-- A run whose workflow cannot be prepared fails before anything waits, even when it is cancelled
already. -/
theorem execute_of_prepare_eq_error {reason : Failure} (h : e.prepare d = .error reason)
    (cancellation : Cancellation) :
    e.execute d input cancellation id start world =
      ⟨{ opening d input id start with
          status := .failed
          error := some reason.message
          endTime := some start
          pending := [] },
        world, 0⟩ := by
  rw [execute, h]
  rfl

theorem execute_already (h : e.prepare d = .ok nodes) :
    e.execute d input .already id start world =
      ⟨{ opening d input id start with status := .cancelled, endTime := some start },
        world, 0⟩ := by
  rw [execute, h]
  rfl

/-- The traversal of a run that is not cancelled before it begins decides how it ends. -/
theorem execute_of_ne_already (h : e.prepare d = .ok nodes) {cancellation : Cancellation}
    (hc : cancellation ≠ .already) :
    e.execute d input cancellation id start world =
      let t := traverse nodes (some (e.deadline cancellation)) e.config.maxIterations
        e.config.maxIterations (opening d input id start) ⟨world, 0⟩
      let ticks := min t.moment.clock (e.deadline cancellation).tick
      ⟨e.conclude (e.cancelDeadline cancellation).isSome t.exit t.state (start.later ticks),
        t.moment.world, ticks⟩ := by
  rw [execute, h]
  cases cancellation with
  | never => rfl
  | already => exact absurd rfl hc
  | after duration admits waitsFor beforeLimit => rfl

end Engine

/-- How a run ends after the last step of its traversal. -/
inductive Finish (e : Engine σ) (nodes : List (Prepared σ)) (cancellation : Cancellation)
    (start : Timestamp) (s : State) (m : Moment σ) : Ended σ → Prop
  | atOnce (h : cancellation = .already) :
      Finish e nodes cancellation start s m
        ⟨{ s with status := .cancelled, endTime := some start }, m.world, 0⟩
  | completed (ticks : Nat) (hticks : ticks = min m.clock (e.deadline cancellation).tick)
      (hempty : s.pending = []) :
      Finish e nodes cancellation start s m
        ⟨{ s with
          status := .completed
          output := some s.latestOutput
          endTime := some (start.later ticks) }, m.world, ticks⟩
  | exhausted (ticks : Nat) (hwaits : s.pending ≠ []) :
      Finish e nodes cancellation start s m
        ⟨{ s with
          status := .failed
          error := some (Failure.iterationLimit e.config.maxIterations).message
          endTime := some (start.later ticks) }, m.world, ticks⟩
  | failed (ticks : Nat) (n : Prepared σ) (rest : List String) (c : Conclusion) (r : Result)
      (m' : Moment σ) (hturn : Turn nodes (some (e.deadline cancellation)) s m n rest c r m')
      (hstops : r.goesOn = false) :
      Finish e nodes cancellation start s m
        ⟨{ s.settle rest c r with
          status := .failed
          error := some (Failure.node r.nodeId (r.error.getD "")).message
          endTime := some (start.later ticks) }, m'.world, ticks⟩
  | cancelled (ticks : Nat) (n : Prepared σ) (rest : List String) (m' : Moment σ)
      (hbroken : BrokenOff nodes (some (e.deadline cancellation)) s m n rest m')
      (hcancel : (e.cancelDeadline cancellation).isSome) :
      Finish e nodes cancellation start s m
        ⟨{ s.taken rest with
          status := .cancelled
          endTime := some (start.later ticks) }, m'.world, ticks⟩
  | timedOut (ticks : Nat) (n : Prepared σ) (rest : List String) (m' : Moment σ)
      (hbroken : BrokenOff nodes (some (e.deadline cancellation)) s m n rest m')
      (hlimit : e.cancelDeadline cancellation = none) :
      Finish e nodes cancellation start s m
        ⟨{ s.taken rest with
          status := .failed
          error := some (Failure.timeLimit e.config.workflowSeconds).message
          endTime := some (start.later ticks) }, m'.world, ticks⟩

/-- Only a run with nothing left to wait completes. -/
theorem Finish.eq_of_completed {e : Engine σ} {nodes : List (Prepared σ)}
    {cancellation : Cancellation} {start : Timestamp} {s : State} {m : Moment σ} {run : Ended σ}
    (h : Finish e nodes cancellation start s m run) (hcompleted : run.state.status = .completed) :
    s.pending = [] ∧ ∃ ticks, run = ⟨{ s with
      status := .completed
      output := some s.latestOutput
      endTime := some (start.later ticks) }, m.world, ticks⟩ := by
  cases h with
  | completed ticks _ hempty => exact ⟨hempty, ticks, rfl⟩
  | atOnce _ => cases hcompleted
  | exhausted ticks _ => cases hcompleted
  | failed ticks n rest c r m' _ _ => cases hcompleted
  | cancelled ticks n rest m' _ _ => cases hcompleted
  | timedOut ticks n rest m' _ _ => cases hcompleted

/-- A run of a prepared workflow takes some steps from its opening state and ends. It takes no more
ids than it may: one in each step, and one more when it ends in a turn. -/
theorem execute_finishes_within {e : Engine σ} {d : Definition} {nodes : List (Prepared σ)}
    (h : e.prepare d = .ok nodes) (input : Payload) (cancellation : Cancellation) (id : Id)
    (start : Timestamp) (world : σ) :
    let run := e.execute d input cancellation id start world
    ∃ k s m, Steps nodes (some (e.deadline cancellation)) k (opening d input id start) ⟨world, 0⟩
        s m ∧
      Finish e nodes cancellation start s m run ∧
      k ≤ e.config.maxIterations ∧
      (run.state.pending ≠ s.pending → k < e.config.maxIterations) := by
  intro run
  by_cases hc : cancellation = .already
  · subst hc
    have hrun : run = _ := Engine.execute_already input id start world h
    rw [hrun]
    exact ⟨0, _, ⟨world, 0⟩, .nil _ _, .atOnce rfl, Nat.zero_le _, fun hne => absurd rfl hne⟩
  have hrun : run = _ := Engine.execute_of_ne_already input id start world h hc
  rw [hrun]
  obtain ⟨k, s, m, hk, hsteps, hhalts⟩ := traverse_halts nodes (some (e.deadline cancellation))
    e.config.maxIterations e.config.maxIterations (opening d input id start) ⟨world, 0⟩
  refine ⟨k, s, m, hsteps, ?_⟩
  have hrunning : s.status = .running := hsteps.sameRun.status
  generalize traverse nodes (some (e.deadline cancellation)) e.config.maxIterations
    e.config.maxIterations (opening d input id start) ⟨world, 0⟩ = t at hhalts ⊢
  generalize hleft : e.config.maxIterations - k = left at hhalts
  dsimp only
  cases hhalts with
  | drained _ _ _ hempty =>
    rw [e.conclude_finished _ _ hrunning]
    exact ⟨.completed _ rfl hempty, hk, fun hne => absurd rfl hne⟩
  | exhausted _ _ hwaits =>
    rw [e.conclude_failed _ _ hrunning]
    exact ⟨.exhausted _ hwaits, hk, fun hne => absurd rfl hne⟩
  | interrupted left _ _ n rest m' hbroken =>
    have htaken : (s.taken rest).status = .running := hrunning
    cases hdeadline : e.cancelDeadline cancellation with
    | none =>
      rw [Option.isSome_none, e.conclude_timedOut _ htaken]
      exact ⟨.timedOut _ n rest m' hbroken hdeadline, hk, fun _ => by omega⟩
    | some d =>
      rw [Option.isSome_some, e.conclude_cancelled _ htaken]
      exact ⟨.cancelled _ n rest m' hbroken (by rw [hdeadline]; rfl), hk, fun _ => by omega⟩
  | failed left _ _ n rest c r m' hturn hstops =>
    have hsettled : (s.settle rest c r).status = .running := hrunning
    rw [e.conclude_failed _ _ hsettled]
    exact ⟨.failed _ n rest c r m' hturn hstops, hk, fun _ => by omega⟩

/-- A run of a prepared workflow takes some steps from its opening state and ends. -/
theorem execute_finishes {e : Engine σ} {d : Definition} {nodes : List (Prepared σ)}
    (h : e.prepare d = .ok nodes) (input : Payload) (cancellation : Cancellation) (id : Id)
    (start : Timestamp) (world : σ) :
    ∃ k s m, Steps nodes (some (e.deadline cancellation)) k (opening d input id start) ⟨world, 0⟩
        s m ∧
      Finish e nodes cancellation start s m (e.execute d input cancellation id start world) := by
  obtain ⟨k, s, m, hsteps, hfinish, -⟩ :=
    execute_finishes_within h input cancellation id start world
  exact ⟨k, s, m, hsteps, hfinish⟩

end Run

end Workflow
