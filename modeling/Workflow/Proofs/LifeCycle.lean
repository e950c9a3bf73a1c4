import Mathlib.Data.List.Induction
import Workflow.Proofs.Operations

/-!
The life of a run. Whatever is done with the state of a run, and in whatever order, its status says
which of its outcomes and times there are; only the steps of life change them, each from a status
that it may be taken from, and after the last one they stay as they are.
-/
namespace Workflow.Run

open Time (Timestamp)

namespace Status

/-- The steps of the life of a run. -/
def steps : List (Status × Status) :=
  [(pending, running), (running, completed), (running, failed), (pending, cancelled),
    (running, cancelled)]

theorem mem_steps {source target : Status} :
    (source, target) ∈ steps ↔ source ∈ target.sources := by
  cases source <;> cases target <;> decide

theorem notMem_sources_of_isTerminal {source : Status} (h : source.isTerminal = true)
    (target : Status) : source ∉ target.sources := by
  revert h
  cases source <;> cases target <;> decide

end Status

namespace State

/-- Two states with the same status, outcomes and times. -/
structure SameLife (s s' : State) : Prop where
  status : s'.status = s.status
  output : s'.output = s.output
  error : s'.error = s.error
  startTime : s'.startTime = s.startTime
  endTime : s'.endTime = s.endTime

theorem SameLife.refl (s : State) : s.SameLife s := ⟨rfl, rfl, rfl, rfl, rfl⟩

theorem SameLife.trans {s s' s'' : State} (h : s.SameLife s') (h' : s'.SameLife s'') :
    s.SameLife s'' where
  status := h'.status.trans h.status
  output := h'.output.trans h.output
  error := h'.error.trans h.error
  startTime := h'.startTime.trans h.startTime
  endTime := h'.endTime.trans h.endTime

theorem sameLife_enqueue (s : State) (node : String) : s.SameLife (s.enqueue node) := by
  rw [enqueue]
  split
  · exact .refl s
  · exact ⟨rfl, rfl, rfl, rfl, rfl⟩

theorem sameLife_addPending (s : State) (nodes : List String) :
    s.SameLife (s.addPending nodes) := by
  induction nodes generalizing s with
  | nil => exact .refl s
  | cons node rest ih => exact (s.sameLife_enqueue node).trans (ih _)

/-- What is done about nodes and the store is not a step of life. -/
theorem sameLife_perform {s : State} {op : Operation} (h : op.target? = none) :
    s.SameLife (s.perform op) := by
  cases op with
  | start now => cases h
  | complete output now => cases h
  | fail message now => cases h
  | cancel now => cases h
  | record r => exact ⟨rfl, rfl, rfl, rfl, rfl⟩
  | addPending nodes => exact s.sameLife_addPending nodes
  | takePending =>
    rw [perform_takePending]
    exact ⟨rfl, rfl, rfl, rfl, rfl⟩
  | store globalState => exact ⟨rfl, rfl, rfl, rfl, rfl⟩

/-- Once a run has ended, nothing that is done with its state changes how it ended. -/
theorem sameLife_performAll {s : State} (h : s.status.isTerminal = true)
    (later : List Operation) : s.SameLife (s.performAll later) := by
  refine performAll_preserve (I := s.SameLife) (fun s' op hs' => ?_) later (.refl s)
  have hended : s'.status.isTerminal = true := hs'.status ▸ h
  rcases s'.perform_cases op with
    ⟨target, -, hsource, -⟩ | ⟨target, -, -, hperform⟩ | hnone
  · exact absurd hsource (Status.notMem_sources_of_isTerminal hended target)
  · rw [hperform]
    exact hs'
  · exact hs'.trans (sameLife_perform hnone)

/-- The status of a run says which of its outcomes and times there are. `early` says that the run
was cancelled before it started. -/
structure Lives (s : State) (early : Prop) : Prop where
  output_iff : s.output.isSome ↔ s.status = .completed
  error_iff : s.error.isSome ↔ s.status = .failed
  end_iff : s.endTime.isSome ↔ s.status.isTerminal
  start_iff : s.startTime = none ↔ s.status = .pending ∨ early
  cancelled : early → s.status = .cancelled

namespace Lives

variable {s s' : State} {early : Prop}

theorem of_sameLife (h : s.Lives early) (hsame : s.SameLife s') : s'.Lives early where
  output_iff := by rw [hsame.output, hsame.status, h.output_iff]
  error_iff := by rw [hsame.error, hsame.status, h.error_iff]
  end_iff := by rw [hsame.endTime, hsame.status, h.end_iff]
  start_iff := by rw [hsame.startTime, hsame.status, h.start_iff]
  cancelled hearly := hsame.status.trans (h.cancelled hearly)

/-- A run that has not ended has no outcome, and it was not cancelled. -/
theorem underway (h : s.Lives early) (hs : s.status.isTerminal = false) :
    s.output = none ∧ s.error = none ∧ s.endTime = none ∧ ¬ early := by
  have hnot (status : Status) (hended : status.isTerminal = true) : s.status ≠ status := by
    rintro rfl
    rw [hs] at hended
    cases hended
  refine ⟨?_, ?_, ?_, fun hearly => hnot .cancelled rfl (h.cancelled hearly)⟩
  · rw [← Option.not_isSome_iff_eq_none, h.output_iff]
    exact hnot .completed rfl
  · rw [← Option.not_isSome_iff_eq_none, h.error_iff]
    exact hnot .failed rfl
  · rw [← Option.not_isSome_iff_eq_none, h.end_iff, hs]
    decide

/-- A step of life; the run is cancelled early if it is cancelled while it is pending. -/
theorem advanced (h : s.Lives early) {op : Operation} {target : Status}
    (htarget : op.target? = some target) (hsource : s.status ∈ target.sources) :
    (s.advanced op).Lives (early ∨ target = .cancelled ∧ s.status = .pending) := by
  have hunderway : s.status.isTerminal = false := by
    rw [← Bool.not_eq_true]
    exact fun hended => Status.notMem_sources_of_isTerminal hended target hsource
  obtain ⟨houtput, herror, hend, hearly⟩ := h.underway hunderway
  -- A run that is running has started.
  have hstarted (hrunning : s.status = .running) : ¬ s.startTime = none := by
    rw [h.start_iff, hrunning]
    rintro (hpending | hold)
    · cases hpending
    · exact hearly hold
  cases op with
  | start now =>
    cases htarget
    constructor <;> simp [State.advanced, houtput, herror, hend, hearly, Status.isTerminal]
  | complete output now =>
    cases htarget
    have hrunning : s.status = .running := List.mem_singleton.1 hsource
    constructor <;>
      simp [State.advanced, herror, hearly, Status.isTerminal, hstarted hrunning]
  | fail message now =>
    cases htarget
    have hrunning : s.status = .running := List.mem_singleton.1 hsource
    constructor <;>
      simp [State.advanced, houtput, hearly, Status.isTerminal, hstarted hrunning]
  | cancel now =>
    cases htarget
    constructor <;>
      simp [State.advanced, houtput, herror, hearly, Status.isTerminal, h.start_iff]
  | record r => cases htarget
  | addPending nodes => cases htarget
  | takePending => cases htarget
  | store globalState => cases htarget

end Lives

/-- A history in which a run is cancelled while it is pending. -/
def CancelledEarly (s : State) (ops : List Operation) : Prop :=
  ∃ earlier now later, ops = earlier ++ .cancel now :: later ∧
    (s.performAll earlier).status = .pending

theorem cancelledEarly_concat {s : State} {ops : List Operation} {op : Operation} :
    s.CancelledEarly (ops ++ [op]) ↔
      s.CancelledEarly ops ∨
        op.target? = some .cancelled ∧ (s.performAll ops).status = .pending := by
  constructor
  · rintro ⟨earlier, now, later, hops, hpending⟩
    rcases List.eq_nil_or_concat later with rfl | ⟨rest, last, rfl⟩
    · obtain ⟨rfl, hlast⟩ := List.append_inj' hops rfl
      cases hlast
      exact Or.inr ⟨rfl, hpending⟩
    · rw [List.concat_eq_append, ← List.cons_append, ← List.append_assoc] at hops
      obtain ⟨rfl, -⟩ := List.append_inj' hops rfl
      exact Or.inl ⟨earlier, now, rest, rfl, hpending⟩
  · rintro (⟨earlier, now, later, rfl, hpending⟩ | ⟨hcancel, hpending⟩)
    · exact ⟨earlier, now, later ++ [op], by simp, hpending⟩
    · cases op with
      | cancel now => exact ⟨ops, now, [], rfl, hpending⟩
      | start now => cases hcancel
      | complete output now => cases hcancel
      | fail message now => cases hcancel
      | record r => cases hcancel
      | addPending nodes => cases hcancel
      | takePending => cases hcancel
      | store globalState => cases hcancel

theorem lives_performAll (id : Id) (workflowId : String) (input : Payload)
    (ops : List Operation) :
    ((State.new id workflowId input).performAll ops).Lives
      ((State.new id workflowId input).CancelledEarly ops) := by
  induction ops using List.reverseRecOn with
  | nil =>
    have hnever : ¬ (State.new id workflowId input).CancelledEarly [] := by
      rintro ⟨earlier, now, later, hops, -⟩
      exact absurd hops.symm (by simp)
    exact ⟨iff_of_false nofun nofun, iff_of_false nofun nofun, iff_of_false nofun nofun,
      iff_of_true rfl (Or.inl rfl), fun hearly => absurd hearly hnever⟩
  | append_singleton ops op ih =>
    rw [performAll_concat, cancelledEarly_concat]
    generalize (State.new id workflowId input).performAll ops = s at ih ⊢
    rcases s.perform_cases op with
      ⟨target, htarget, hsource, hperform⟩ | ⟨target, htarget, hrefused, hperform⟩ | hnone
    · rw [hperform, htarget, Option.some_inj]
      exact ih.advanced htarget hsource
    · -- A cancellation of a pending run is not refused.
      have hnot : ¬ (op.target? = some .cancelled ∧ s.status = .pending) := by
        rintro ⟨hcancel, hpending⟩
        rw [htarget, Option.some_inj] at hcancel
        rw [hcancel, hpending] at hrefused
        exact hrefused (by decide)
      rw [hperform, or_iff_left hnot]
      exact ih
    · rw [hnone, or_iff_left (fun h => by cases h.1)]
      exact ih.of_sameLife (sameLife_perform hnone)

/-- The life of a run after any history of operations. There is an output just if it is completed,
an error just if it failed, an end just if it has ended, and no start just if it is pending or was
cancelled while it was. A step of life is accepted just if it is one of the five; one that is
refused names the status and the one that was asked for, and leaves the whole state as it is. Once
the run has ended, whatever is done later leaves its outcomes and times alone. -/
theorem life_performAll (id : Id) (workflowId : String) (input : Payload)
    (ops : List Operation) :
    let s := (State.new id workflowId input).performAll ops
    (s.output.isSome ↔ s.status = .completed) ∧
    (s.error.isSome ↔ s.status = .failed) ∧
    (s.endTime.isSome ↔ s.status.isTerminal) ∧
    (s.startTime = none ↔
      s.status = .pending ∨ (State.new id workflowId input).CancelledEarly ops) ∧
    (∀ op target, op.target? = some target →
      ((s.status, target) ∈ Status.steps →
        s.attempt op = .ok (s.perform op) ∧ (s.perform op).status = target) ∧
      ((s.status, target) ∉ Status.steps →
        s.attempt op = .error ⟨s.status, target⟩ ∧ s.perform op = s)) ∧
    (s.status.isTerminal → ∀ later, s.SameLife (s.performAll later)) := by
  intro s
  have hlives := lives_performAll id workflowId input ops
  refine ⟨hlives.output_iff, hlives.error_iff, hlives.end_iff, hlives.start_iff,
    fun op target htarget => ⟨fun hstep => ?_, fun hstep => ?_⟩,
    fun hended later => sameLife_performAll hended later⟩
  · have hsource := Status.mem_steps.1 hstep
    rw [perform_of_mem htarget hsource, attempt_of_target htarget, if_pos hsource]
    exact ⟨rfl, status_advanced htarget⟩
  · have hrefused := fun hsource => hstep (Status.mem_steps.2 hsource)
    rw [perform_of_notMem htarget hrefused, attempt_of_target htarget, if_neg hrefused]
    exact ⟨rfl, rfl⟩

end State

end Workflow.Run
