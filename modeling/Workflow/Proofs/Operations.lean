import Workflow.Run.Engine

/-!
Everything that can be done with the state of a run, in any order: it takes steps of its life,
results are recorded, nodes wait and are taken, and the shared store is written. A step that the
life of a run does not have is refused and changes nothing, so a history of operations leads from
one state to exactly one other.
-/
namespace Workflow.Run

open Time (Timestamp)

/-- What can be done with the state of a run. -/
inductive Operation where
  | start (now : Timestamp)
  | complete (output : Payload) (now : Timestamp)
  | fail (message : String) (now : Timestamp)
  | cancel (now : Timestamp)
  | record (r : Result)
  | addPending (nodes : List String)
  | takePending
  | store (globalState : Payload)

/-- The status that an operation asks for; only the steps of life ask for one. -/
def Operation.target? : Operation → Option Status
  | start _ => some .running
  | complete _ _ => some .completed
  | fail _ _ => some .failed
  | cancel _ => some .cancelled
  | record _ | addPending _ | takePending | store _ => none

namespace State

/-- Tries an operation. -/
def attempt (s : State) : Operation → Except InvalidTransition State
  | .start now => s.start now
  | .complete output now => s.complete output now
  | .fail message now => s.fail message now
  | .cancel now => s.cancel now
  | .record r => .ok (s.record r)
  | .addPending nodes => .ok (s.addPending nodes)
  | .takePending => .ok ((s.nextPending.map Prod.snd).getD s)
  | .store globalState => .ok { s with globalState }

/-- The state after an operation, which stays as it is if the operation is refused. -/
def perform (s : State) (op : Operation) : State := Engine.orStay s (s.attempt op)

/-- The state after some operations, one after the other. -/
def performAll (s : State) (ops : List Operation) : State := ops.foldl perform s

/-- The state after a step of its life. -/
def advanced (s : State) : Operation → State
  | .start now =>
    { s with
      status := .running
      startTime := some now
      globalState := Payload.insert s.globalState "start_time" (.string now.offsetText) }
  | .complete output now =>
    { s with status := .completed, output := some output, endTime := some now }
  | .fail message now => { s with status := .failed, error := some message, endTime := some now }
  | .cancel now => { s with status := .cancelled, endTime := some now }
  | .record _ | .addPending _ | .takePending | .store _ => s

variable {s : State} {op : Operation} {target : Status}

theorem transition_eq (s : State) (target : Status) :
    s.transition target =
      if s.status ∈ target.sources then .ok { s with status := target }
      else .error ⟨s.status, target⟩ := rfl

/-- A step of life is taken from its sources and refused everywhere else. -/
theorem attempt_of_target (h : op.target? = some target) :
    s.attempt op =
      if s.status ∈ target.sources then .ok (s.advanced op) else .error ⟨s.status, target⟩ := by
  cases op with
  | start now =>
    cases h
    rw [attempt, start, transition_eq]
    split <;> rfl
  | complete output now =>
    cases h
    rw [attempt, complete, transition_eq]
    split <;> rfl
  | fail message now =>
    cases h
    rw [attempt, fail, transition_eq]
    split <;> rfl
  | cancel now =>
    cases h
    rw [attempt, cancel, transition_eq]
    split <;> rfl
  | record r => cases h
  | addPending nodes => cases h
  | takePending => cases h
  | store globalState => cases h

theorem status_advanced (h : op.target? = some target) : (s.advanced op).status = target := by
  cases op <;> cases h <;> rfl

theorem perform_of_mem (h : op.target? = some target) (hs : s.status ∈ target.sources) :
    s.perform op = s.advanced op := by
  rw [perform, attempt_of_target h, if_pos hs]
  rfl

theorem perform_of_notMem (h : op.target? = some target) (hs : s.status ∉ target.sources) :
    s.perform op = s := by
  rw [perform, attempt_of_target h, if_neg hs]
  rfl

theorem perform_takePending (s : State) :
    s.perform .takePending = { s with pending := s.pending.tail } := by
  rw [perform, attempt, nextPending]
  cases h : s.pending with
  | nil =>
    change s = { s with pending := [] }
    rw [← h]
  | cons node rest => rfl

/-- What an operation does: it takes a step of life, is refused one, or is about nodes and the
store. -/
theorem perform_cases (s : State) (op : Operation) :
    (∃ target, op.target? = some target ∧ s.status ∈ target.sources ∧
      s.perform op = s.advanced op) ∨
    (∃ target, op.target? = some target ∧ s.status ∉ target.sources ∧ s.perform op = s) ∨
    op.target? = none := by
  cases h : op.target? with
  | none => exact Or.inr (Or.inr rfl)
  | some target =>
    by_cases hs : s.status ∈ target.sources
    · exact Or.inl ⟨target, rfl, hs, perform_of_mem h hs⟩
    · exact Or.inr (Or.inl ⟨target, rfl, hs, perform_of_notMem h hs⟩)

theorem performAll_append (s : State) (ops later : List Operation) :
    s.performAll (ops ++ later) = (s.performAll ops).performAll later :=
  List.foldl_append

theorem performAll_concat (s : State) (ops : List Operation) (op : Operation) :
    s.performAll (ops ++ [op]) = (s.performAll ops).perform op :=
  performAll_append s ops [op]

/-- What every operation preserves, a history preserves. -/
theorem performAll_preserve {I : State → Prop} (hstep : ∀ s op, I s → I (s.perform op))
    (ops : List Operation) (h : I s) : I (s.performAll ops) := by
  induction ops generalizing s with
  | nil => exact h
  | cons op rest ih => exact ih (hstep s op h)

end State

end Workflow.Run
