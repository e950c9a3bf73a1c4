import Workflow.Proofs.Observation

/-!
The attempts of a node, apart from each other and from the run. Whatever an attempt writes to its
copy of the shared store, the next one is given the same again; when a node is done, the store is
the one that a success left or the one before, and otherwise the run has one more result.
-/
namespace Workflow.Run.Prepared

variable {σ : Type} (n : Prepared σ) (input : Payload) (deadline : Option Deadline) (s : State)

/-- The result of a node that came to a conclusion, and the state in which it is recorded. -/
def concluded (c : Conclusion) (ticks : Nat) : Result × State :=
  (n.result c ticks,
    State.record { s with globalState := globalState c s.globalState } (n.result c ticks))

theorem run_eq (m : Moment σ) :
    let tried := n.attempts input s.context deadline (n.maxAttempts - 1) 0 m
    n.run input deadline s m =
      (tried.1.map fun c => n.concluded s c (tried.2.clock - m.clock), tried.2) := rfl

theorem run_none_isSome (m : Moment σ) : (n.run input none s m).1.isSome := by
  rw [run_eq, Option.isSome_map]
  exact n.attempts_none_isSome input s.context _ 0 m

/-- Some calls of a node led from a state to another one, with a result: a success leaves the shared
store that the last call left, and an error the one that was there. Apart from the store, the result
is appended, the node has run, and it does not wait any more. -/
structure LedTo (calls : List Call) (r : Result) (s' : State) : Prop where
  nodeId : r.nodeId = n.id
  attempts : r.attempts = calls.length
  store : r.status = .success ∧ calls.getLast?.map Call.left = some s'.globalState ∨
    r.status = .error ∧ s'.globalState = s.globalState
  rest : s' = { s with
    globalState := s'.globalState
    results := s.results ++ [r]
    executed := if n.id ∈ s.executed then s.executed else s.executed ++ [n.id]
    pending := s.pending.filter (· ≠ n.id) }

variable {n input s}

theorem Logs.ledTo {c : Conclusion} {calls : List Call}
    (h : n.Logs input s.context (some c) 0 calls) (ticks : Nat) :
    n.LedTo s calls (n.concluded s c ticks).1 (n.concluded s c ticks).2 where
  nodeId := n.result_nodeId ticks c
  attempts := by
    rw [concluded, result_attempts, ← h.count c rfl, Nat.zero_add]
  store := by
    rw [concluded, State.record, globalState]
    cases houtcome : c.last.outcome with
    | ok output =>
      rw [n.result_of_ok ticks houtcome]
      exact Or.inl ⟨rfl, h.left c output rfl houtcome⟩
    | error reason =>
      rw [n.result_of_error ticks houtcome]
      exact Or.inr ⟨rfl, rfl⟩
  rest := by
    rw [concluded, State.record, result_nodeId]

variable (n input s)

/-- The attempts of a node do not leak. A watched node does what the node does and logs its calls,
of which there is at least one; every call is given the input and the context of the state, whatever
earlier calls left. If the node comes to a result, which without a deadline it does, the calls led
from the state to the one in which the result is recorded. -/
theorem run_isolated (m : Moment (σ × List Call)) :
    let run := n.run input deadline s m.unwatched
    (deadline = none → run.1.isSome) ∧
    ∃ calls, n.watched.run input deadline s m = (run.1, run.2.withLog (m.world.2 ++ calls)) ∧
      calls ≠ [] ∧
      (∀ call ∈ calls, call.input = input ∧
        call.context = ⟨s.workflowId, s.id, s.globalState, State.outputs s.results⟩) ∧
      ∀ r s', run.1 = some (r, s') → n.LedTo s calls r s' := by
  intro run
  refine ⟨?_, ?_⟩
  · rintro rfl
    exact n.run_none_isSome input s m.unwatched
  obtain ⟨calls, hwatched, hlogs⟩ :=
    n.attempts_watched input s.context deadline (n.maxAttempts - 1) 0 m
  refine ⟨calls, ?_, hlogs.called, fun call hcall => (hlogs.given call hcall).2, ?_⟩
  · rw [run_eq, show n.watched.maxAttempts = n.maxAttempts from rfl, hwatched]
    rfl
  · intro r s' hrun
    obtain ⟨c, hconclusion, hconcluded⟩ := Option.map_eq_some_iff.1 hrun
    rw [hconclusion] at hlogs
    obtain ⟨rfl, rfl⟩ := Prod.mk.inj hconcluded
    exact hlogs.ledTo _

end Workflow.Run.Prepared
