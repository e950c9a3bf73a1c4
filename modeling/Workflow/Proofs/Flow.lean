import Workflow.Proofs.Schedule

/-!
A run as a fold. The nodes that ran, taken in their order, determine the results of a run: each node
is tried on the latest output with the shared store and the outputs so far, and nothing else of the
run bears on it. Queue, limits and deadlines only decide how many nodes there are.
-/
namespace Workflow.Run

variable {σ : Type}

/-- After a result, the latest output is its output. -/
theorem State.latestOutput_of_append {s : State} {results : List Result} {r : Result}
    (h : s.results = results ++ [r]) : s.latestOutput = r.output.getD [] := by
  rw [latestOutput, h, List.getLast?_concat]

/-! ## The fold -/

/-- What goes from one node to the next: the latest output, the shared store, the results and the
moment. -/
structure Flow (σ : Type) where
  latest : Payload
  globalState : Payload
  results : List Result
  moment : Moment σ

namespace Flow

def ofState (s : State) (m : Moment σ) : Flow σ := ⟨s.latestOutput, s.globalState, s.results, m⟩

/-- A node is tried on what goes on, for as long as it takes, and adds its result. -/
def step (nodes : List (Prepared σ)) (workflowId : String) (id : Id) (f : Flow σ)
    (node : String) : Flow σ :=
  match nodes.find? (·.id = node) with
  | none => f
  | some n =>
    let c : Context := ⟨workflowId, id, f.globalState, State.outputs f.results⟩
    match n.attempts f.latest c none (n.maxAttempts - 1) 0 f.moment with
    | (none, _) => f
    | (some k, m) =>
      let r := n.result k (m.clock - f.moment.clock)
      ⟨r.output.getD [], Prepared.globalState k f.globalState, f.results ++ [r], m⟩

end Flow

variable {nodes : List (Prepared σ)} {deadline : Option Deadline} {s s' : State} {m m' : Moment σ}
  {n : Prepared σ} {rest : List String} {c : Conclusion} {r : Result}

theorem Flow.ofState_addPending (s : State) (next : List String) (m : Moment σ) :
    ofState (s.addPending next) m = ofState s m := by
  rw [State.addPending_eq]
  rfl

theorem Flow.step_of_concluded {workflowId : String} {id : Id} {f : Flow σ}
    (hfound : nodes.find? (·.id = n.id) = some n)
    (hconcluded : n.attempts f.latest ⟨workflowId, id, f.globalState, State.outputs f.results⟩ none
      (n.maxAttempts - 1) 0 f.moment = (some c, m')) :
    f.step nodes workflowId id n.id =
      let r := n.result c (m'.clock - f.moment.clock)
      ⟨r.output.getD [], Prepared.globalState c f.globalState, f.results ++ [r], m'⟩ := by
  simp only [step, hfound, hconcluded]

theorem Turn.flow (h : Turn nodes deadline s m n rest c r m') :
    (Flow.ofState s m).step nodes s.workflowId s.id n.id =
      Flow.ofState (s.settle rest c r) m' := by
  have hconcluded := Prepared.attempts_none_of_some h.concluded
  have hlatest := State.latestOutput_of_append (State.settle_results s rest c r)
  rw [Flow.step_of_concluded (f := Flow.ofState s m) h.found hconcluded]
  simp only [Flow.ofState, ← h.result, hlatest, State.settle_results, State.settle_globalState]

/-- What went on up to a state is the fold over the nodes that ran. -/
def Flowed (nodes : List (Prepared σ)) (s₀ : State) (m₀ : Moment σ) (s : State) (m : Moment σ) :
    Prop :=
  (s.results.map Result.nodeId).foldl (Flow.step nodes s₀.workflowId s₀.id)
    (Flow.ofState s₀ m₀) = Flow.ofState s m

theorem Flowed.turn {s₀ : State} {m₀ : Moment σ} (h : Flowed nodes s₀ m₀ s m)
    (hsame : s₀.SameRun s) (hturn : Turn nodes deadline s m n rest c r m') :
    Flowed nodes s₀ m₀ (s.settle rest c r) m' := by
  rw [Flowed] at h ⊢
  rw [State.settle_results, List.map_append, List.foldl_append, h, List.map_singleton,
    List.foldl_cons, List.foldl_nil, hturn.nodeId_eq, ← hsame.workflowId, ← hsame.id, hturn.flow]

theorem Steps.flowed {k : Nat} (hsteps : Steps nodes deadline k s m s' m')
    (hresults : s.results = []) : Flowed nodes s m s' m' := by
  have hfirst : s.SameRun s ∧ Flowed nodes s m s m := by
    refine ⟨State.SameRun.refl s, ?_⟩
    rw [Flowed, hresults]
    rfl
  refine (hsteps.preserve (I := fun s₁ m₁ => s.SameRun s₁ ∧ Flowed nodes s m s₁ m₁) ?_ hfirst).2
  rintro s₁ m₁ s₂ m₂ hstep ⟨hsame, hflowed⟩
  refine ⟨hsame.trans hstep.sameRun, ?_⟩
  cases hstep with
  | skip id rest _ _ => exact hflowed
  | turn n rest c r _ hturn _ =>
    have hsettled := hflowed.turn hsame hturn
    rw [Flowed] at hsettled ⊢
    rw [State.addPending_results, hsettled, Flow.ofState_addPending]

/-- How a run ends does not change what went on. A completed run puts out the latest output, and the
fold leaves the world as the run does. -/
theorem Finish.flowed {e : Engine σ} {cancellation : Cancellation} {start : Time.Timestamp}
    {run : Ended σ} (h : Finish e nodes cancellation start s m run) {s₀ : State} {m₀ : Moment σ}
    (hsame : s₀.SameRun s) (hflowed : Flowed nodes s₀ m₀ s m) :
    ∃ m', Flowed nodes s₀ m₀ run.state m' ∧
      (run.state.status = .completed →
        m'.world = run.world ∧ run.state.output = some run.state.latestOutput) := by
  cases h with
  | atOnce _ => exact ⟨m, hflowed, nofun⟩
  | completed ticks _ _ => exact ⟨m, hflowed, fun _ => ⟨rfl, rfl⟩⟩
  | exhausted ticks _ => exact ⟨m, hflowed, nofun⟩
  | failed ticks n rest c r m' hturn _ => exact ⟨m', hflowed.turn hsame hturn, nofun⟩
  | cancelled ticks n rest m' _ _ => exact ⟨m, hflowed, nofun⟩
  | timedOut ticks n rest m' _ _ => exact ⟨m, hflowed, nofun⟩

end Workflow.Run
