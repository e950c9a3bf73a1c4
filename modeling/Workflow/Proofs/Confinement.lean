import Workflow.Proofs.Results
import Workflow.Proofs.Choices

/-!
Runs that stay among some ids. A result names what its node refers to or what its behaviour chose,
so nodes that neither refer to other ids nor choose them keep a run among the ids in which it began.
-/
namespace Workflow.Run

variable {σ : Type}

/-- A result names ids that its node refers to, or ids among which its behaviour chooses. -/
theorem Turn.mem_of_mem_nextNodes {nodes : List (Prepared σ)} {deadline : Option Deadline}
    {s : State} {m m' : Moment σ} {n : Prepared σ} {rest : List String} {c : Conclusion}
    {r : Result} (h : Turn nodes deadline s m n rest c r m') {ids : List String}
    (hchooses : n.behavior.ChoosesAmong ids) {x : String} (hx : x ∈ r.nextNodes) :
    x ∈ n.definition.references ∨ x ∈ ids := by
  rw [h.result] at hx
  cases houtcome : c.last.outcome with
  | error reason =>
    rw [n.result_of_error _ houtcome] at hx
    exact Or.inl (List.mem_append_left _ (List.mem_append_right _ hx))
  | ok output =>
    rw [n.result_of_ok _ houtcome] at hx
    cases hnext : output.nextNodes with
    | none =>
      rw [hnext] at hx
      exact Or.inl (List.mem_append_left _ (List.mem_append_left _ hx))
    | some next =>
      rw [hnext] at hx
      obtain ⟨world, hlast⟩ := n.exists_attempt_of_some _ _ h.concluded
      rw [hlast] at houtcome
      have hexecute := n.outcome_execute_of_attempt _ _ houtcome
      refine Or.inr (hchooses _ _ _ _ hexecute x ?_)
      rw [hnext]
      exact hx

/-- Ids that nodes do not lead out of, by what they refer to or by what they choose. -/
def Confines (nodes : List (Prepared σ)) (ids : List String) : Prop :=
  ∀ n ∈ nodes, n.id ∈ ids →
    n.behavior.ChoosesAmong ids ∧ ∀ x ∈ n.definition.references, x ∈ ids

/-- Whatever ran or waits is among some ids. -/
def State.Within (ids : List String) (s : State) : Prop := ∀ x ∈ s.executed ++ s.pending, x ∈ ids

section Within

variable {nodes : List (Prepared σ)} {ids : List String} {deadline : Option Deadline} {s s' : State}
  {m m' : Moment σ} {n : Prepared σ} {rest : List String} {c : Conclusion} {r : Result}

/-- The next id of such a run. -/
theorem State.Within.mem_of_waits (h : s.Within ids) {id : String}
    (hwaits : s.pending = id :: rest) : id ∈ ids := by
  refine h id (List.mem_append_right _ ?_)
  rw [hwaits]
  exact List.mem_cons_self

theorem State.Within.taken (h : s.Within ids) {id : String} (hwaits : s.pending = id :: rest) :
    (s.taken rest).Within ids := by
  intro x hx
  refine h x ?_
  rw [hwaits]
  rcases List.mem_append.1 hx with hran | hrest
  · exact List.mem_append_left _ hran
  · exact List.mem_append_right _ (List.mem_cons_of_mem _ hrest)

theorem State.Within.addPending (h : s.Within ids) {next : List String}
    (hnext : ∀ x ∈ next, x ∈ ids) : (s.addPending next).Within ids := by
  intro x hx
  rw [State.addPending_executed, State.addPending_pending, ← List.append_assoc] at hx
  rcases List.mem_append.1 hx with hold | hfresh
  · exact h x hold
  · exact hnext x (Text.mem_distinct.1 (List.mem_filter.1 hfresh).1)

theorem Turn.mem_ids (hturn : Turn nodes deadline s m n rest c r m') (h : s.Within ids) :
    n.id ∈ ids :=
  h.mem_of_waits hturn.waits

theorem Turn.within (hturn : Turn nodes deadline s m n rest c r m') (h : s.Within ids) :
    (s.settle rest c r).Within ids := by
  intro x hx
  simp only [State.settle, State.record] at hx
  rcases List.mem_append.1 hx with hran | hrest
  · split at hran
    · exact h x (List.mem_append_left _ hran)
    · rcases List.mem_append.1 hran with hran | hnew
      · exact h x (List.mem_append_left _ hran)
      · rw [List.mem_singleton.1 hnew, hturn.nodeId_eq]
        exact hturn.mem_ids h
  · exact h.taken hturn.waits x (List.mem_append_right _ (List.mem_filter.1 hrest).1)

variable (hconfines : Confines nodes ids)
include hconfines

theorem Turn.nextNodes_mem (hturn : Turn nodes deadline s m n rest c r m') (h : s.Within ids) :
    ∀ x ∈ r.nextNodes, x ∈ ids := by
  intro x hx
  obtain ⟨hchooses, hrefers⟩ := hconfines n hturn.mem (hturn.mem_ids h)
  exact (hturn.mem_of_mem_nextNodes hchooses hx).elim (hrefers x) id

theorem Step.within (hstep : Step nodes deadline s m s' m') (h : s.Within ids) :
    s'.Within ids := by
  cases hstep with
  | skip id rest hwaits _ => exact h.taken hwaits
  | turn n rest c r _ hturn _ =>
    exact (hturn.within h).addPending (hturn.nextNodes_mem hconfines h)

/-- A run among some ids stays there. -/
theorem Steps.within {k : Nat} (hsteps : Steps nodes deadline k s m s' m') (h : s.Within ids) :
    s'.Within ids :=
  hsteps.preserve (I := fun s _ => s.Within ids)
    (fun _ _ _ _ hstep hs => hstep.within hconfines hs) h

/-- What the results of such a run name is among the ids, too. -/
theorem Steps.nextNodes_mem {k : Nat} (hsteps : Steps nodes deadline k s m s' m')
    (h : s.Within ids) (hresults : ∀ r ∈ s.results, ∀ x ∈ r.nextNodes, x ∈ ids) :
    ∀ r ∈ s'.results, ∀ x ∈ r.nextNodes, x ∈ ids := by
  refine (hsteps.preserve (I := fun s _ => s.Within ids ∧
    ∀ r ∈ s.results, ∀ x ∈ r.nextNodes, x ∈ ids) ?_ ⟨h, hresults⟩).2
  rintro s m s' m' hstep ⟨hwithin, hresults⟩
  refine ⟨hstep.within hconfines hwithin, ?_⟩
  cases hstep with
  | skip id rest _ _ => exact hresults
  | turn n rest c r _ hturn _ =>
    intro r' hr'
    rw [State.addPending_results, State.settle_results, List.mem_append, List.mem_singleton] at hr'
    rcases hr' with hold | rfl
    · exact hresults r' hold
    · exact hturn.nextNodes_mem hconfines hwithin

end Within

/-- However a run ends, it ends among the ids of its last step. -/
theorem Finish.within {e : Engine σ} {nodes : List (Prepared σ)} {cancellation : Cancellation}
    {start : Time.Timestamp} {s : State} {m : Moment σ} {run : Ended σ}
    (hfinish : Finish e nodes cancellation start s m run) {ids : List String}
    (h : s.Within ids) : run.state.Within ids := by
  cases hfinish with
  | atOnce _ => exact h
  | completed ticks _ _ => exact h
  | exhausted ticks _ => exact h
  | failed ticks n rest c r m' hturn _ => exact hturn.within h
  | cancelled ticks n rest m' hbroken _ => exact h.taken hbroken.waits
  | timedOut ticks n rest m' hbroken _ => exact h.taken hbroken.waits

theorem within_opening {d : Definition} {ids : List String} (h : d.startNode ∈ ids)
    (input : Payload) (id : Id) (start : Time.Timestamp) :
    (opening d input id start).Within ids := by
  rintro x hx
  rw [List.mem_singleton.1 hx]
  exact h

end Workflow.Run
