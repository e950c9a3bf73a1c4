import Workflow.Proofs.Attempts
import Workflow.Proofs.Queue
import Workflow.Run.Traversal

/-!
A traversal as single steps. A step skips an id that no node has, or lets a node take its turn and
its successors wait. A traversal takes some steps and then halts in one of four ways, so whatever a
step preserves holds when it halts.
-/
namespace Workflow.Run

variable {σ : Type}

namespace State

variable (s : State) (rest : List String)

/-- The state when the first node that waits has been taken. -/
def taken : State := { s with pending := rest }

/-- The state when the node that was taken has its result recorded. -/
def settle (c : Conclusion) (r : Result) : State :=
  State.record { s.taken rest with globalState := Prepared.globalState c s.globalState } r

@[simp]
theorem taken_pending : (s.taken rest).pending = rest := rfl

@[simp]
theorem taken_executed : (s.taken rest).executed = s.executed := rfl

@[simp]
theorem taken_results : (s.taken rest).results = s.results := rfl

@[simp]
theorem taken_latestOutput : (s.taken rest).latestOutput = s.latestOutput := rfl

@[simp]
theorem taken_context : (s.taken rest).context = s.context := rfl

@[simp]
theorem settle_results (c : Conclusion) (r : Result) :
    (s.settle rest c r).results = s.results ++ [r] := rfl

@[simp]
theorem settle_globalState (c : Conclusion) (r : Result) :
    (s.settle rest c r).globalState = Prepared.globalState c s.globalState := rfl

variable {s rest}

theorem nextPending_of_nil (h : s.pending = []) : s.nextPending = none := by
  rw [nextPending, h]

theorem nextPending_of_cons {id : String} (h : s.pending = id :: rest) :
    s.nextPending = some (id, s.taken rest) := by
  rw [nextPending, h]
  rfl

end State

/-- A node takes its turn: it is the first one that waits, and its attempts come to a
conclusion. -/
structure Turn (nodes : List (Prepared σ)) (deadline : Option Deadline) (s : State) (m : Moment σ)
    (n : Prepared σ) (rest : List String) (c : Conclusion) (r : Result) (m' : Moment σ) :
    Prop where
  waits : s.pending = n.id :: rest
  found : nodes.find? (·.id = n.id) = some n
  concluded :
    n.attempts s.latestOutput s.context deadline (n.maxAttempts - 1) 0 m = (some c, m')
  result : r = n.result c (m'.clock - m.clock)

/-- A node is broken off in its turn: its attempts come to no conclusion. -/
structure BrokenOff (nodes : List (Prepared σ)) (deadline : Option Deadline) (s : State)
    (m : Moment σ) (n : Prepared σ) (rest : List String) (m' : Moment σ) : Prop where
  waits : s.pending = n.id :: rest
  found : nodes.find? (·.id = n.id) = some n
  open_ended : n.attempts s.latestOutput s.context deadline (n.maxAttempts - 1) 0 m = (none, m')

/-- What a traversal does before it goes on. -/
inductive Step (nodes : List (Prepared σ)) (deadline : Option Deadline) :
    State → Moment σ → State → Moment σ → Prop
  | skip (s : State) (m : Moment σ) (id : String) (rest : List String)
      (hwaits : s.pending = id :: rest) (hnone : nodes.find? (·.id = id) = none) :
      Step nodes deadline s m (s.taken rest) m
  | turn (s : State) (m : Moment σ) (n : Prepared σ) (rest : List String) (c : Conclusion)
      (r : Result) (m' : Moment σ) (hturn : Turn nodes deadline s m n rest c r m')
      (hgoes : r.goesOn = true) :
      Step nodes deadline s m ((s.settle rest c r).addPending r.nextNodes) m'

/-- A number of steps, one after the other. -/
inductive Steps (nodes : List (Prepared σ)) (deadline : Option Deadline) :
    Nat → State → Moment σ → State → Moment σ → Prop
  | nil (s : State) (m : Moment σ) : Steps nodes deadline 0 s m s m
  | cons {k : Nat} {s s' s'' : State} {m m' m'' : Moment σ} :
      Step nodes deadline s m s' m' → Steps nodes deadline k s' m' s'' m'' →
        Steps nodes deadline (k + 1) s m s'' m''

/-- How a traversal halts that may take a number of ids more. -/
inductive Halts (nodes : List (Prepared σ)) (deadline : Option Deadline) (limit : Nat) :
    Nat → State → Moment σ → Traversal σ → Prop
  | drained (left : Nat) (s : State) (m : Moment σ) (hempty : s.pending = []) :
      Halts nodes deadline limit left s m ⟨.finished, s, m⟩
  | exhausted (s : State) (m : Moment σ) (hwaits : s.pending ≠ []) :
      Halts nodes deadline limit 0 s m ⟨.failed (.iterationLimit limit), s, m⟩
  | interrupted (left : Nat) (s : State) (m : Moment σ) (n : Prepared σ) (rest : List String)
      (m' : Moment σ) (hbroken : BrokenOff nodes deadline s m n rest m') :
      Halts nodes deadline limit (left + 1) s m ⟨.interrupted, s.taken rest, m'⟩
  | failed (left : Nat) (s : State) (m : Moment σ) (n : Prepared σ) (rest : List String)
      (c : Conclusion) (r : Result) (m' : Moment σ)
      (hturn : Turn nodes deadline s m n rest c r m') (hstops : r.goesOn = false) :
      Halts nodes deadline limit (left + 1) s m
        ⟨.failed (.node r.nodeId (r.error.getD "")), s.settle rest c r, m'⟩

section Equations

variable {nodes : List (Prepared σ)} {deadline : Option Deadline} {limit left : Nat} {s : State}
  {m m' : Moment σ} {n : Prepared σ} {c : Conclusion} {r : Result} {id : String}
  {rest : List String}

theorem traverse_of_nil (left : Nat) (h : s.pending = []) :
    traverse nodes deadline limit left s m = ⟨.finished, s, m⟩ := by
  cases left with
  | zero => simp [traverse, State.hasPending, h]
  | succ left => simp [traverse, State.nextPending_of_nil h]

theorem traverse_zero_of_ne_nil (h : s.pending ≠ []) :
    traverse nodes deadline limit 0 s m = ⟨.failed (.iterationLimit limit), s, m⟩ := by
  have hwaits : s.hasPending = true := by simpa [State.hasPending] using h
  rw [traverse, if_pos hwaits]

theorem traverse_of_skip (h : s.pending = id :: rest) (hnone : nodes.find? (·.id = id) = none) :
    traverse nodes deadline limit (left + 1) s m =
      traverse nodes deadline limit left (s.taken rest) m := by
  rw [traverse, State.nextPending_of_cons h]
  simp only [hnone]

theorem traverse_of_turn (h : Turn nodes deadline s m n rest c r m') :
    traverse nodes deadline limit (left + 1) s m =
      if r.goesOn then
        traverse nodes deadline limit left ((s.settle rest c r).addPending r.nextNodes) m'
      else ⟨.failed (.node r.nodeId (r.error.getD "")), s.settle rest c r, m'⟩ := by
  obtain ⟨hwaits, hfound, hconcluded, rfl⟩ := h
  rw [traverse, State.nextPending_of_cons hwaits]
  simp only [hfound, State.taken_latestOutput, Prepared.run, State.taken_context, hconcluded]
  rfl

theorem traverse_of_brokenOff (h : BrokenOff nodes deadline s m n rest m') :
    traverse nodes deadline limit (left + 1) s m = ⟨.interrupted, s.taken rest, m'⟩ := by
  rw [traverse, State.nextPending_of_cons h.waits]
  simp only [h.found, State.taken_latestOutput, Prepared.run, State.taken_context, h.open_ended]
  rfl

/-- The first node that waits is unknown, takes its turn or is broken off. -/
theorem taken_cases (nodes : List (Prepared σ)) (deadline : Option Deadline) (m : Moment σ)
    (h : s.pending = id :: rest) :
    nodes.find? (·.id = id) = none ∨ (∃ n c r m', Turn nodes deadline s m n rest c r m') ∨
      ∃ n m', BrokenOff nodes deadline s m n rest m' := by
  cases hfound : nodes.find? (·.id = id) with
  | none => exact Or.inl rfl
  | some n =>
    obtain rfl : n.id = id := by simpa using List.find?_some hfound
    cases hrun : n.attempts s.latestOutput s.context deadline (n.maxAttempts - 1) 0 m with
    | mk conclusion m' =>
      cases conclusion with
      | none => exact Or.inr (Or.inr ⟨n, m', h, hfound, hrun⟩)
      | some c => exact Or.inr (Or.inl ⟨n, c, _, m', h, hfound, hrun, rfl⟩)

end Equations

/-- A traversal is some steps and a halt. -/
theorem traverse_halts (nodes : List (Prepared σ)) (deadline : Option Deadline) (limit left : Nat)
    (s : State) (m : Moment σ) :
    ∃ k s' m', k ≤ left ∧ Steps nodes deadline k s m s' m' ∧
      Halts nodes deadline limit (left - k) s' m' (traverse nodes deadline limit left s m) := by
  induction left generalizing s m with
  | zero =>
    refine ⟨0, s, m, Nat.le_refl 0, .nil s m, ?_⟩
    by_cases hempty : s.pending = []
    · rw [traverse_of_nil 0 hempty]
      exact .drained _ s m hempty
    · rw [traverse_zero_of_ne_nil hempty]
      exact .exhausted s m hempty
  | succ left ih =>
    -- One step more in front of the steps of the rest, whose bound is one less.
    have hcons {s₁ : State} {m₁ : Moment σ} (hstep : Step nodes deadline s m s₁ m₁)
        (heq : traverse nodes deadline limit (left + 1) s m =
          traverse nodes deadline limit left s₁ m₁) :
        ∃ k s' m', k ≤ left + 1 ∧ Steps nodes deadline k s m s' m' ∧
          Halts nodes deadline limit (left + 1 - k) s' m'
            (traverse nodes deadline limit (left + 1) s m) := by
      obtain ⟨k, s', m', hk, hsteps, hhalts⟩ := ih s₁ m₁
      refine ⟨k + 1, s', m', Nat.succ_le_succ hk, .cons hstep hsteps, ?_⟩
      rw [heq, Nat.succ_sub_succ]
      exact hhalts
    cases hpending : s.pending with
    | nil =>
      refine ⟨0, s, m, Nat.zero_le _, .nil s m, ?_⟩
      rw [traverse_of_nil (left + 1) hpending]
      exact .drained _ s m hpending
    | cons id rest =>
      rcases taken_cases nodes deadline m hpending with
        hnone | ⟨n, c, r, m', hturn⟩ | ⟨n, m', hbroken⟩
      · exact hcons (.skip s m id rest hpending hnone) (traverse_of_skip hpending hnone)
      · cases hgoes : r.goesOn with
        | true =>
          refine hcons (.turn s m n rest c r m' hturn hgoes) ?_
          rw [traverse_of_turn hturn, hgoes, if_pos rfl]
        | false =>
          refine ⟨0, s, m, Nat.zero_le _, .nil s m, ?_⟩
          rw [traverse_of_turn hturn, hgoes]
          exact .failed left s m n rest c r m' hturn hgoes
      · refine ⟨0, s, m, Nat.zero_le _, .nil s m, ?_⟩
        rw [traverse_of_brokenOff hbroken]
        exact .interrupted left s m n rest m' hbroken

/-- A traversal that has taken some steps goes on from there with the ids that are left to take. -/
theorem Steps.traverse_eq {nodes : List (Prepared σ)} {deadline : Option Deadline} {k : Nat}
    {s s' : State} {m m' : Moment σ} (h : Steps nodes deadline k s m s' m') (limit left : Nat) :
    traverse nodes deadline limit (left + k) s m = traverse nodes deadline limit left s' m' := by
  induction h with
  | nil s m => rfl
  | cons hfirst _ ih =>
    rw [← ih]
    cases hfirst with
    | skip id rest hwaits hnone => exact traverse_of_skip hwaits hnone
    | turn n rest c r m' hturn hgoes =>
      rw [← Nat.add_assoc, traverse_of_turn hturn, hgoes, if_pos rfl]

/-- What every step preserves, steps in a row preserve. -/
theorem Steps.preserve {nodes : List (Prepared σ)} {deadline : Option Deadline}
    {I : State → Moment σ → Prop}
    (hstep : ∀ s m s' m', Step nodes deadline s m s' m' → I s m → I s' m')
    {k : Nat} {s s' : State} {m m' : Moment σ} (hsteps : Steps nodes deadline k s m s' m')
    (h : I s m) : I s' m' := by
  induction hsteps with
  | nil s m => exact h
  | cons hfirst _ ih => exact ih (hstep _ _ _ _ hfirst h)

end Workflow.Run
