import Workflow.Proofs.Execution

/-!
The results of a run. Each of them is the result of one of its nodes, and a run goes on only after
results that say where to: a success, or an error with a handler.
-/
namespace Workflow.Run

variable {σ : Type}

theorem find?_id_eq_none {nodes : List (Prepared σ)} {id : String} :
    nodes.find? (·.id = id) = none ↔ id ∉ nodes.map Prepared.id := by
  rw [List.find?_eq_none, List.mem_map]
  constructor
  · rintro hnone ⟨n, hn, hid⟩
    exact hnone n hn (by simpa using hid)
  · intro hnone n hn hid
    exact hnone ⟨n, hn, by simpa using hid⟩

theorem Turn.mem {nodes : List (Prepared σ)} {deadline : Option Deadline} {s : State}
    {m m' : Moment σ} {n : Prepared σ} {rest : List String} {c : Conclusion} {r : Result}
    (h : Turn nodes deadline s m n rest c r m') : n ∈ nodes :=
  List.mem_of_find?_eq_some h.found

namespace Prepared

variable (n : Prepared σ) {c : Conclusion} (ticks : Nat)

theorem result_of_ok {output : Node.Output} (h : c.last.outcome = .ok output) :
    n.result c ticks =
      ⟨n.id, n.definition.name, .success, some output.data, none,
        (Time.Duration.ofTicks ticks).seconds, output.nextNodes.getD n.definition.nextNodes,
        c.count⟩ := by
  rw [result, h]
  rfl

theorem result_of_error {reason : Node.Error} (h : c.last.outcome = .error reason) :
    n.result c ticks =
      ⟨n.id, n.definition.name, .error, none, some reason.message,
        (Time.Duration.ofTicks ticks).seconds, n.definition.onError.toList, c.count⟩ := by
  rw [result, h]
  rfl

@[simp]
theorem result_nodeId (c : Conclusion) : (n.result c ticks).nodeId = n.id := by
  cases h : c.last.outcome with
  | ok output => rw [n.result_of_ok ticks h]
  | error reason => rw [n.result_of_error ticks h]

/-- A success has an output and an error has none. -/
theorem isSuccess_result (c : Conclusion) :
    (n.result c ticks).isSuccess = (n.result c ticks).output.isSome := by
  cases houtcome : c.last.outcome with
  | ok output =>
    rw [n.result_of_ok ticks houtcome]
    rfl
  | error reason =>
    rw [n.result_of_error ticks houtcome]
    rfl

@[simp]
theorem result_attempts (c : Conclusion) : (n.result c ticks).attempts = c.count := by
  cases h : c.last.outcome with
  | ok output => rw [n.result_of_ok ticks h]
  | error reason => rw [n.result_of_error ticks h]

end Prepared

theorem Turn.nodeId_eq {nodes : List (Prepared σ)} {deadline : Option Deadline} {s : State}
    {m m' : Moment σ} {n : Prepared σ} {rest : List String} {c : Conclusion} {r : Result}
    (h : Turn nodes deadline s m n rest c r m') : r.nodeId = n.id := by
  rw [h.result, Prepared.result_nodeId]

/-- A result of one of some nodes. -/
def Recorded (nodes : List (Prepared σ)) (r : Result) : Prop :=
  ∃ n ∈ nodes, ∃ c ticks, r = n.result c ticks

namespace Recorded

variable {nodes : List (Prepared σ)} {r : Result} (h : Recorded nodes r)
include h

/-- An error names the handler of its node and nothing else. -/
theorem nextNodes_of_error (herror : r.status = .error) :
    ∃ n ∈ nodes, r.nodeId = n.id ∧ r.nextNodes = n.definition.onError.toList := by
  obtain ⟨n, hn, c, ticks, rfl⟩ := h
  refine ⟨n, hn, n.result_nodeId ticks c, ?_⟩
  cases houtcome : c.last.outcome with
  | ok output =>
    rw [n.result_of_ok ticks houtcome] at herror
    cases herror
  | error reason => rw [n.result_of_error ticks houtcome]

end Recorded

theorem Turn.recorded {nodes : List (Prepared σ)} {deadline : Option Deadline} {s : State}
    {m m' : Moment σ} {n : Prepared σ} {rest : List String} {c : Conclusion} {r : Result}
    (h : Turn nodes deadline s m n rest c r m') : Recorded nodes r :=
  ⟨n, h.mem, c, _, h.result⟩

theorem Step.results_goOn {nodes : List (Prepared σ)} {deadline : Option Deadline} {s s' : State}
    {m m' : Moment σ} (hstep : Step nodes deadline s m s' m')
    (h : ∀ r ∈ s.results, Recorded nodes r ∧ r.goesOn = true) :
    ∀ r ∈ s'.results, Recorded nodes r ∧ r.goesOn = true := by
  cases hstep with
  | skip => exact h
  | turn n rest c r _ hturn hgoes =>
    intro r' hr'
    rw [State.addPending_results, State.settle_results, List.mem_append, List.mem_singleton] at hr'
    rcases hr' with hold | rfl
    · exact h r' hold
    · exact ⟨hturn.recorded, hgoes⟩

/-- The results while nodes run: the run went on after each of them. -/
theorem Steps.results_goOn {nodes : List (Prepared σ)} {deadline : Option Deadline} {k : Nat}
    {s s' : State} {m m' : Moment σ} (hsteps : Steps nodes deadline k s m s' m')
    (h : ∀ r ∈ s.results, Recorded nodes r ∧ r.goesOn = true) :
    ∀ r ∈ s'.results, Recorded nodes r ∧ r.goesOn = true :=
  hsteps.preserve (I := fun s _ => ∀ r ∈ s.results, Recorded nodes r ∧ r.goesOn = true)
    (fun _ _ _ _ hstep hs => hstep.results_goOn hs) h

end Workflow.Run
