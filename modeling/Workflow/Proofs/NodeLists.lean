import Workflow.Proofs.Operations
import Workflow.Proofs.Queue

/-!
The lists of nodes in the state of a run. Whatever is done with a state, and in whatever order, no
node waits twice or waits after it ran, and what ran are the first occurrences of the nodes of the
results; recording and taking keep this up just as letting nodes wait does.
-/
namespace Workflow.Run.State

/-- The lists of nodes fit together and fit the results. -/
structure Orderly (s : State) : Prop where
  pending_nodup : s.pending.Nodup
  disjoint : List.Disjoint s.executed s.pending
  executed_eq : s.executed = Text.distinct (s.results.map Result.nodeId)

structure SameNodes (s s' : State) : Prop where
  pending : s'.pending = s.pending
  executed : s'.executed = s.executed
  results : s'.results = s.results

/-- A step of life is not about nodes. -/
theorem sameNodes_advanced (s : State) (op : Operation) : s.SameNodes (s.advanced op) := by
  cases op <;> exact ⟨rfl, rfl, rfl⟩

namespace Orderly

variable {s s' : State}

theorem new (id : Id) (workflowId : String) (input : Payload) :
    (State.new id workflowId input).Orderly where
  pending_nodup := List.nodup_nil
  disjoint := List.disjoint_nil_left _
  executed_eq := rfl

theorem of_sameNodes (h : s.Orderly) (hsame : s.SameNodes s') : s'.Orderly where
  pending_nodup := hsame.pending ▸ h.pending_nodup
  disjoint := hsame.executed ▸ hsame.pending ▸ h.disjoint
  executed_eq := by rw [hsame.executed, hsame.results, h.executed_eq]

theorem executed_nodup (h : s.Orderly) : s.executed.Nodup := by
  rw [h.executed_eq]
  exact Text.nodup_distinct _

theorem nodup (h : s.Orderly) : (s.executed ++ s.pending).Nodup :=
  h.executed_nodup.append h.pending_nodup h.disjoint

/-- Recording marks a node that is not marked yet, and takes it from those that wait. -/
theorem record (h : s.Orderly) (r : Result) : (s.record r).Orderly where
  pending_nodup := h.pending_nodup.filter _
  disjoint := by
    intro x hran hwaits
    obtain ⟨hwaited, hne⟩ := List.mem_filter.1 hwaits
    have hother : x ≠ r.nodeId := of_decide_eq_true hne
    change x ∈ (if r.nodeId ∈ s.executed then s.executed else s.executed ++ [r.nodeId]) at hran
    split at hran
    · exact h.disjoint hran hwaited
    · rcases List.mem_append.1 hran with hold | hnew
      · exact h.disjoint hold hwaited
      · exact hother (List.mem_singleton.1 hnew)
  executed_eq := by
    change (if r.nodeId ∈ s.executed then s.executed else s.executed ++ [r.nodeId]) =
      Text.distinct ((s.results ++ [r]).map Result.nodeId)
    rw [List.map_append, List.map_singleton, Text.distinct_append, ← h.executed_eq,
      Text.distinct, Text.distinct, List.filter_nil]
    -- The node is a first occurrence just if no earlier result is its own.
    have hmem : r.nodeId ∈ s.results.map Result.nodeId ↔ r.nodeId ∈ s.executed := by
      rw [h.executed_eq, Text.mem_distinct]
    by_cases hran : r.nodeId ∈ s.executed
    · have hold := hmem.2 hran
      rw [if_pos hran, List.filter_cons_of_neg (by simpa using hold), List.filter_nil,
        List.append_nil]
    · have hnew : r.nodeId ∉ s.results.map Result.nodeId := fun hold => hran (hmem.1 hold)
      rw [if_neg hran, List.filter_cons_of_pos (by simpa using hnew), List.filter_nil]

theorem addPending (h : s.Orderly) (nodes : List String) : (s.addPending nodes).Orderly := by
  obtain ⟨-, hpending, hdisjoint⟩ := List.nodup_append'.1 (s.nodup_addPending nodes h.nodup)
  refine ⟨hpending, hdisjoint, ?_⟩
  rw [addPending_executed, addPending_results, h.executed_eq]

theorem tail (h : s.Orderly) : ({ s with pending := s.pending.tail } : State).Orderly where
  pending_nodup := h.pending_nodup.sublist (List.tail_sublist _)
  disjoint := fun _ hran hwaits => h.disjoint hran (List.mem_of_mem_tail hwaits)
  executed_eq := h.executed_eq

theorem perform (h : s.Orderly) (op : Operation) : (s.perform op).Orderly := by
  rcases s.perform_cases op with ⟨target, -, -, hperform⟩ | ⟨target, -, -, hperform⟩ | hnone
  · rw [hperform]
    exact h.of_sameNodes (s.sameNodes_advanced op)
  · rw [hperform]
    exact h
  · cases op with
    | start now => cases hnone
    | complete output now => cases hnone
    | fail message now => cases hnone
    | cancel now => cases hnone
    | record r => exact h.record r
    | addPending nodes => exact h.addPending nodes
    | takePending =>
      rw [perform_takePending]
      exact h.tail
    | store globalState => exact h.of_sameNodes ⟨rfl, rfl, rfl⟩

end Orderly

/-- Nodes that wait once wait no more than once. -/
theorem addPending_addPending (s : State) (nodes : List String) :
    (s.addPending nodes).addPending nodes = s.addPending nodes := by
  have hnone : (s.addPending nodes).fresh nodes = [] := by
    rw [fresh, List.filter_eq_nil_iff]
    intro x hx hfresh
    have hnew : x ∉ (s.addPending nodes).executed ++ (s.addPending nodes).pending :=
      of_decide_eq_true hfresh
    rw [addPending_executed, addPending_pending, ← List.append_assoc, List.mem_append,
      not_or] at hnew
    exact hnew.2 (List.mem_filter.2 ⟨hx, decide_eq_true hnew.1⟩)
  rw [addPending_eq, hnone, List.append_nil]

/-- The lists of nodes after any history of operations. No node waits twice, none waits that ran,
and those that ran are the first occurrences of the nodes of the results. Letting nodes wait appends
the first occurrences of those that neither ran nor wait, in their order, and changes nothing else;
doing so again changes nothing. -/
theorem nodes_performAll (id : Id) (workflowId : String) (input : Payload)
    (ops : List Operation) :
    let s := (State.new id workflowId input).performAll ops
    s.pending.Nodup ∧ List.Disjoint s.executed s.pending ∧ s.executed.Nodup ∧
    s.executed = Text.distinct (s.results.map Result.nodeId) ∧
    ∀ nodes, s.addPending nodes =
        { s with
          pending := s.pending ++
            (Text.distinct nodes).filter fun x => x ∉ s.executed ∧ x ∉ s.pending } ∧
      (s.addPending nodes).addPending nodes = s.addPending nodes := by
  intro s
  have horderly : s.Orderly :=
    performAll_preserve (fun _ op h => h.perform op) ops (.new id workflowId input)
  refine ⟨horderly.pending_nodup, horderly.disjoint, horderly.executed_nodup,
    horderly.executed_eq, fun nodes => ⟨?_, addPending_addPending s nodes⟩⟩
  rw [addPending_eq, fresh]
  simp only [List.mem_append, not_or]

/-- A node that is recorded while it waits, a node that was never queued, and a node that is queued
twice at once. -/
example :
    let r : Result := ⟨"b", "B", .success, some [], none, 0, [], 1⟩
    let s := (State.new ⟨[]⟩ "w" []).performAll
      [.addPending ["a", "b", "a"], .record r, .record { r with nodeId := "c" }, .record r,
        .addPending ["c", "a", "d", "d"]]
    s.executed = ["b", "c"] ∧ s.pending = ["a", "d"] := by
  decide +kernel

end Workflow.Run.State
