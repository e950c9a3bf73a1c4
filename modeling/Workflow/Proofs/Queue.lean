import Mathlib.Data.List.Nodup
import Workflow.Proofs.FirstOccurrences
import Workflow.Run.State

/-!
What the operations on the waiting nodes do to the state of a run. Letting nodes wait appends the
first occurrences of those that neither ran nor wait and touches nothing else; recording a result
leaves the other waiting nodes in their order.
-/
namespace Workflow.Run.State

variable (s : State)

@[simp]
theorem isExecuted_iff {node : String} : s.isExecuted node = true ↔ node ∈ s.executed :=
  decide_eq_true_iff

theorem enqueue_of_mem {node : String} (h : node ∈ s.executed ++ s.pending) :
    s.enqueue node = s := by
  simp only [enqueue, isExecuted_iff, if_pos (List.mem_append.1 h)]

theorem enqueue_of_notMem {node : String} (h : node ∉ s.executed ++ s.pending) :
    s.enqueue node = { s with pending := s.pending ++ [node] } := by
  simp only [enqueue, isExecuted_iff, ← List.mem_append, if_neg h]

/-- The ids of a list that neither ran nor wait, each once. -/
def fresh (nodes : List String) : List String :=
  (Text.distinct nodes).filter (· ∉ s.executed ++ s.pending)

theorem addPending_eq (nodes : List String) :
    s.addPending nodes = { s with pending := s.pending ++ s.fresh nodes } := by
  induction nodes generalizing s with
  | nil => simp [addPending, fresh, Text.distinct]
  | cons node rest ih =>
    change (s.enqueue node).addPending rest = _
    by_cases h : node ∈ s.executed ++ s.pending
    · rw [enqueue_of_mem s h, ih s]
      have hsame : s.fresh (node :: rest) = s.fresh rest := by
        simp only [fresh, Text.distinct, List.filter_cons, h, List.filter_filter]
        apply List.filter_congr
        intro x _
        by_cases hx : x = node
        · simp [hx, h]
        · simp [hx]
      rw [hsame]
    · rw [enqueue_of_notMem s h, ih]
      have hnext : s.fresh (node :: rest) =
          node :: fresh { s with pending := s.pending ++ [node] } rest := by
        rw [fresh, Text.distinct, List.filter_cons_of_pos (by simpa using h), List.filter_filter]
        congr 1
        apply List.filter_congr
        intro x _
        simp [Bool.and_assoc]
      rw [hnext]
      simp

@[simp]
theorem addPending_nil : s.addPending [] = s := rfl

@[simp]
theorem addPending_results (nodes : List String) :
    (s.addPending nodes).results = s.results := by rw [addPending_eq]

@[simp]
theorem addPending_executed (nodes : List String) :
    (s.addPending nodes).executed = s.executed := by rw [addPending_eq]

@[simp]
theorem addPending_pending (nodes : List String) :
    (s.addPending nodes).pending = s.pending ++ s.fresh nodes := by rw [addPending_eq]

@[simp]
theorem addPending_globalState (nodes : List String) :
    (s.addPending nodes).globalState = s.globalState := by rw [addPending_eq]

theorem fresh_nodup (nodes : List String) : (s.fresh nodes).Nodup :=
  (Text.nodup_distinct nodes).sublist List.filter_sublist

theorem disjoint_fresh (nodes : List String) :
    List.Disjoint (s.executed ++ s.pending) (s.fresh nodes) := by
  intro x hx hfresh
  have hnew := (List.mem_filter.1 hfresh).2
  simp only [decide_eq_true_eq] at hnew
  exact hnew hx

/-- What has run and what waits stay without repetition when more nodes wait. -/
theorem nodup_addPending (nodes : List String) (h : (s.executed ++ s.pending).Nodup) :
    ((s.addPending nodes).executed ++ (s.addPending nodes).pending).Nodup := by
  rw [addPending_executed, addPending_pending, ← List.append_assoc]
  exact h.append (s.fresh_nodup nodes) (s.disjoint_fresh nodes)

/-- The record of a node that has just been taken from those that wait. -/
theorem record_of_taken {r : Result} (hran : r.nodeId ∉ s.executed)
    (hwaits : r.nodeId ∉ s.pending) :
    s.record r =
      { s with executed := s.executed ++ [r.nodeId], results := s.results ++ [r] } := by
  have hkept : s.pending.filter (· ≠ r.nodeId) = s.pending := by
    apply List.filter_eq_self.2
    intro x hx
    have hne : x ≠ r.nodeId := fun heq => hwaits (heq ▸ hx)
    simpa using hne
  rw [record, if_neg hran, hkept]

end Workflow.Run.State
