import Mathlib.Data.String.Basic
import Workflow.Proofs.Operations
import Workflow.Proofs.Queue

/-!
The outputs of earlier nodes. What a node sees under an id is the first output that was recorded for
it. The output of a node by its id is that of its first result; so the two differ where the first
result has no output and a later one has.
-/
namespace Workflow.Run

/-- The result that an operation records. -/
def Operation.result? : Operation → Option Result
  | .record r => some r
  | .start _ | .complete _ _ | .fail _ _ | .cancel _ | .addPending _ | .takePending
  | .store _ => none

namespace State

variable {s : State} {op : Operation} {node : String}

/-! ## Results -/

theorem result?_of_target? {target : Status} (h : op.target? = some target) :
    op.result? = none := by
  cases op with
  | record r => cases h
  | _ => rfl

theorem results_perform (s : State) (op : Operation) :
    (s.perform op).results = s.results ++ op.result?.toList := by
  rcases s.perform_cases op with ⟨target, htarget, -, hperform⟩ | ⟨target, htarget, -, hperform⟩ |
    htarget
  · rw [hperform, result?_of_target? htarget, Option.toList_none, List.append_nil]
    cases op <;> rfl
  · rw [hperform, result?_of_target? htarget, Option.toList_none, List.append_nil]
  · cases op with
    | record r => rfl
    | addPending nodes => exact (addPending_results s nodes).trans (List.append_nil _).symm
    | takePending =>
      rw [perform_takePending]
      exact (List.append_nil _).symm
    | store globalState => exact (List.append_nil _).symm
    | start now => cases htarget
    | complete output now => cases htarget
    | fail message now => cases htarget
    | cancel now => cases htarget

/-- The results of a state are those that its history records, in their order. -/
theorem results_performAll (s : State) (ops : List Operation) :
    (s.performAll ops).results = s.results ++ ops.filterMap Operation.result? := by
  induction ops generalizing s with
  | nil => exact (List.append_nil _).symm
  | cons op rest ih =>
    change ((s.perform op).performAll rest).results = _
    rw [ih, results_perform, List.append_assoc]
    cases h : op.result? with
    | none => rw [List.filterMap_cons_none h, Option.toList_none, List.nil_append]
    | some r => rw [List.filterMap_cons_some h, Option.toList_some, List.singleton_append]

/-! ## Outputs -/

theorem lookup_cons (key : String) (output : Payload) (rest : List (String × Payload)) :
    List.lookup node ((key, output) :: rest) =
      if node = key then some output else rest.lookup node := by
  by_cases h : node = key
  · rw [h, List.lookup_cons_self, if_pos rfl]
  · rw [List.lookup_cons, beq_eq_false_iff_ne.2 h, if_neg h]

/-- An output that is put under an id takes the place of what was there. -/
theorem lookup_put (other : String) (output : Payload) (entries : List (String × Payload)) :
    (outputs.put other output entries).lookup node =
      if node = other then some output else entries.lookup node := by
  induction entries with
  | nil => exact lookup_cons other output []
  | cons entry rest ih =>
    obtain ⟨key, o⟩ := entry
    by_cases hkey : key = other
    · rw [outputs.put, if_pos hkey, lookup_cons, lookup_cons, hkey]
      split <;> rfl
    by_cases hlt : other < key
    · rw [outputs.put, if_neg hkey, if_pos hlt, lookup_cons]
    · rw [outputs.put, if_neg hkey, if_neg hlt, lookup_cons, ih, lookup_cons]
      by_cases hnode : node = key
      · rw [if_pos hnode, if_neg (fun h => hkey (hnode.symm.trans h)), if_pos hnode]
      · rw [if_neg hnode, if_neg hnode]

/-- The entries after an output was put under an id are that one and those of other ids. -/
theorem mem_put_iff {other : String} {output : Payload} {entries : List (String × Payload)}
    (h : entries.Pairwise (·.1 < ·.1)) {entry : String × Payload} :
    entry ∈ outputs.put other output entries ↔
      entry = (other, output) ∨ entry.1 ≠ other ∧ entry ∈ entries := by
  induction entries with
  | nil => simp [outputs.put]
  | cons first rest ih =>
    obtain ⟨key, o⟩ := first
    obtain ⟨hfirst, hrest⟩ := List.pairwise_cons.1 h
    by_cases hkey : key = other
    · subst hkey
      have hne (hmem : entry ∈ rest) : entry.1 ≠ key := (hfirst entry hmem).ne'
      rw [outputs.put, if_pos rfl, List.mem_cons, List.mem_cons]
      grind
    by_cases hlt : other < key
    · have hne (hmem : entry ∈ rest) : entry.1 ≠ other := (hlt.trans (hfirst entry hmem)).ne'
      rw [outputs.put, if_neg hkey, if_pos hlt, List.mem_cons, List.mem_cons]
      grind
    · rw [outputs.put, if_neg hkey, if_neg hlt, List.mem_cons, ih hrest, List.mem_cons]
      grind

theorem pairwise_put {other : String} {output : Payload} {entries : List (String × Payload)}
    (h : entries.Pairwise (·.1 < ·.1)) :
    (outputs.put other output entries).Pairwise (·.1 < ·.1) := by
  induction entries with
  | nil => exact List.pairwise_singleton _ _
  | cons entry rest ih =>
    obtain ⟨key, o⟩ := entry
    obtain ⟨hfirst, hrest⟩ := List.pairwise_cons.1 h
    by_cases hkey : key = other
    · rw [outputs.put, if_pos hkey, ← hkey]
      exact List.pairwise_cons.2 ⟨hfirst, hrest⟩
    by_cases hlt : other < key
    · rw [outputs.put, if_neg hkey, if_pos hlt]
      refine List.pairwise_cons.2 ⟨List.forall_mem_cons.2 ⟨hlt, fun entry hentry => ?_⟩, h⟩
      exact lt_trans hlt (hfirst entry hentry)
    · rw [outputs.put, if_neg hkey, if_neg hlt]
      refine List.pairwise_cons.2 ⟨fun entry hentry => ?_, ih hrest⟩
      rcases (mem_put_iff hrest).1 hentry with rfl | ⟨-, hmem⟩
      · exact lt_of_le_of_ne (not_lt.1 hlt) hkey
      · exact hfirst entry hmem

theorem pairwise_outputs (results : List Result) : (outputs results).Pairwise (·.1 < ·.1) := by
  induction results with
  | nil => exact List.Pairwise.nil
  | cons r rest ih =>
    rw [outputs]
    cases r.output with
    | none => exact ih
    | some output => exact pairwise_put ih

theorem nodup_outputs (results : List Result) : ((outputs results).map Prod.fst).Nodup := by
  rw [List.nodup_iff_pairwise_ne, List.pairwise_map]
  exact (pairwise_outputs results).imp ne_of_lt

/-- When no node has two results, the outputs are those of the results. -/
theorem mem_outputs {results : List Result} (h : (results.map Result.nodeId).Nodup)
    {output : Payload} :
    (node, output) ∈ outputs results ↔
      ∃ r ∈ results, r.nodeId = node ∧ r.output = some output := by
  induction results with
  | nil => simp [outputs]
  | cons r rest ih =>
    obtain ⟨hnew, hrest⟩ := List.nodup_cons.1 h
    have hother : (node, output) ∈ outputs rest → node ≠ r.nodeId := by
      intro hmem hnode
      obtain ⟨r', hr', hid, -⟩ := (ih hrest).1 hmem
      exact hnew (hnode ▸ hid ▸ List.mem_map_of_mem hr')
    rw [outputs, List.exists_mem_cons_iff]
    cases r.output with
    | none =>
      rw [← ih hrest]
      simp
    | some o =>
      rw [← ih hrest]
      change _ ∈ outputs.put r.nodeId o (outputs rest) ↔ _
      rw [mem_put_iff (pairwise_outputs rest)]
      grind

/-- Under an id stands the first output of its results. -/
theorem lookup_outputs (results : List Result) (node : String) :
    (outputs results).lookup node =
      (results.filter (·.nodeId = node)).findSome? Result.output := by
  induction results with
  | nil => rfl
  | cons r rest ih =>
    by_cases hnode : r.nodeId = node
    · have hfilter : (r :: rest).filter (·.nodeId = node) = r :: rest.filter (·.nodeId = node) :=
        List.filter_cons_of_pos (decide_eq_true hnode)
      rw [hfilter, List.findSome?_cons, outputs]
      cases r.output with
      | none => exact ih
      | some output => exact (lookup_put _ _ _).trans (if_pos hnode.symm)
    · have hfilter : (r :: rest).filter (·.nodeId = node) = rest.filter (·.nodeId = node) :=
        List.filter_cons_of_neg (by simpa using hnode)
      rw [hfilter, outputs]
      cases r.output with
      | none => exact ih
      | some output => exact (lookup_put _ _ _).trans ((if_neg (Ne.symm hnode)).trans ih)

theorem nodeOutput_eq (s : State) (node : String) :
    s.nodeOutput node = (s.results.filter (·.nodeId = node)).head?.bind Result.output := by
  rw [List.head?_filter]
  rfl

/-- The first output is that of the first result just if the first result has one or none has. -/
theorem findSome?_output_eq_iff (results : List Result) :
    results.findSome? Result.output = results.head?.bind Result.output ↔
      (∃ r ∈ results.head?, r.output.isSome) ∨ ∀ r ∈ results, r.output = none := by
  cases results with
  | nil => exact iff_of_true rfl (Or.inr (List.forall_mem_nil _))
  | cons r rest =>
    rw [List.findSome?_cons, List.head?_cons, Option.bind_some]
    cases h : r.output with
    | some output => exact iff_of_true rfl (Or.inl ⟨r, rfl, by rw [h]; rfl⟩)
    | none =>
      have hfirst : ¬ ∃ r' ∈ some r, r'.output.isSome := by
        rintro ⟨_, ⟨⟩, hsome⟩
        rw [h] at hsome
        cases hsome
      rw [or_iff_right hfirst, List.forall_mem_cons, and_iff_right h]
      exact List.findSome?_eq_none_iff

/-- What a node sees of the outputs is a map in which the first output recorded for an id stands
under it, whatever was done with the state. The output of a node by its id is that of the first
result recorded for it; the two agree just if that result has an output, or no result of the node
has one. -/
theorem outputs_performAll (id : Id) (workflowId : String) (input : Payload)
    (ops : List Operation) (node : String) :
    let s := (State.new id workflowId input).performAll ops
    let results := (ops.filterMap Operation.result?).filter (·.nodeId = node)
    s.context.nodeOutputs.Pairwise (·.1 < ·.1) ∧
    s.context.nodeOutputs.lookup node = results.findSome? Result.output ∧
    s.nodeOutput node = results.head?.bind Result.output ∧
    (s.context.nodeOutputs.lookup node = s.nodeOutput node ↔
      (∃ r ∈ results.head?, r.output.isSome) ∨ ∀ r ∈ results, r.output = none) := by
  intro s results
  have hresults : s.results = ops.filterMap Operation.result? := results_performAll _ ops
  have hlookup : s.context.nodeOutputs.lookup node = results.findSome? Result.output := by
    rw [context, lookup_outputs, hresults]
  have houtput : s.nodeOutput node = results.head?.bind Result.output := by
    rw [nodeOutput_eq, hresults]
  refine ⟨pairwise_outputs s.results, hlookup, houtput, ?_⟩
  rw [hlookup, houtput]
  exact findSome?_output_eq_iff results

/-- A node that failed and then succeeded: others see its output, which it does not have by its
id. -/
theorem nodeOutput_secondTry :
    let failed : Result := ⟨"fetch", "Fetch", .error, none, some "no answer", 0, [], 1⟩
    let succeeded : Result := ⟨"fetch", "Fetch", .success, some [("n", .ofInt 1)], none, 0, [], 1⟩
    let s := (State.new ⟨List.replicate 32 '0'⟩ "wf" []).performAll
      [.record failed, .record succeeded]
    s.context.nodeOutputs.lookup "fetch" = some [("n", .ofInt 1)] ∧ s.nodeOutput "fetch" = none :=
  ⟨rfl, rfl⟩

end State

end Workflow.Run
