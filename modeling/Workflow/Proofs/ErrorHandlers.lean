import Workflow.Proofs.Schedule

/-!
The error handlers of a run. In a run that completes every error names the handler of its node, and
that handler has run when the run ends. It ran after the error unless it had its turn before: a node
runs once, so a handler that ran already does not handle what fails later.
-/
namespace Workflow.Run

variable {σ : Type}

namespace Result

def RanBy (results : List Result) (i : Nat) (node : String) : Prop :=
  ∃ r ∈ results.take (i + 1), r.nodeId = node

def RunsAfter (results : List Result) (i : Nat) (node : String) : Prop :=
  ∃ r ∈ results.drop (i + 1), r.nodeId = node

instance (results : List Result) (i : Nat) (node : String) : Decidable (RanBy results i node) :=
  inferInstanceAs (Decidable (∃ r ∈ results.take (i + 1), r.nodeId = node))

instance (results : List Result) (i : Nat) (node : String) :
    Decidable (RunsAfter results i node) :=
  inferInstanceAs (Decidable (∃ r ∈ results.drop (i + 1), r.nodeId = node))

variable {results : List Result} {i : Nat} {node : String}

theorem ranBy_or_runsAfter (h : node ∈ results.map nodeId) :
    RanBy results i node ∨ RunsAfter results i node := by
  obtain ⟨r, hr, hid⟩ := List.mem_map.1 h
  rw [← List.take_append_drop (i + 1) results] at hr
  rcases List.mem_append.1 hr with hearly | hlate
  · exact Or.inl ⟨r, hearly, hid⟩
  · exact Or.inr ⟨r, hlate, hid⟩

theorem not_ranBy_of_runsAfter (hnodup : (results.map nodeId).Nodup)
    (h : RunsAfter results i node) : ¬ RanBy results i node := by
  rintro ⟨early, hearly, hid⟩
  obtain ⟨late, hlate, hid'⟩ := h
  rw [← List.take_append_drop (i + 1) results, List.map_append] at hnodup
  exact (List.nodup_append.1 hnodup).2.2 _ (List.mem_map_of_mem hearly) _
    (List.mem_map_of_mem hlate) (hid.trans hid'.symm)

/-- When no node runs twice, a node that ran has its turn later just if it did not have it yet. -/
theorem runsAfter_iff (hnodup : (results.map nodeId).Nodup) (h : node ∈ results.map nodeId) :
    RunsAfter results i node ↔ ¬ RanBy results i node :=
  ⟨not_ranBy_of_runsAfter hnodup, (ranBy_or_runsAfter h).resolve_left⟩

end Result

/-- With nothing left to wait, every known id that a result names has run. -/
theorem Scheduled.mem_results {start : String} {ids : List String} {s : State}
    (h : Scheduled start ids s) (hempty : s.pending = []) {r : Result} (hr : r ∈ s.results)
    {x : String} (hx : x ∈ ids) (hnext : x ∈ r.nextNodes) :
    x ∈ s.results.map Result.nodeId := by
  have hnamed : x ∈ named start s.results :=
    List.mem_cons_of_mem _ (List.mem_flatMap.2 ⟨r, hr, hnext⟩)
  have hran := (h.mem_iff hx).2 hnamed
  rwa [hempty, List.append_nil, h.executed_eq] at hran

/-- An error after which a run went on has a handler, and names it alone. -/
theorem Recorded.handler {nodes : List (Prepared σ)} {r : Result} (h : Recorded nodes r)
    (hgoes : r.goesOn = true) (herror : r.status = .error) :
    ∃ n ∈ nodes, ∃ handler, n.id = r.nodeId ∧ n.definition.onError = some handler ∧
      r.nextNodes = [handler] := by
  obtain ⟨n, hn, hid, hnext⟩ := h.nextNodes_of_error herror
  cases hhandler : n.definition.onError with
  | some handler =>
    rw [hhandler] at hnext
    exact ⟨n, hn, handler, hid.symm, hhandler, hnext⟩
  | none =>
    rw [hhandler] at hnext
    simp [Result.goesOn, Result.isSuccess, herror, hnext] at hgoes

/-- In a completed run every error names the handler of its node alone, and that handler has a later
result exactly if it had none up to the error. -/
theorem execute_handlers {e : Engine σ} {d : Definition} {nodes : List (Prepared σ)}
    (h : e.prepare d = .ok nodes) (input : Payload) (cancellation : Cancellation) (id : Id)
    (now : Time.Timestamp) (world : σ)
    (hcompleted : (e.execute d input cancellation id now world).state.status = .completed) :
    let results := (e.execute d input cancellation id now world).state.results
    ∀ i r, results[i]? = some r → r.status = .error →
      ∃ n ∈ d.nodes, ∃ handler, n.id = r.nodeId ∧ n.onError = some handler ∧
        r.nextNodes = [handler] ∧
        (Result.RunsAfter results i handler ↔ ¬ Result.RanBy results i handler) := by
  obtain ⟨k, s, m, hsteps, hfinish⟩ := execute_finishes h input cancellation id now world
  obtain ⟨hempty, ticks, hrun⟩ := hfinish.eq_of_completed hcompleted
  rw [hrun]
  intro results i r hr herror
  have hmem : r ∈ s.results := List.mem_of_getElem? hr
  have hs := (Scheduled.opening d input id now).steps (Engine.ids_of_prepare h) hsteps
  obtain ⟨hrecorded, hgoes⟩ := hsteps.results_goOn (by simp [opening]) r hmem
  obtain ⟨n, hn, handler, hid, hhandler, hnext⟩ := hrecorded.handler hgoes herror
  have hdefinition : n.definition ∈ d.nodes :=
    Engine.definitions_of_prepare h ▸ List.mem_map_of_mem hn
  have hknown : handler ∈ d.nodeIds := by
    apply (Engine.sound_of_prepare h).references_mem _ hdefinition
    simp [NodeDefinition.references, hhandler]
  have hran : handler ∈ s.results.map Result.nodeId := by
    apply hs.mem_results hempty hmem hknown
    simp [hnext]
  exact ⟨n.definition, hdefinition, handler, hid, hhandler, hnext,
    Result.runsAfter_iff hs.nodup_results hran⟩

/-- The handler of the round trip waits already when the error lets it wait, and runs once. -/
theorem execute_handlers_roundTrip :
    ∃ nodes, roundTripEngine.prepare roundTrip = .ok nodes ∧
      let s := (roundTripEngine.execute roundTrip [] .never ⟨[]⟩ ⟨0, 0⟩ ()).state
      s.status = .completed ∧ ∃ r, s.results[2]? = some r ∧ r.status = .error ∧
        (∃ n ∈ roundTrip.nodes, ∃ handler, n.id = r.nodeId ∧ n.onError = some handler ∧
          r.nextNodes = [handler] ∧
          (Result.RunsAfter s.results 2 handler ↔ ¬ Result.RanBy s.results 2 handler)) ∧
        Result.RunsAfter s.results 2 "join" := by
  obtain ⟨nodes, h⟩ : ∃ nodes, roundTripEngine.prepare roundTrip = .ok nodes := ⟨_, rfl⟩
  have hcompleted :
      (roundTripEngine.execute roundTrip [] .never ⟨[]⟩ ⟨0, 0⟩ ()).state.status = .completed := by
    decide +kernel
  have hresult : (roundTripEngine.execute roundTrip [] .never ⟨[]⟩ ⟨0, 0⟩
      ()).state.results[2]?.map Result.status = some .error := by decide +kernel
  obtain ⟨r, hr, herror⟩ := Option.map_eq_some_iff.1 hresult
  have hhandlers := execute_handlers h [] .never ⟨[]⟩ ⟨0, 0⟩ () hcompleted 2 r hr herror
  exact ⟨nodes, h, hcompleted, r, hr, herror, hhandlers, by decide +kernel⟩

def backToFetch : Definition where
  id := "back-to-fetch"
  startNode := "fetch"
  nodes :=
    [{ id := "fetch", name := "Fetch", nodeType := "echo", nextNodes := ["store"] },
      { id := "store", name := "Store", nodeType := "fault", onError := some "fetch" }]

/-- A run completes although no handler runs after its error. -/
theorem execute_unhandled_backToFetch :
    ∃ nodes, roundTripEngine.prepare backToFetch = .ok nodes ∧
      let s := (roundTripEngine.execute backToFetch [] .never ⟨[]⟩ ⟨0, 0⟩ ()).state
      s.status = .completed ∧ ∃ r, s.results[1]? = some r ∧ r.status = .error ∧
        r.nextNodes = ["fetch"] ∧ ¬ Result.RunsAfter s.results 1 "fetch" := by
  obtain ⟨nodes, h⟩ : ∃ nodes, roundTripEngine.prepare backToFetch = .ok nodes := ⟨_, rfl⟩
  have hresult : (roundTripEngine.execute backToFetch [] .never ⟨[]⟩ ⟨0, 0⟩
      ()).state.results[1]?.map (fun r => (r.status, r.nextNodes)) = some (.error, ["fetch"]) := by
    decide +kernel
  obtain ⟨r, hr, heq⟩ := Option.map_eq_some_iff.1 hresult
  obtain ⟨herror, hnext⟩ := Prod.mk.inj heq
  exact ⟨nodes, h, by decide +kernel, r, hr, herror, hnext, by decide +kernel⟩

end Workflow.Run
