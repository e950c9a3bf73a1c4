import Workflow.Proofs.BreadthFirst
import Workflow.Proofs.Results

/-!
The schedule of a run. The nodes that ran, the node that is in flight and the nodes that wait are
together the first occurrences of all ids that were ever named, in the order in which they were
named; ids of no node aside, nothing is lost and nothing runs twice. A run that completes has
visited what can be reached from its start, in breadth-first order.
-/
namespace Workflow.Run

variable {σ : Type}

/-- The ids that were named up to some results: the start node, then the successors of each. -/
def named (start : String) (results : List Result) : List String :=
  start :: results.flatMap Result.nextNodes

theorem named_append (start : String) (earlier later : List Result) :
    named start (earlier ++ later) = named start earlier ++ later.flatMap Result.nextNodes := by
  rw [named, List.flatMap_append]
  rfl

/-- The queue of a run against the ids that were named. -/
structure Scheduled (start : String) (ids : List String) (s : State) : Prop where
  executed_eq : s.executed = s.results.map Result.nodeId
  known : ∀ x ∈ s.executed, x ∈ ids
  nodup : (s.executed ++ s.pending).Nodup
  queue_eq : (s.executed ++ s.pending).filter (· ∈ ids) =
    (Text.distinct (named start s.results)).filter (· ∈ ids)
  named_before : ∀ before r after, s.results = before ++ r :: after →
    r.nodeId ∈ named start before

namespace Scheduled

variable {start : String} {ids : List String} {s : State}

theorem nodup_results (h : Scheduled start ids s) : (s.results.map Result.nodeId).Nodup := by
  rw [← h.executed_eq]
  exact (List.nodup_append.1 h.nodup).1

theorem mem_iff (h : Scheduled start ids s) {x : String} (hx : x ∈ ids) :
    x ∈ s.executed ++ s.pending ↔ x ∈ named start s.results := by
  have hmem : x ∈ (s.executed ++ s.pending).filter (· ∈ ids) ↔
      x ∈ (Text.distinct (named start s.results)).filter (· ∈ ids) := by rw [h.queue_eq]
  simpa [hx, Text.mem_distinct] using hmem

theorem opening (d : Definition) (input : Payload) (id : Id) (now : Time.Timestamp) :
    Scheduled d.startNode d.nodeIds (opening d input id now) where
  executed_eq := rfl
  known := by simp [Run.opening]
  nodup := List.nodup_singleton _
  queue_eq := rfl
  named_before := by
    intro before r after hresults
    simp [Run.opening] at hresults

/-- Skipping an unknown id loses nothing that is known. -/
theorem skip (h : Scheduled start ids s) {id : String} {rest : List String}
    (hwaits : s.pending = id :: rest) (hunknown : id ∉ ids) :
    Scheduled start ids (s.taken rest) where
  executed_eq := h.executed_eq
  known := h.known
  nodup := by
    have hsub : (s.executed ++ rest).Sublist (s.executed ++ s.pending) := by
      rw [hwaits]
      exact (List.sublist_cons_self id rest).append_left s.executed
    exact h.nodup.sublist hsub
  queue_eq := by
    have hqueue := h.queue_eq
    rw [hwaits, List.filter_append, List.filter_cons_of_neg (by simpa using hunknown)] at hqueue
    rw [State.taken_executed, State.taken_pending, List.filter_append]
    exact hqueue
  named_before := h.named_before

/-- The settled state, when the node that was taken had not run before. -/
theorem settle_eq (h : Scheduled start ids s) {rest : List String} {r : Result}
    (hwaits : s.pending = r.nodeId :: rest) (c : Conclusion) :
    s.settle rest c r =
      { s.taken rest with
        globalState := Prepared.globalState c s.globalState
        executed := s.executed ++ [r.nodeId]
        results := s.results ++ [r] } := by
  have hnodup := h.nodup
  rw [hwaits] at hnodup
  obtain ⟨-, hpending, hdisjoint⟩ := List.nodup_append.1 hnodup
  have hran : r.nodeId ∉ s.executed := fun hmem => hdisjoint _ hmem _ List.mem_cons_self rfl
  exact State.record_of_taken _ hran (List.nodup_cons.1 hpending).1

/-- The queue does not change when the result of its first node is recorded. -/
theorem settle_queue (h : Scheduled start ids s) {rest : List String} {r : Result}
    (hwaits : s.pending = r.nodeId :: rest) (c : Conclusion) :
    (s.settle rest c r).executed ++ (s.settle rest c r).pending = s.executed ++ s.pending := by
  rw [h.settle_eq hwaits c, hwaits]
  simp

/-- What is new to the queue is new to the named ids, unknown ids aside. -/
theorem filter_fresh (h : Scheduled start ids s) {s' : State}
    (hqueue : s'.executed ++ s'.pending = s.executed ++ s.pending) (nodes : List String) :
    (s'.fresh nodes).filter (· ∈ ids) =
      ((Text.distinct nodes).filter (· ∉ named start s.results)).filter (· ∈ ids) := by
  rw [State.fresh, hqueue, List.filter_filter, List.filter_filter]
  apply List.filter_congr
  intro x _
  by_cases hx : x ∈ ids
  · simp only [hx, h.mem_iff hx]
  · simp only [hx, decide_false, Bool.false_and]

/-- A turn moves its node from the queue to those that ran, and what its result names that is new
goes to the end of the queue. -/
theorem turn (h : Scheduled start ids s) {rest : List String} {r : Result}
    (hwaits : s.pending = r.nodeId :: rest) (hknown : r.nodeId ∈ ids) (c : Conclusion) :
    Scheduled start ids ((s.settle rest c r).addPending r.nextNodes) := by
  have hqueue := h.settle_queue hwaits c
  constructor
  · rw [State.addPending_executed, State.addPending_results, h.settle_eq hwaits c]
    simp [h.executed_eq]
  · intro x hx
    rw [State.addPending_executed, h.settle_eq hwaits c, List.mem_append,
      List.mem_singleton] at hx
    rcases hx with hold | rfl
    · exact h.known x hold
    · exact hknown
  · apply State.nodup_addPending
    rw [hqueue]
    exact h.nodup
  · have hnamed : named start (s.results ++ [r]) = named start s.results ++ r.nextNodes := by
      rw [named_append, List.flatMap_singleton]
    rw [State.addPending_executed, State.addPending_pending, State.addPending_results,
      State.settle_results, ← List.append_assoc, hqueue, hnamed, Text.distinct_append,
      List.filter_append (s.executed ++ s.pending), h.queue_eq, h.filter_fresh hqueue,
      List.filter_append]
  · intro before r' after hresults
    rw [State.addPending_results, State.settle_results] at hresults
    -- The result is the new one, or it stands before it.
    rcases List.eq_nil_or_concat after with rfl | ⟨init, last, rfl⟩
    · obtain ⟨rfl, hlast⟩ := List.append_inj' hresults rfl
      rw [List.cons.injEq] at hlast
      rw [← hlast.1, ← h.mem_iff hknown, hwaits]
      simp
    · rw [List.concat_eq_append, ← List.cons_append, ← List.append_assoc] at hresults
      exact h.named_before before r' init (List.append_inj' hresults rfl).1

theorem step (h : Scheduled start ids s) {nodes : List (Prepared σ)}
    (hids : nodes.map Prepared.id = ids) {deadline : Option Deadline} {s' : State} {m m' : Moment σ}
    (hstep : Step nodes deadline s m s' m') : Scheduled start ids s' := by
  cases hstep with
  | skip id rest hwaits hnone =>
    rw [find?_id_eq_none, hids] at hnone
    exact h.skip hwaits hnone
  | turn n rest c r _ hturn _ =>
    have hknown : n.id ∈ ids := hids ▸ List.mem_map_of_mem hturn.mem
    exact h.turn (hturn.nodeId_eq ▸ hturn.waits) (hturn.nodeId_eq ▸ hknown) c

theorem steps (h : Scheduled start ids s) {nodes : List (Prepared σ)}
    (hids : nodes.map Prepared.id = ids) {deadline : Option Deadline} {k : Nat} {s' : State}
    {m m' : Moment σ} (hsteps : Steps nodes deadline k s m s' m') : Scheduled start ids s' :=
  hsteps.preserve (I := fun s _ => Scheduled start ids s)
    (fun _ _ _ _ hstep hs => hs.step hids hstep) h

/-- When a run stops at a result without successors, its schedule is as it was. -/
theorem settle (h : Scheduled start ids s) {rest : List String} {r : Result}
    (hwaits : s.pending = r.nodeId :: rest) (hknown : r.nodeId ∈ ids) (c : Conclusion)
    (hstops : r.goesOn = false) : Scheduled start ids (s.settle rest c r) := by
  have hnone : r.nextNodes = [] := by
    simp only [Result.goesOn, Bool.or_eq_false_iff, Bool.not_eq_false'] at hstops
    exact List.isEmpty_iff.1 hstops.2
  have hturn := h.turn hwaits hknown c
  rwa [hnone, State.addPending_nil] at hturn

end Scheduled

/-! ## Completed runs -/

/-- The known ids that a node named as next. -/
def successors (ids : List String) (results : List Result) (node : String) : List String :=
  ((results.filter (·.nodeId = node)).flatMap Result.nextNodes).filter (· ∈ ids)

theorem mem_successors {ids : List String} {results : List Result} {x y : String} :
    y ∈ successors ids results x ↔ y ∈ ids ∧ ∃ r ∈ results, r.nodeId = x ∧ y ∈ r.nextNodes := by
  simp only [successors, List.mem_filter, List.mem_flatMap, decide_eq_true_eq]
  constructor
  · rintro ⟨⟨r, ⟨hr, hx⟩, hy⟩, hids⟩
    exact ⟨hids, r, hr, hx, hy⟩
  · rintro ⟨hids, r, hr, hx, hy⟩
    exact ⟨⟨r, ⟨hr, hx⟩, hy⟩, hids⟩

theorem filter_nodeId_eq {results : List Result} (h : (results.map Result.nodeId).Nodup)
    {r : Result} (hr : r ∈ results) : results.filter (·.nodeId = r.nodeId) = [r] := by
  induction results with
  | nil => cases hr
  | cons first rest ih =>
    obtain ⟨hnew, hrest⟩ := List.nodup_cons.1 h
    rcases List.mem_cons.1 hr with rfl | hr
    · rw [List.filter_cons_of_pos (by simp), List.filter_eq_nil_iff.2]
      intro other hother hid
      exact hnew (List.mem_map.2 ⟨other, hother, by simpa using hid⟩)
    · have hne : first.nodeId ≠ r.nodeId := by
        intro hid
        exact hnew (hid ▸ List.mem_map_of_mem hr)
      rw [List.filter_cons_of_neg (by simpa using hne), ih hrest hr]

theorem flatMap_successors (ids : List String) {results : List Result}
    (h : (results.map Result.nodeId).Nodup) :
    (results.map Result.nodeId).flatMap (successors ids results) =
      (results.flatMap Result.nextNodes).filter (· ∈ ids) := by
  rw [List.flatMap_map, List.filter_flatMap]
  apply List.flatMap_congr
  intro r hr
  rw [successors, filter_nodeId_eq h hr, List.flatMap_singleton]

/-- With nothing left to wait, what ran grew from the start node by what was named. -/
theorem Scheduled.grown {start : String} {ids : List String} {s : State}
    (h : Scheduled start ids s) (hstart : start ∈ ids) (hempty : s.pending = []) :
    Text.Grown (successors ids s.results) start s.executed := by
  constructor
  · have hall : s.executed.filter (· ∈ ids) = s.executed :=
      List.filter_eq_self.2 (by simpa using h.known)
    have hqueue := h.queue_eq
    rw [hempty, List.append_nil, hall, ← Text.distinct_filter, named,
      List.filter_cons_of_pos (by simpa using hstart), ← flatMap_successors ids h.nodup_results,
      ← h.executed_eq] at hqueue
    exact hqueue
  · intro before x after hexecuted
    have hx : x ∈ ids := h.known x (by rw [hexecuted]; simp)
    rw [h.executed_eq, List.map_eq_append_iff] at hexecuted
    obtain ⟨earlier, later, hresults, rfl, hlater⟩ := hexecuted
    obtain ⟨r, later, rfl, rfl, -⟩ := List.map_eq_cons_iff.1 hlater
    rcases List.mem_cons.1 (h.named_before earlier r later hresults) with hfirst | hnamed
    · rw [hfirst]
      exact List.mem_cons_self
    · obtain ⟨r', hr', hnext⟩ := List.mem_flatMap.1 hnamed
      refine List.mem_cons_of_mem _ (List.mem_flatMap.2 ⟨r'.nodeId, List.mem_map_of_mem hr', ?_⟩)
      refine mem_successors.2 ⟨hx, r', ?_, rfl, hnext⟩
      rw [hresults]
      exact List.mem_append_left _ hr'

/-! ## Runs -/

/-- However a run ends, what ran are the nodes of the results, and none of them ran twice. -/
theorem Finish.executed_eq {e : Engine σ} {nodes : List (Prepared σ)} {cancellation : Cancellation}
    {now : Time.Timestamp} {s : State} {m : Moment σ} {run : Ended σ}
    (h : Finish e nodes cancellation now s m run) {start : String}
    (hs : Scheduled start (nodes.map Prepared.id) s) :
    run.state.executed = run.state.results.map Result.nodeId ∧ run.state.executed.Nodup := by
  have hran := (List.nodup_append.1 hs.nodup).1
  cases h with
  | atOnce _ => exact ⟨hs.executed_eq, hran⟩
  | completed ticks _ _ => exact ⟨hs.executed_eq, hran⟩
  | exhausted ticks _ => exact ⟨hs.executed_eq, hran⟩
  | failed ticks n rest c r m' hturn hstops =>
    have hknown : r.nodeId ∈ nodes.map Prepared.id :=
      hturn.nodeId_eq ▸ List.mem_map_of_mem hturn.mem
    have hsettled := hs.settle (hturn.nodeId_eq ▸ hturn.waits) hknown c hstops
    exact ⟨hsettled.executed_eq, (List.nodup_append.1 hsettled.nodup).1⟩
  | cancelled ticks n rest m' _ _ => exact ⟨hs.executed_eq, hran⟩
  | timedOut ticks n rest m' _ _ => exact ⟨hs.executed_eq, hran⟩

/-- The schedule of a run, at whatever moment it ends. Nothing is lost and nothing runs twice: what
ran, what is in flight and what waits are the first occurrences of what was named. Only a run that
was broken off has a node in flight. What a completed run visited is what can be reached. -/
theorem execute_schedule {e : Engine σ} {d : Definition} {nodes : List (Prepared σ)}
    (h : e.prepare d = .ok nodes) (input : Payload) (cancellation : Cancellation) (id : Id)
    (now : Time.Timestamp) (world : σ) :
    let s := (e.execute d input cancellation id now world).state
    (s.executed = s.results.map Result.nodeId ∧ s.executed.Nodup) ∧
    (∃ inFlight : Option String,
      (s.executed ++ inFlight.toList ++ s.pending).filter (· ∈ d.nodeIds) =
        (Text.distinct (named d.startNode s.results)).filter (· ∈ d.nodeIds) ∧
      ∀ x, inFlight = some x → x ∈ d.nodeIds ∧
        (s.status = .cancelled ∨ s.status = .failed ∧
          s.error = some (Failure.timeLimit e.config.workflowSeconds).message)) ∧
    (s.status = .completed →
      (∀ x, x ∈ s.executed ↔ Relation.ReflTransGen
        (fun y z => z ∈ successors d.nodeIds s.results y) d.startNode x) ∧
      s.executed =
        Text.breadthFirst (successors d.nodeIds s.results) d.nodeIds.length d.startNode) := by
  obtain ⟨k, s, m, hsteps, hfinish⟩ := execute_finishes h input cancellation id now world
  generalize e.execute d input cancellation id now world = run at hfinish ⊢
  have hids := Engine.ids_of_prepare h
  have hs := (Scheduled.opening d input id now).steps hids hsteps
  refine ⟨hfinish.executed_eq (hids ▸ hs), ?_⟩
  -- Before the next node is taken, nothing is in flight.
  have hrest {s : State} (hs : Scheduled d.startNode d.nodeIds s) :
      (s.executed ++ (none : Option String).toList ++ s.pending).filter (· ∈ d.nodeIds) =
        (Text.distinct (named d.startNode s.results)).filter (· ∈ d.nodeIds) := by
    rw [Option.toList_none, List.append_nil]
    exact hs.queue_eq
  -- A node that was broken off is in flight.
  have hflight {n : Prepared σ} {rest : List String} {m' : Moment σ}
      (hbroken : BrokenOff nodes (some (e.deadline cancellation)) s m n rest m') :
      (s.executed ++ (some n.id).toList ++ rest).filter (· ∈ d.nodeIds) =
        (Text.distinct (named d.startNode s.results)).filter (· ∈ d.nodeIds) ∧
      n.id ∈ d.nodeIds := by
    refine ⟨?_, hids ▸ List.mem_map_of_mem (List.mem_of_find?_eq_some hbroken.found)⟩
    rw [← hs.queue_eq, hbroken.waits, Option.toList_some, List.append_assoc,
      List.singleton_append]
  have hidle := hrest hs
  cases hfinish with
  | atOnce _ => exact ⟨⟨none, hidle, nofun⟩, nofun⟩
  | completed ticks _ hempty =>
    have hgrown := hs.grown (Engine.sound_of_prepare h).start_mem hempty
    have hran := (List.nodup_append.1 hs.nodup).1
    refine ⟨⟨none, hidle, nofun⟩, fun _ => ⟨fun x => hgrown.mem_iff, ?_⟩⟩
    exact hgrown.eq_breadthFirst (hran.length_le_of_subset fun x hx => hs.known x hx)
  | exhausted ticks _ => exact ⟨⟨none, hidle, nofun⟩, nofun⟩
  | failed ticks n rest c r m' hturn hstops =>
    have hknown : r.nodeId ∈ d.nodeIds :=
      hids ▸ hturn.nodeId_eq ▸ List.mem_map_of_mem hturn.mem
    have hqueue := hrest (hs.settle (hturn.nodeId_eq ▸ hturn.waits) hknown c hstops)
    exact ⟨⟨none, hqueue, nofun⟩, nofun⟩
  | cancelled ticks n rest m' hbroken _ =>
    obtain ⟨hqueue, hknown⟩ := hflight hbroken
    refine ⟨⟨some n.id, hqueue, ?_⟩, nofun⟩
    rintro x ⟨⟩
    exact ⟨hknown, Or.inl rfl⟩
  | timedOut ticks n rest m' hbroken _ =>
    obtain ⟨hqueue, hknown⟩ := hflight hbroken
    refine ⟨⟨some n.id, hqueue, ?_⟩, nofun⟩
    rintro x ⟨⟩
    exact ⟨hknown, Or.inr ⟨rfl, rfl⟩⟩

/-- A workflow with a cycle, a node that is named twice, an unknown id and an error handler. -/
def roundTrip : Definition where
  id := "round-trip"
  startNode := "root"
  nodes :=
    [{ id := "root", name := "Root", nodeType := "fork" },
      { id := "left", name := "Left", nodeType := "echo", nextNodes := ["root", "join"] },
      { id := "right", name := "Right", nodeType := "fault", onError := some "join" },
      { id := "join", name := "Join", nodeType := "echo", nextNodes := ["left"] }]

def roundTripEngine : Engine Unit where
  config := {}
  registry :=
    [("fork", fun _ => .ok (.constant (.ok ⟨[], some ["left", "right", "ghost", "left"]⟩) .zero)),
      ("echo", fun _ => .ok (.constant (.ok ⟨[], none⟩) .zero)),
      ("fault", fun _ => .ok (.constant (.error (.execution "out of order")) .zero))]

theorem execute_schedule_roundTrip :
    ∃ nodes, roundTripEngine.prepare roundTrip = .ok nodes ∧
      let s := (roundTripEngine.execute roundTrip [] .never ⟨[]⟩ ⟨0, 0⟩ ()).state
      s.status = .completed ∧ s.executed = ["root", "left", "right", "join"] ∧
      (∀ x, x ∈ s.executed ↔ Relation.ReflTransGen
        (fun y z => z ∈ successors roundTrip.nodeIds s.results y) "root" x) ∧
      s.executed = Text.breadthFirst (successors roundTrip.nodeIds s.results) 4 "root" := by
  obtain ⟨nodes, h⟩ : ∃ nodes, roundTripEngine.prepare roundTrip = .ok nodes := ⟨_, rfl⟩
  have hcompleted :
      (roundTripEngine.execute roundTrip [] .never ⟨[]⟩ ⟨0, 0⟩ ()).state.status = .completed := by
    decide +kernel
  have hschedule := execute_schedule h [] .never ⟨[]⟩ ⟨0, 0⟩ ()
  refine ⟨nodes, h, hcompleted, by decide +kernel, ?_⟩
  exact hschedule.2.2 hcompleted

end Workflow.Run
