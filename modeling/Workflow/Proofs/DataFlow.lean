import Workflow.Proofs.Flow
import Workflow.Proofs.Observation
import Workflow.Proofs.Outputs

/-!
The data that goes from node to node. Whatever an attempt is given follows from the results before
its node: the input is the output of the result just before, whichever node named it, the outputs
are those of all earlier successes, and the shared store is the one that the last of them left.
Attempts that fail leave nothing.
-/
namespace Workflow.Run

variable {σ : Type}

/-! ## Calls and stores -/

/-- The calls of a node in a log. -/
def callsOf (log : List Call) (node : String) : List Call := log.filter (·.node = node)

/-- The shared store that the last success among some results left, by the last call of its node;
the seed when nothing succeeded. -/
def storeAfter (seed : Payload) (log : List Call) (results : List Result) : Payload :=
  match (results.filter Result.isSuccess).getLast? with
  | none => seed
  | some r => ((callsOf log r.nodeId).getLast?.map Call.left).getD seed

section Calls

variable {seed store : Payload} {log calls : List Call} {results : List Result} {r : Result}
  {node : String}

theorem callsOf_append (log calls : List Call) (node : String) :
    callsOf (log ++ calls) node = callsOf log node ++ callsOf calls node :=
  List.filter_append ..

theorem callsOf_eq_self (h : ∀ call ∈ calls, call.node = node) : callsOf calls node = calls :=
  List.filter_eq_self.2 (by simpa using h)

theorem callsOf_eq_nil (h : ∀ call ∈ calls, call.node ≠ node) : callsOf calls node = [] :=
  List.filter_eq_nil_iff.2 (by simpa using h)

/-- Calls of other nodes do not change the store. -/
theorem storeAfter_append (h : ∀ r ∈ results, ∀ call ∈ calls, call.node ≠ r.nodeId) :
    storeAfter seed (log ++ calls) results = storeAfter seed log results := by
  unfold storeAfter
  cases hlast : (results.filter Result.isSuccess).getLast? with
  | none => rfl
  | some r =>
    have hr : r ∈ results := (List.mem_filter.1 (List.mem_of_getLast? hlast)).1
    simp only [callsOf_append, callsOf_eq_nil (h r hr), List.append_nil]

theorem storeAfter_of_error (h : r.isSuccess = false) :
    storeAfter seed log (results ++ [r]) = storeAfter seed log results := by
  have hkept : (results ++ [r]).filter Result.isSuccess = results.filter Result.isSuccess := by
    rw [List.filter_append, List.filter_cons_of_neg (by simp [h]), List.filter_nil,
      List.append_nil]
  unfold storeAfter
  rw [hkept]

theorem storeAfter_of_success (h : r.isSuccess = true)
    (hcalls : callsOf log r.nodeId = calls) (hleft : calls.getLast?.map Call.left = some store) :
    storeAfter seed log (results ++ [r]) = store := by
  have hlast : ((results ++ [r]).filter Result.isSuccess).getLast? = some r := by
    rw [List.filter_append, List.filter_cons_of_pos h, List.filter_nil, List.getLast?_concat]
  unfold storeAfter
  simp only [hlast, hcalls, hleft, Option.getD_some]

end Calls

/-! ## What attempts are given -/

/-- What an attempt is given when its node has so many results before it: `origin` is the state in
which the run began. -/
structure Given (origin : State) (log : List Call) (results : List Result) (i : Nat)
    (call : Call) : Prop where
  input_eq : call.input =
    if i = 0 then origin.input else (results[i - 1]?.bind Result.output).getD []
  workflowId_eq : call.context.workflowId = origin.workflowId
  runId_eq : call.context.runId = origin.id
  keys_nodup : (call.context.nodeOutputs.map Prod.fst).Nodup
  mem_nodeOutputs : ∀ node output, (node, output) ∈ call.context.nodeOutputs ↔
    ∃ r ∈ results.take i, r.isSuccess = true ∧ r.nodeId = node ∧ r.output = some output
  globalState_eq : call.context.globalState =
    storeAfter origin.globalState log (results.take i)

namespace Given

variable {origin s : State} {log calls : List Call} {results : List Result} {i : Nat}
  {call : Call}

/-- What comes later changes nothing of what was given. -/
theorem append (h : Given origin log results i call) (hi : i ≤ results.length)
    (later : List Result) (hnew : ∀ r ∈ results, ∀ call ∈ calls, call.node ≠ r.nodeId) :
    Given origin (log ++ calls) (results ++ later) i call := by
  have htake : (results ++ later).take i = results.take i := List.take_append_of_le_length hi
  refine ⟨?_, h.workflowId_eq, h.runId_eq, h.keys_nodup, htake ▸ h.mem_nodeOutputs, ?_⟩
  · rw [h.input_eq]
    split
    · rfl
    · rw [List.getElem?_append_left (by omega)]
  · rw [htake, storeAfter_append fun r hr => hnew r (List.mem_of_mem_take hr)]
    exact h.globalState_eq

/-- What the next node is given. -/
theorem next (hsame : origin.SameRun s)
    (hrecorded : ∀ r ∈ s.results, r.isSuccess = r.output.isSome)
    (hnodup : (s.results.map Result.nodeId).Nodup)
    (hstore : s.globalState = storeAfter origin.globalState log s.results)
    (hinput : call.input = s.latestOutput) (hcontext : call.context = s.context) :
    Given origin log s.results s.results.length call where
  input_eq := by
    rw [hinput]
    rcases List.eq_nil_or_concat s.results with hnil | ⟨init, last, hlast⟩
    · rw [State.latestOutput, hnil]
      exact hsame.input
    · rw [List.concat_eq_append] at hlast
      rw [State.latestOutput_of_append hlast, hlast, if_neg (by simp)]
      simp
  workflowId_eq := by rw [hcontext]; exact hsame.workflowId
  runId_eq := by rw [hcontext]; exact hsame.id
  keys_nodup := by rw [hcontext]; exact State.nodup_outputs s.results
  mem_nodeOutputs node output := by
    rw [hcontext, List.take_length]
    refine (State.mem_outputs hnodup).trans ?_
    constructor
    · rintro ⟨r, hr, hid, houtput⟩
      exact ⟨r, hr, by rw [hrecorded r hr, houtput]; rfl, hid, houtput⟩
    · rintro ⟨r, hr, -, hid, houtput⟩
      exact ⟨r, hr, hid, houtput⟩
  globalState_eq := by
    rw [hcontext, List.take_length]
    exact hstore

end Given

/-! ## Logs of runs -/

/-- A log against the results: every attempt was given what follows from the results before its
node, and every result has the calls of its attempts. -/
structure Traced (origin : State) (log : List Call) (results : List Result) : Prop where
  given : ∀ call ∈ log,
    Given origin log results ((results.map Result.nodeId).idxOf call.node) call
  count : ∀ r ∈ results, (callsOf log r.nodeId).length = r.attempts

/-- The log of a run between two turns. -/
structure Observed (origin s : State) (log : List Call) : Prop where
  same : origin.SameRun s
  isSuccess_eq : ∀ r ∈ s.results, r.isSuccess = r.output.isSome
  traced : Traced origin log s.results
  known : ∀ call ∈ log, call.node ∈ s.results.map Result.nodeId
  store : s.globalState = storeAfter origin.globalState log s.results

theorem position_le (results : List Result) (node : String) :
    (results.map Result.nodeId).idxOf node ≤ results.length := by
  have hle := List.idxOf_le_length (a := node) (l := results.map Result.nodeId)
  rwa [List.length_map] at hle

theorem Traced.nil (origin : State) : Traced origin [] [] := ⟨nofun, nofun⟩

/-- Where a node stands is the same when another result follows, if it stands anywhere at all or is
the node of that result. -/
theorem idxOf_concat {ids : List String} {id node : String} (hnew : id ∉ ids)
    (h : node ∈ ids ∨ node = id) : (ids ++ [id]).idxOf node = ids.idxOf node := by
  by_cases hmem : node ∈ ids
  · exact List.idxOf_append_of_mem hmem
  · obtain rfl := h.resolve_left hmem
    rw [List.idxOf_append_of_notMem hnew, List.idxOf_cons_self, List.idxOf_of_notMem hnew,
      Nat.add_zero]

/-- The log stays true when a result is recorded. -/
theorem Traced.append {origin : State} {log : List Call} {results : List Result}
    (h : Traced origin log results) {r : Result} (hnew : r.nodeId ∉ results.map Result.nodeId)
    (hknown : ∀ call ∈ log, call.node ∈ results.map Result.nodeId ∨ call.node = r.nodeId)
    (hcount : (callsOf log r.nodeId).length = r.attempts) : Traced origin log (results ++ [r]) where
  given call hcall := by
    rw [List.map_append, List.map_singleton, idxOf_concat hnew (hknown call hcall),
      ← List.append_nil log]
    exact (h.given call hcall).append (position_le results call.node) [r] nofun
  count r' hr' := by
    rcases List.mem_append.1 hr' with hold | hlast
    · exact h.count r' hold
    · obtain rfl := List.mem_singleton.1 hlast
      exact hcount

namespace Observed

theorem opening {origin : State} (h : origin.results = []) : Observed origin origin [] := by
  refine ⟨State.SameRun.refl origin, ?_, ?_, nofun, ?_⟩
  · rw [h]
    exact nofun
  · rw [h]
    exact .nil origin
  · rw [h]
    rfl

variable {origin s : State} {log calls : List Call} {n : Prepared σ}
  {conclusion : Option Conclusion}

theorem of_eq (h : Observed origin s log) {s' : State} (hsame : s.SameRun s')
    (hresults : s'.results = s.results) (hstore : s'.globalState = s.globalState) :
    Observed origin s' log where
  same := h.same.trans hsame
  isSuccess_eq := hresults ▸ h.isSuccess_eq
  traced := hresults ▸ h.traced
  known := hresults ▸ h.known
  store := by rw [hstore, hresults, h.store]

theorem node_ne (hnew : n.id ∉ s.results.map Result.nodeId)
    (hlogs : n.Logs s.latestOutput s.context conclusion 0 calls) :
    ∀ r ∈ s.results, ∀ call ∈ calls, call.node ≠ r.nodeId := by
  intro r hr call hcall heq
  rw [(hlogs.given call hcall).1] at heq
  exact hnew (heq ▸ List.mem_map_of_mem hr)

theorem callsOf_node (h : Observed origin s log) (hnew : n.id ∉ s.results.map Result.nodeId)
    (hlogs : n.Logs s.latestOutput s.context conclusion 0 calls) :
    callsOf (log ++ calls) n.id = calls := by
  have hold : callsOf log n.id = [] := by
    apply callsOf_eq_nil
    intro call hcall heq
    exact hnew (heq ▸ h.known call hcall)
  rw [callsOf_append, hold, List.nil_append]
  exact callsOf_eq_self fun call hcall => (hlogs.given call hcall).1

theorem mem_or_eq (h : Observed origin s log)
    (hlogs : n.Logs s.latestOutput s.context conclusion 0 calls) : ∀ call ∈ log ++ calls,
    call.node ∈ s.results.map Result.nodeId ∨ call.node = n.id := by
  intro call hcall
  rcases List.mem_append.1 hcall with hold | hcall
  · exact Or.inl (h.known call hold)
  · exact Or.inr (hlogs.given call hcall).1

/-- What the attempts of a node that has not run before are given follows from the results. -/
theorem traced_append (h : Observed origin s log) (hnew : n.id ∉ s.results.map Result.nodeId)
    (hlogs : n.Logs s.latestOutput s.context conclusion 0 calls)
    (hnodup : (s.results.map Result.nodeId).Nodup) : Traced origin (log ++ calls) s.results := by
  have hne := node_ne hnew hlogs
  constructor
  · intro call hcall
    rcases List.mem_append.1 hcall with hold | hcall
    · have hgiven := (h.traced.given call hold).append (position_le s.results call.node) [] hne
      rwa [List.append_nil] at hgiven
    · obtain ⟨hnode, hinput, hcontext⟩ := hlogs.given call hcall
      rw [hnode, List.idxOf_of_notMem hnew, List.length_map]
      refine Given.next h.same h.isSuccess_eq hnodup ?_ hinput hcontext
      rw [storeAfter_append hne]
      exact h.store
  · intro r hr
    rw [callsOf_append, callsOf_eq_nil (hne r hr), List.append_nil]
    exact h.traced.count r hr

/-- The store after the attempts is the one that a success left, and the one before an error. -/
theorem globalState_settle (h : Observed origin s log)
    (hnew : n.id ∉ s.results.map Result.nodeId) {c : Conclusion}
    (hlogs : n.Logs s.latestOutput s.context (some c) 0 calls) (ticks : Nat) :
    Prepared.globalState c s.globalState =
      storeAfter origin.globalState (log ++ calls) (s.results ++ [n.result c ticks]) := by
  cases houtcome : c.last.outcome with
  | ok output =>
    have hsuccess : (n.result c ticks).isSuccess = true := by
      rw [n.result_of_ok ticks houtcome]
      rfl
    have hcalls : callsOf (log ++ calls) (n.result c ticks).nodeId = calls := by
      rw [Prepared.result_nodeId]
      exact h.callsOf_node hnew hlogs
    rw [storeAfter_of_success hsuccess hcalls (hlogs.left c output rfl houtcome),
      Prepared.globalState, houtcome]
  | error reason =>
    have hfailed : (n.result c ticks).isSuccess = false := by
      rw [n.result_of_error ticks houtcome]
      rfl
    rw [storeAfter_of_error hfailed, storeAfter_append (node_ne hnew hlogs),
      Prepared.globalState, houtcome]
    exact h.store

/-- A node that takes its turn adds its calls to the log and its result to the results. -/
theorem settle (h : Observed origin s log) (hnew : n.id ∉ s.results.map Result.nodeId)
    {c : Conclusion} (hlogs : n.Logs s.latestOutput s.context (some c) 0 calls)
    (hnodup : (s.results.map Result.nodeId).Nodup) (ticks : Nat) (rest : List String) :
    Observed origin (s.settle rest c (n.result c ticks)) (log ++ calls) where
  same := h.same.trans (s.sameRun_settle _ _ _)
  isSuccess_eq r hr := by
    rcases List.mem_append.1 hr with hold | hlast
    · exact h.isSuccess_eq r hold
    · obtain rfl := List.mem_singleton.1 hlast
      exact n.isSuccess_result ticks c
  traced := by
    rw [State.settle_results]
    refine (h.traced_append hnew hlogs hnodup).append ?_ ?_ ?_
    · rwa [Prepared.result_nodeId]
    · rw [Prepared.result_nodeId]
      exact h.mem_or_eq hlogs
    · rw [Prepared.result_nodeId, h.callsOf_node hnew hlogs, Prepared.result_attempts,
        ← hlogs.count c rfl, Nat.zero_add]
  known call hcall := by
    rw [State.settle_results, List.map_append, List.map_singleton, List.mem_append,
      List.mem_singleton, Prepared.result_nodeId]
    exact h.mem_or_eq hlogs call hcall
  store := h.globalState_settle hnew hlogs ticks

end Observed

section Runs

variable {nodes : List (Prepared σ)} {deadline : Option Deadline} {origin s s' : State}
  {m m' : Moment (σ × List Call)} {n : Prepared (σ × List Call)} {rest : List String}
  {c : Conclusion} {r : Result} {start : String} {ids : List String}

theorem Scheduled.notMem_results (h : Scheduled start ids s) {id : String}
    (hwaits : s.pending = id :: rest) : id ∉ s.results.map Result.nodeId := by
  have hnodup := h.nodup
  rw [hwaits] at hnodup
  rw [← h.executed_eq]
  exact fun hmem => (List.nodup_append.1 hnodup).2.2 id hmem id List.mem_cons_self rfl

theorem Observed.turn (h : Observed origin s m.world.2) (hs : Scheduled start ids s)
    (hturn : Turn (nodes.map Prepared.watched) deadline s m n rest c r m') :
    Observed origin (s.settle rest c r) m'.world.2 := by
  obtain ⟨p, -, rfl, calls, hlog, hlogs⟩ := hturn.logs
  rw [hlog, hturn.result]
  exact h.settle (n := p) (hs.notMem_results hturn.waits) hlogs hs.nodup_results _ rest

theorem Observed.step (h : Observed origin s m.world.2) (hs : Scheduled start ids s)
    (hstep : Step (nodes.map Prepared.watched) deadline s m s' m') :
    Observed origin s' m'.world.2 := by
  cases hstep with
  | skip id rest _ _ => exact h.of_eq (s.sameRun_taken rest) rfl rfl
  | turn n rest c r _ hturn _ =>
    exact (h.turn hs hturn).of_eq (State.sameRun_addPending _ _) (State.addPending_results _ _)
      (State.addPending_globalState _ _)

/-- The log up to a number of steps. -/
theorem Observed.steps (h : Observed origin s m.world.2) (hs : Scheduled start ids s)
    (hids : (nodes.map Prepared.watched).map Prepared.id = ids) {k : Nat}
    (hsteps : Steps (nodes.map Prepared.watched) deadline k s m s' m') :
    Observed origin s' m'.world.2 :=
  (hsteps.preserve (I := fun s m => Scheduled start ids s ∧ Observed origin s m.world.2)
    (fun _ _ _ _ hstep hboth => ⟨hboth.1.step hids hstep, hboth.2.step hboth.1 hstep⟩)
    ⟨hs, h⟩).2

/-- However a run ends, its log follows from its results. -/
theorem Finish.traced {e : Engine (σ × List Call)} {cancellation : Cancellation}
    {now : Time.Timestamp} {run : Ended (σ × List Call)}
    (h : Finish e (nodes.map Prepared.watched) cancellation now s m run)
    (hs : Scheduled start ids s) (hobserved : Observed origin s m.world.2) :
    Traced origin run.world.2 run.state.results := by
  have hbroken {rest : List String} {m' : Moment (σ × List Call)} {n : Prepared (σ × List Call)}
      {deadline : Option Deadline}
      (hbroken : BrokenOff (nodes.map Prepared.watched) deadline s m n rest m') :
      Traced origin m'.world.2 s.results := by
    obtain ⟨p, -, rfl, calls, hlog, hlogs⟩ := hbroken.logs
    rw [hlog]
    exact hobserved.traced_append (n := p) (hs.notMem_results hbroken.waits) hlogs hs.nodup_results
  cases h with
  | atOnce _ => exact hobserved.traced
  | completed ticks _ _ => exact hobserved.traced
  | exhausted ticks _ => exact hobserved.traced
  | failed ticks n rest c r m' hturn _ => exact (hobserved.turn hs hturn).traced
  | cancelled ticks n rest m' h _ => exact hbroken h
  | timedOut ticks n rest m' h _ => exact hbroken h

end Runs

section Ends

variable {e : Engine σ} {d : Definition} {nodes : List (Prepared σ)} (h : e.prepare d = .ok nodes)
  (input : Payload) (cancellation : Cancellation) (id : Id) (now : Time.Timestamp) (world : σ)
include h

/-- The log of a watched run follows from its results. -/
theorem execute_traced :
    let watched := e.watched.execute d input cancellation id now (world, [])
    Traced (opening d input id now) watched.world.2 watched.state.results := by
  have hprepared := Engine.prepare_watched h
  have hids := Engine.ids_of_prepare hprepared
  obtain ⟨k, s, m, hsteps, hfinish⟩ :=
    execute_finishes hprepared input cancellation id now (world, [])
  have hopening := Scheduled.opening d input id now
  refine hfinish.traced (hopening.steps hids hsteps) ?_
  exact (Observed.opening rfl).steps hopening hids hsteps

/-- What ran are the nodes of the results. -/
theorem execute_executed_eq :
    let s := (e.execute d input cancellation id now world).state
    s.executed = s.results.map Result.nodeId := by
  have hids := Engine.ids_of_prepare h
  obtain ⟨k, s, m, hsteps, hfinish⟩ := execute_finishes h input cancellation id now world
  exact (hfinish.executed_eq (hids ▸ (Scheduled.opening d input id now).steps hids hsteps)).1

/-- A completed run puts out the output of its last result. -/
theorem execute_output
    (hcompleted : (e.execute d input cancellation id now world).state.status = .completed) :
    let s := (e.execute d input cancellation id now world).state
    ∃ r, s.results.getLast? = some r ∧ s.output = some (r.output.getD []) := by
  obtain ⟨k, s, m, hsteps, hfinish⟩ := execute_finishes h input cancellation id now world
  obtain ⟨hempty, ticks, hrun⟩ := hfinish.eq_of_completed hcompleted
  rw [hrun]
  -- The start node has run, so there is a result.
  have hs := (Scheduled.opening d input id now).steps (Engine.ids_of_prepare h) hsteps
  have hstart := (hs.mem_iff (Engine.sound_of_prepare h).start_mem).2 List.mem_cons_self
  rw [hempty, List.append_nil, hs.executed_eq] at hstart
  rcases List.eq_nil_or_concat s.results with hnil | ⟨init, last, hlast⟩
  · rw [hnil] at hstart
    cases hstart
  · rw [List.concat_eq_append] at hlast
    refine ⟨last, ?_, congrArg some (State.latestOutput_of_append hlast)⟩
    exact (congrArg List.getLast? hlast).trans List.getLast?_concat

/-- A run is the fold over the nodes that ran. -/
theorem execute_flowed :
    let run := e.execute d input cancellation id now world
    ∃ m, Flowed nodes (opening d input id now) ⟨world, 0⟩ run.state m ∧
      (run.state.status = .completed →
        m.world = run.world ∧ run.state.output = some run.state.latestOutput) := by
  obtain ⟨k, s, m, hsteps, hfinish⟩ := execute_finishes h input cancellation id now world
  exact hfinish.flowed hsteps.sameRun (hsteps.flowed rfl)

/-- The data flow of a run. Watching the run does not change it, and every attempt that it makes is
given what follows from the results before its node; every result has as many calls as attempts. A
completed run puts out the output of its last result. The results, the latest output and the shared
store are those of the fold over the nodes that ran. -/
theorem execute_dataFlow :
    let run := e.execute d input cancellation id now world
    let watched := e.watched.execute d input cancellation id now (world, [])
    let origin := opening d input id now
    let s := run.state
    let log := watched.world.2
    let f := s.executed.foldl (Flow.step nodes d.id id) ⟨input, origin.globalState, [], ⟨world, 0⟩⟩
    (watched.state = s ∧ watched.world.1 = run.world ∧ watched.ticks = run.ticks) ∧
    (∀ call ∈ log, Given origin log s.results (s.executed.idxOf call.node) call) ∧
    (∀ r ∈ s.results, (callsOf log r.nodeId).length = r.attempts) ∧
    (s.status = .completed →
      ∃ r, s.results.getLast? = some r ∧ s.output = some (r.output.getD [])) ∧
    (f.results = s.results ∧ f.latest = s.latestOutput ∧ f.globalState = s.globalState ∧
      (s.status = .completed → f.moment.world = run.world ∧ s.output = some f.latest)) := by
  intro run watched origin s log f
  have hwatched := Engine.execute_watched h input cancellation id now (world, [])
  have hstate : watched.state = s := hwatched.1
  have htraced : Traced origin log watched.state.results :=
    execute_traced h input cancellation id now world
  have hexecuted : s.executed = s.results.map Result.nodeId :=
    execute_executed_eq h input cancellation id now world
  obtain ⟨m, hflowed, hends⟩ := execute_flowed h input cancellation id now world
  rw [hstate] at htraced
  have hf : f = Flow.ofState s m := by
    rw [Flowed, ← hexecuted] at hflowed
    exact hflowed
  rw [hf]
  refine ⟨hwatched, ?_, htraced.count, execute_output h input cancellation id now world, rfl, rfl,
    rfl, hends⟩
  rw [hexecuted]
  exact htraced.given

end Ends

/-- A behaviour that fails at every other attempt, and leaves the number of its attempts so far. -/
def everyOther : Node.Behavior Nat where
  nodeType := "every-other"
  attemptTimeout := none
  execute _ c count :=
    let left := Payload.insert c.globalState "attempts" (.number (.integer count))
    if count % 2 = 0 then (.now ⟨.error (.execution "busy"), left⟩, count + 1)
    else (.now ⟨.ok ⟨[("count", .number (.integer count))], none⟩, left⟩, count + 1)

/-- A fan-out whose nodes are all tried twice. -/
def fanOut : Definition where
  id := "fan-out"
  startNode := "root"
  nodes :=
    [{ id := "root", name := "Root", nodeType := "every-other",
       config := [("retries", .number (.integer 1))], nextNodes := ["left", "right"] },
      { id := "left", name := "Left", nodeType := "every-other",
        config := [("retries", .number (.integer 1))] },
      { id := "right", name := "Right", nodeType := "every-other",
        config := [("retries", .number (.integer 1))] }]

def fanOutEngine : Engine Nat where
  config := {}
  registry := [("every-other", fun _ => .ok everyOther)]

theorem execute_dataFlow_fanOut :
    ∃ nodes, fanOutEngine.prepare fanOut = .ok nodes ∧
      let origin := opening fanOut [] ⟨[]⟩ ⟨0, 0⟩
      let s := (fanOutEngine.execute fanOut [] .never ⟨[]⟩ ⟨0, 0⟩ 0).state
      let log := (fanOutEngine.watched.execute fanOut [] .never ⟨[]⟩ ⟨0, 0⟩ (0, [])).world.2
      s.status = .completed ∧
      log.map Call.node = ["root", "root", "left", "left", "right", "right"] ∧
      (∀ call ∈ log, Given origin log s.results (s.executed.idxOf call.node) call) ∧
      ∃ r, s.results.getLast? = some r ∧ s.output = some (r.output.getD []) := by
  obtain ⟨nodes, h⟩ : ∃ nodes, fanOutEngine.prepare fanOut = .ok nodes := ⟨_, rfl⟩
  have hcompleted :
      (fanOutEngine.execute fanOut [] .never ⟨[]⟩ ⟨0, 0⟩ 0).state.status = .completed := by
    decide +kernel
  obtain ⟨-, hgiven, -, houtput, -⟩ := execute_dataFlow h [] .never ⟨[]⟩ ⟨0, 0⟩ 0
  exact ⟨nodes, h, hcompleted, by decide +kernel, hgiven, houtput hcompleted⟩

end Workflow.Run
