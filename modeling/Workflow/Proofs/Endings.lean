import Workflow.Proofs.Interruption

/-!
How runs end. Whatever the workflow, the nodes and the moment of a cancellation, a run ends in one
of the three final statuses, with an output, an error or neither of them as the status says. The
error of a failed run speaks of its last result just if that result is an error without a handler;
the messages of the different kinds of failures begin differently, so none is taken for another.
-/
namespace Workflow.Run

open Time (Timestamp)

variable {σ : Type}

/-! ## Messages of failures -/

namespace Failure

/-- The kinds of failures of a run. -/
inductive Kind where
  | definition | build | node | iterationLimit | timeLimit
  deriving DecidableEq

def kind : Failure → Kind
  | definition _ => .definition
  | build _ => .build
  | node _ _ => .node
  | iterationLimit _ => .iterationLimit
  | timeLimit _ => .timeLimit

def Kind.opening : Kind → String
  | definition => "Invalid workflow definition: "
  | build => "Failed to build node graph: "
  | node => "Node "
  | iterationLimit => "Workflow execution exceeded maximum iterations ("
  | timeLimit => "Workflow execution exceeded maximum time of "

theorem Kind.eq_of_prefix {a b : Kind} (h : a.opening.toList <+: b.opening.toList) : a = b := by
  revert h
  cases a <;> cases b <;> simp [opening]

theorem opening_prefix_message (f : Failure) :
    f.kind.opening.toList <+: f.message.toList := by
  have hopening : ∃ rest, f.message = f.kind.opening ++ rest := by
    cases f with
    | definition fault => exact ⟨_, rfl⟩
    | build fault => exact ⟨_, rfl⟩
    | node id message => exact ⟨id ++ (" failed: " ++ message), by
        rw [← String.append_assoc, ← String.append_assoc]; rfl⟩
    | iterationLimit limit => exact ⟨_, String.append_assoc⟩
    | timeLimit seconds => exact ⟨_, String.append_assoc⟩
  obtain ⟨rest, hrest⟩ := hopening
  rw [hrest, String.toList_append]
  exact List.prefix_append _ _

/-- A message tells its kind. -/
theorem kind_eq_of_message_eq {f g : Failure} (h : f.message = g.message) : f.kind = g.kind := by
  have hf := f.opening_prefix_message
  have hg := g.opening_prefix_message
  rw [h] at hf
  rcases List.prefix_or_prefix_of_prefix hf hg with hfg | hgf
  · exact Kind.eq_of_prefix hfg
  · exact (Kind.eq_of_prefix hgf).symm

/-- The message about a node tells what went wrong with it. -/
theorem eq_of_message_node_eq {id message message' : String}
    (h : (node id message).message = (node id message').message) : message = message' :=
  (String.append_right_inj ("Node " ++ id ++ " failed: ")).1 h

end Failure

/-! ## Fatal results -/

/-- An error after which a run cannot go on: its node has no handler. -/
def Result.IsFatal (r : Result) : Prop := r.status = .error ∧ r.nextNodes = []

theorem Result.goesOn_eq_false_iff {r : Result} : r.goesOn = false ↔ r.IsFatal := by
  rw [goesOn, Bool.or_eq_false_iff, Bool.not_eq_false', List.isEmpty_iff, isSuccess,
    decide_eq_false_iff_not, IsFatal]
  cases r.status with
  | success => simp
  | error => simp

theorem Recorded.error_of_isFatal {nodes : List (Prepared σ)} {r : Result} (h : Recorded nodes r)
    (hfatal : r.IsFatal) : ∃ message, r.error = some message := by
  obtain ⟨n, -, c, ticks, rfl⟩ := h
  cases houtcome : c.last.outcome with
  | ok output =>
    rw [Result.IsFatal, n.result_of_ok ticks houtcome] at hfatal
    cases hfatal.1
  | error reason => exact ⟨reason.message, by rw [n.result_of_error ticks houtcome]⟩

/-- How the error of a run follows from its results: the last result is fatal just if the error is
that of a node, the error is then that of its node, and no earlier result is fatal. -/
structure State.Blames (s : State) : Prop where
  earlier : ∀ r ∈ s.results.dropLast, ¬ r.IsFatal
  fatal_iff : (∃ node message, s.error = some (Failure.node node message).message) ↔
    ∃ r, s.results.getLast? = some r ∧ r.IsFatal
  message_iff : ∀ r, s.results.getLast? = some r → ∀ message,
    s.error = some (Failure.node r.nodeId message).message ↔ r.IsFatal ∧ r.error = some message

/-- A run failed for some reason: the failure of a node just if the last result is a fatal one of
that node. -/
structure State.FailedFor (s : State) (reason : Failure) : Prop where
  error_eq : s.error = some reason.message
  node_iff : ∀ node message, reason = .node node message ↔
    ∃ r, s.results.getLast? = some r ∧ r.IsFatal ∧ r.nodeId = node ∧ r.error = some message

namespace State

variable {s : State} {reason : Failure}

theorem Blames.of_none (hresults : ∀ r ∈ s.results, ¬ r.IsFatal) (herror : s.error = none) :
    s.Blames where
  earlier r hr := hresults r (List.dropLast_subset _ hr)
  fatal_iff := by
    rw [herror]
    constructor
    · rintro ⟨node, message, heq⟩
      cases heq
    · rintro ⟨r, hr, hfatal⟩
      exact absurd hfatal (hresults r (List.mem_of_getLast? hr))
  message_iff r hr message := by
    rw [herror]
    exact iff_of_false nofun fun h => hresults r (List.mem_of_getLast? hr) h.1

theorem FailedFor.of_kind_ne (hresults : ∀ r ∈ s.results, ¬ r.IsFatal)
    (herror : s.error = some reason.message) (hkind : reason.kind ≠ .node) :
    s.FailedFor reason where
  error_eq := herror
  node_iff node message := by
    constructor
    · rintro rfl
      exact absurd rfl hkind
    · rintro ⟨r, hr, hfatal, -⟩
      exact absurd hfatal (hresults r (List.mem_of_getLast? hr))

theorem FailedFor.of_isFatal {r : Result} {message : String}
    (hlast : s.results.getLast? = some r) (hfatal : r.IsFatal) (hmessage : r.error = some message)
    (herror : s.error = some (Failure.node r.nodeId message).message) :
    s.FailedFor (.node r.nodeId message) where
  error_eq := herror
  node_iff node message' := by
    constructor
    · rintro ⟨⟩
      exact ⟨r, hlast, hfatal, rfl, hmessage⟩
    · rintro ⟨r', hr', -, rfl, hmessage'⟩
      rw [hlast, Option.some_inj] at hr'
      subst hr'
      rw [hmessage, Option.some_inj] at hmessage'
      rw [hmessage']

/-- The message of a reason tells whether it is a node, so the error blames the right one. -/
theorem FailedFor.blames (h : s.FailedFor reason)
    (hearlier : ∀ r ∈ s.results.dropLast, ¬ r.IsFatal)
    (hmessage : ∀ r ∈ s.results, r.IsFatal → ∃ message, r.error = some message) : s.Blames := by
  have hnode {node message : String}
      (heq : s.error = some (Failure.node node message).message) :
      ∃ node' message', reason = .node node' message' := by
    rw [h.error_eq, Option.some_inj] at heq
    have hkind := Failure.kind_eq_of_message_eq heq
    cases reason with
    | node node' message' => exact ⟨node', message', rfl⟩
    | definition fault => cases hkind
    | build fault => cases hkind
    | iterationLimit limit => cases hkind
    | timeLimit seconds => cases hkind
  refine ⟨hearlier, ⟨?_, ?_⟩, fun r hr message => ⟨fun heq => ?_, ?_⟩⟩
  · rintro ⟨node, message, heq⟩
    obtain ⟨node', message', hreason⟩ := hnode heq
    obtain ⟨r, hr, hfatal, -⟩ := (h.node_iff node' message').1 hreason
    exact ⟨r, hr, hfatal⟩
  · rintro ⟨r, hr, hfatal⟩
    obtain ⟨message, heq⟩ := hmessage r (List.mem_of_getLast? hr) hfatal
    have hreason := (h.node_iff r.nodeId message).2 ⟨r, hr, hfatal, rfl, heq⟩
    exact ⟨r.nodeId, message, hreason ▸ h.error_eq⟩
  · obtain ⟨node', message', rfl⟩ := hnode heq
    obtain ⟨r', hr', hfatal, rfl, hmessage'⟩ := (h.node_iff node' message').1 rfl
    rw [hr, Option.some_inj] at hr'
    subst hr'
    rw [h.error_eq, Option.some_inj] at heq
    exact ⟨hfatal, Failure.eq_of_message_node_eq heq ▸ hmessage'⟩
  · rintro ⟨hfatal, heq⟩
    have hreason := (h.node_iff r.nodeId message).2 ⟨r, hr, hfatal, rfl, heq⟩
    exact hreason ▸ h.error_eq

end State

/-! ## Final states -/

/-- A state in which a run can end: its status says what else it has. -/
structure State.Coherent (s : State) : Prop where
  terminal : s.status = .completed ∨ s.status = .failed ∨ s.status = .cancelled
  started : s.startTime.isSome
  ended : s.endTime.isSome
  completed_iff : s.status = .completed ↔ s.output.isSome
  failed_iff : s.status = .failed ↔ s.error.isSome
  drained : s.status = .completed → s.pending = []

/-- What fails a run when no node does: the workflow is not valid or cannot be built, or it was
built and its run went past one of its limits. -/
inductive Engine.Obstacle (e : Engine σ) (d : Definition) : Failure → Prop
  | definition (fault : DefinitionError) (hinvalid : d.validate = .error fault) :
      Obstacle e d (.definition fault)
  | build (fault : Node.Error) (hvalid : d.validate = .ok ())
      (hmade : d.nodes.mapM (Prepared.ofDefinition e.registry e.config) = .error fault) :
      Obstacle e d (.build fault)
  | iterationLimit (nodes : List (Prepared σ)) (h : e.prepare d = .ok nodes) :
      Obstacle e d (.iterationLimit e.config.maxIterations)
  | timeLimit (nodes : List (Prepared σ)) (h : e.prepare d = .ok nodes) :
      Obstacle e d (.timeLimit e.config.workflowSeconds)

theorem Engine.Obstacle.kind_ne {e : Engine σ} {d : Definition} {reason : Failure}
    (h : e.Obstacle d reason) : reason.kind ≠ .node := by
  cases h <;> nofun

/-- Whether a cancellation has come after some ticks. -/
def Cancellation.FiredBy (ticks : Nat) : Cancellation → Prop
  | .never => False
  | .already => True
  | .after duration _ _ _ => duration.ticks ≤ ticks

namespace State

/-- A run that has started and has neither an output nor an error yet. -/
structure Underway (s : State) : Prop where
  started : s.startTime.isSome
  output : s.output = none
  error : s.error = none

theorem SameRun.underway {s s' : State} (h : s.SameRun s') (hs : s.Underway) : s'.Underway where
  started := h.startTime ▸ hs.started
  output := h.output.trans hs.output
  error := h.error.trans hs.error

namespace Underway

variable {s : State} (h : s.Underway) (finish : Timestamp)
include h

theorem coherent_completed (output : Payload) (hempty : s.pending = []) :
    ({ s with
      status := .completed
      output := some output
      endTime := some finish } : State).Coherent where
  terminal := Or.inl rfl
  started := h.started
  ended := rfl
  completed_iff := iff_of_true rfl rfl
  failed_iff := iff_of_false nofun (by rw [h.error]; nofun)
  drained _ := hempty

theorem coherent_failed (message : String) :
    ({ s with
      status := .failed
      error := some message
      endTime := some finish } : State).Coherent where
  terminal := Or.inr (Or.inl rfl)
  started := h.started
  ended := rfl
  completed_iff := iff_of_false nofun (by rw [h.output]; nofun)
  failed_iff := iff_of_true rfl rfl
  drained := nofun

theorem coherent_cancelled :
    ({ s with
      status := .cancelled
      endTime := some finish } : State).Coherent where
  terminal := Or.inr (Or.inr rfl)
  started := h.started
  ended := rfl
  completed_iff := iff_of_false nofun (by rw [h.output]; nofun)
  failed_iff := iff_of_false nofun (by rw [h.error]; nofun)
  drained := nofun

end Underway

end State

/-- The end of a run: a coherent state, an error that fits the results, and for a failure a reason,
which is a node or an obstacle. -/
structure EndsWell (e : Engine σ) (d : Definition) (s : State) : Prop where
  coherent : s.Coherent
  blames : s.Blames
  explained : s.status = .failed →
    ∃ reason, s.FailedFor reason ∧ (reason.kind = .node ∨ e.Obstacle d reason)

theorem EndsWell.of_obstacle {e : Engine σ} {d : Definition} {s : State} {reason : Failure}
    (hcoherent : s.Coherent) (hobstacle : e.Obstacle d reason)
    (hresults : ∀ r ∈ s.results, ¬ r.IsFatal) (herror : s.error = some reason.message) :
    EndsWell e d s := by
  have hfailed := State.FailedFor.of_kind_ne hresults herror hobstacle.kind_ne
  refine ⟨hcoherent, hfailed.blames ?_ ?_, fun _ => ⟨reason, hfailed, Or.inr hobstacle⟩⟩
  · exact fun r hr => hresults r (List.dropLast_subset _ hr)
  · exact fun r hr hfatal => absurd hfatal (hresults r hr)

/-- However the run of a prepared workflow finishes, it ends well. -/
theorem Finish.endsWell {e : Engine σ} {d : Definition} {nodes : List (Prepared σ)}
    (h : e.prepare d = .ok nodes) {cancellation : Cancellation} {start : Timestamp} {s : State}
    {m : Moment σ} {run : Ended σ} (hfinish : Finish e nodes cancellation start s m run)
    (hunderway : s.Underway) (hresults : ∀ r ∈ s.results, ¬ r.IsFatal) :
    EndsWell e d run.state := by
  cases hfinish with
  | atOnce _ =>
    exact ⟨hunderway.coherent_cancelled start, .of_none hresults hunderway.error, nofun⟩
  | completed ticks _ hempty =>
    exact ⟨hunderway.coherent_completed _ _ hempty, .of_none hresults hunderway.error, nofun⟩
  | exhausted ticks _ =>
    exact .of_obstacle (hunderway.coherent_failed _ _) (.iterationLimit nodes h) hresults rfl
  | failed ticks n rest c r m' hturn hstops =>
    have hsettled := (s.sameRun_settle rest c r).underway hunderway
    have hfatal := Result.goesOn_eq_false_iff.1 hstops
    obtain ⟨message, hmessage⟩ := hturn.recorded.error_of_isFatal hfatal
    have hfailed : State.FailedFor _ (.node r.nodeId message) :=
      .of_isFatal (s := { s.settle rest c r with
          status := .failed
          error := some (Failure.node r.nodeId (r.error.getD "")).message
          endTime := some (start.later ticks) })
        List.getLast?_concat hfatal hmessage (by rw [hmessage, Option.getD_some])
    refine ⟨hsettled.coherent_failed _ _, hfailed.blames ?_ ?_,
      fun _ => ⟨_, hfailed, Or.inl rfl⟩⟩
    · intro r' hr'
      rw [State.settle_results, List.dropLast_concat] at hr'
      exact hresults r' hr'
    · intro r' hr' hfatal'
      rw [State.settle_results, List.mem_append, List.mem_singleton] at hr'
      rcases hr' with hold | rfl
      · exact absurd hfatal' (hresults r' hold)
      · exact ⟨message, hmessage⟩
  | cancelled ticks n rest m' _ _ =>
    have htaken := (s.sameRun_taken rest).underway hunderway
    exact ⟨htaken.coherent_cancelled _, .of_none hresults htaken.error, nofun⟩
  | timedOut ticks n rest m' _ _ =>
    have htaken := (s.sameRun_taken rest).underway hunderway
    exact .of_obstacle (htaken.coherent_failed _ _) (.timeLimit nodes h) hresults rfl

theorem endsWell_of_prepare_eq_error {e : Engine σ} {d : Definition} {reason : Failure}
    (h : e.prepare d = .error reason) (input : Payload) (cancellation : Cancellation) (id : Id)
    (start : Timestamp) (world : σ) :
    EndsWell e d (e.execute d input cancellation id start world).state := by
  have hobstacle : e.Obstacle d reason := by
    rcases Engine.prepare_eq_error h with ⟨fault, hinvalid, rfl⟩ | ⟨fault, hvalid, hmade, rfl⟩
    · exact .definition fault hinvalid
    · exact .build fault hvalid hmade
  rw [Engine.execute_of_prepare_eq_error input id start world h]
  have hunderway : ({ opening d input id start with pending := [] } : State).Underway :=
    ⟨rfl, rfl, rfl⟩
  exact .of_obstacle (hunderway.coherent_failed start reason.message) hobstacle
    (List.forall_mem_nil _) rfl

/-! ## Cancellation -/

theorem BrokenOff.tick_le {nodes : List (Prepared σ)} {due : Deadline} {s : State}
    {m m' : Moment σ} {n : Prepared σ} {rest : List String}
    (h : BrokenOff nodes (some due) s m n rest m') : due.tick ≤ m'.clock := by
  have hnone :
      (n.attempts s.latestOutput s.context (some due) (n.maxAttempts - 1) 0 m).1 = none := by
    rw [h.open_ended]
  have hclock := Prepared.tick_le_of_attempts_none hnone
  rwa [h.open_ended] at hclock

/-- A traversal that is interrupted has come to its deadline. -/
theorem tick_le_of_interrupted {nodes : List (Prepared σ)} {due : Deadline} {limit left : Nat}
    {s : State} {m : Moment σ}
    (h : (traverse nodes (some due) limit left s m).exit = .interrupted) :
    due.tick ≤ (traverse nodes (some due) limit left s m).moment.clock := by
  obtain ⟨k, s', m', -, -, hhalts⟩ := traverse_halts nodes (some due) limit left s m
  generalize traverse nodes (some due) limit left s m = ended at h hhalts ⊢
  generalize left - k = remaining at hhalts
  cases hhalts with
  | drained _ _ _ _ => cases h
  | exhausted _ _ _ => cases h
  | interrupted _ _ _ n rest m'' hbroken => exact hbroken.tick_le
  | failed _ _ _ n rest c r m'' _ _ => cases h

theorem Engine.interrupted_of_conclude {e : Engine σ} {cancelled : Bool} {exit : Exit} {s : State}
    {now : Timestamp} (hrunning : s.status = .running)
    (h : (e.conclude cancelled exit s now).status = .cancelled) :
    exit = .interrupted ∧ cancelled = true := by
  cases exit with
  | finished =>
    rw [e.conclude_finished _ _ hrunning] at h
    cases h
  | failed reason =>
    rw [e.conclude_failed _ _ hrunning] at h
    cases h
  | interrupted =>
    cases cancelled with
    | true => exact ⟨rfl, rfl⟩
    | false =>
      rw [e.conclude_timedOut _ hrunning] at h
      cases h

theorem Engine.tick_deadline_of_isSome {e : Engine σ} {duration : Time.Duration}
    {admits waitsFor : String → Bool} {beforeLimit : Bool}
    (h : (e.cancelDeadline (.after duration admits waitsFor beforeLimit)).isSome = true) :
    (e.deadline (.after duration admits waitsFor beforeLimit)).tick = duration.ticks := by
  by_cases hbefore : duration.ticks < e.timeLimit ∨ duration.ticks = e.timeLimit ∧ beforeLimit
  · simp [deadline, cancelDeadline, hbefore]
  · simp [cancelDeadline, hbefore] at h

/-- A run is cancelled only by a cancellation that has fired when it ends. -/
theorem firedBy_of_cancelled {e : Engine σ} {d : Definition} {input : Payload}
    {cancellation : Cancellation} {id : Id} {start : Timestamp} {world : σ}
    (h : (e.execute d input cancellation id start world).state.status = .cancelled) :
    cancellation.FiredBy (e.execute d input cancellation id start world).ticks := by
  cases hprepare : e.prepare d with
  | error reason =>
    rw [Engine.execute_of_prepare_eq_error input id start world hprepare] at h
    cases h
  | ok nodes =>
    by_cases hc : cancellation = .already
    · subst hc
      trivial
    rw [Engine.execute_of_ne_already input id start world hprepare hc] at h ⊢
    have hrunning := (sameRun_traverse nodes (some (e.deadline cancellation))
      e.config.maxIterations e.config.maxIterations (opening d input id start) ⟨world, 0⟩).status
    obtain ⟨hexit, hcancelled⟩ := Engine.interrupted_of_conclude hrunning h
    have hclock := tick_le_of_interrupted hexit
    cases cancellation with
    | never => cases hcancelled
    | already => exact absurd rfl hc
    | after duration admits waitsFor beforeLimit =>
      have hdeadline := Engine.tick_deadline_of_isSome hcancelled
      rw [hdeadline] at hclock
      simp only [hdeadline, Cancellation.FiredBy]
      exact Nat.le_min.2 ⟨hclock, Nat.le_refl _⟩

/-! ## Runs -/

theorem endsWell_execute (e : Engine σ) (d : Definition) (input : Payload)
    (cancellation : Cancellation) (id : Id) (start : Timestamp) (world : σ) :
    EndsWell e d (e.execute d input cancellation id start world).state := by
  cases hprepare : e.prepare d with
  | error reason => exact endsWell_of_prepare_eq_error hprepare input cancellation id start world
  | ok nodes =>
    obtain ⟨k, s, m, hsteps, hfinish⟩ :=
      execute_finishes hprepare input cancellation id start world
    have hunderway : s.Underway := hsteps.sameRun.underway ⟨rfl, rfl, rfl⟩
    refine hfinish.endsWell hprepare hunderway fun r hr hfatal => ?_
    have hgoes := (hsteps.results_goOn (List.forall_mem_nil _) r hr).2
    rw [Result.goesOn_eq_false_iff.2 hfatal] at hgoes
    cases hgoes

/-- Every run ends in a coherent state. It is completed just if it has an output, and then nothing
waits; failed just if it has an error; and cancelled, with neither, only if its cancellation has
fired. The error is that of a node just if the last result is a fatal one of that node, and no
earlier result is fatal; a run that fails otherwise has met one of the obstacles. -/
theorem execute_ends (e : Engine σ) (d : Definition) (input : Payload)
    (cancellation : Cancellation) (id : Id) (start : Timestamp) (world : σ) :
    let run := e.execute d input cancellation id start world
    run.state.Coherent ∧
    (run.state.status = .cancelled →
      cancellation.FiredBy run.ticks ∧ run.state.output = none ∧ run.state.error = none) ∧
    run.state.Blames ∧
    (run.state.status = .failed →
      ∃ reason, run.state.FailedFor reason ∧ (reason.kind = .node ∨ e.Obstacle d reason)) := by
  intro run
  have hends : EndsWell e d run.state :=
    endsWell_execute e d input cancellation id start world
  refine ⟨hends.coherent, fun hcancelled => ⟨firedBy_of_cancelled hcancelled, ?_, ?_⟩,
    hends.blames, hends.explained⟩
  · rw [← Option.not_isSome_iff_eq_none, ← hends.coherent.completed_iff, hcancelled]
    nofun
  · rw [← Option.not_isSome_iff_eq_none, ← hends.coherent.failed_iff, hcancelled]
    nofun

end Workflow.Run
