import Workflow.Proofs.Canonical
import Workflow.Proofs.Construction
import Workflow.Proofs.Outcomes
import Workflow.Proofs.Retries

/-!
What comes of a script, whatever it does to its variables and however it ends. A node takes over
what a script leaves as a whole or not at all: if the script fails or its time is up, the output is
the input with marks on what happened, and the shared store is what it was.
-/
namespace Workflow.Node.Code

open Run (Context Prepared State)
open Script (Ending Entry Readable evaluate conclude initialScope outcome storeIn storeLeft)
open Time (Duration)

variable {σ : Type}

/-! ## Marks -/

/-- The input with marks that tell a message and a kind, and nothing else. -/
structure Marks (input : Payload) (message kind : String) (data : Payload) : Prop where
  message : Payload.find? data "_script_error" = some (.string message)
  kind : Payload.find? data "_script_error_kind" = some (.string kind)
  other : ∀ key, key ∉ ["_script_error", "_script_error_kind"] →
    Payload.find? data key = Payload.find? input key
  sorted : Payload.Sorted input → Payload.Sorted data

theorem marks_marked (input : Payload) (message kind : String) :
    Marks input message kind (marked input message kind) where
  message := by simp [marked]
  kind := by simp [marked]
  other key h := by
    simp only [List.mem_cons, List.not_mem_nil, or_false, not_or] at h
    simp [marked, h]
  sorted h := Payload.sorted_insert (Payload.sorted_insert h _ _) _ _

/-! ## Attempts -/

variable {scope : List Entry} {output : Payload}

/-- What becomes of the shared store: what the script has made of it, if that is still a map, and
otherwise what it was. -/
structure TakesOver (scope : List Entry) (store left : Payload) : Prop where
  taken : ∀ fields, storeLeft scope = some fields → Script.Value.toFields fields = .ok left
  kept : storeLeft scope = none → left = store

theorem attempt_ok (input : Payload) (context : Context) (o : Script.Outcome) :
    attempt input context (.ok o) =
      ⟨.ok ⟨o.output.getD input, none⟩, (storeIn o.context).getD context.globalState⟩ := by
  unfold attempt storeIn
  dsimp only
  cases Payload.find? o.context "global_state" with
  | none => rfl
  | some j => cases j <;> rfl

theorem attempt_of_readable (h : Readable scope output) (input : Payload) (context : Context) :
    ∃ left, attempt input context (outcome scope) =
        ⟨.ok ⟨if output.isEmpty then input else output, none⟩, left⟩ ∧
      TakesOver scope context.globalState left := by
  obtain ⟨j, hj, houtcome⟩ := Script.outcome_of_readable h
  have hrel := Script.rel_storeLeft hj
  have hattempt : attempt input context (outcome scope) =
      ⟨.ok ⟨if output.isEmpty then input else output, none⟩,
        (storeIn (j.payload?.getD [])).getD context.globalState⟩ := by
    rw [houtcome, attempt_ok]
    cases output <;> rfl
  refine ⟨_, hattempt, ?_⟩
  generalize storeIn (j.payload?.getD []) = back at hrel ⊢
  constructor
  · intro fields hleft
    rw [hleft] at hrel
    cases hrel with
    | some hfields => exact hfields
  · intro hleft
    rw [hleft] at hrel
    cases hrel
    rfl

theorem attempt_of_runtime (input : Payload) (context : Context) (reason : String) :
    attempt input context (.error (.runtime reason)) =
      ⟨.ok ⟨marked input s!"Script execution error: {reason}" "exception", none⟩,
        context.globalState⟩ := rfl

theorem attempt_of_timeout (input : Payload) (context : Context) (limit : Duration) :
    attempt input context (.error (.timeout limit)) =
      ⟨.ok ⟨marked input s!"Code execution timed out after {limit.text} seconds" "timeout", none⟩,
        context.globalState⟩ := rfl

/-- An attempt succeeds, whatever the script does. -/
theorem exists_attempt (running : List Entry → Ending) (limit : Duration) (worker : Script.Worker)
    (input seen : Payload) (context : Context) : ∃ data left,
      attempt input context (evaluate running limit worker input seen) =
        ⟨.ok ⟨data, none⟩, left⟩ := by
  cases hevaluated : evaluate running limit worker input seen with
  | ok o => exact ⟨_, _, attempt_ok input context o⟩
  | error f =>
    rcases Script.evaluate_eq_error hevaluated with rfl | ⟨reason, rfl⟩
    · exact ⟨_, _, attempt_of_timeout input context limit⟩
    · exact ⟨_, _, attempt_of_runtime input context reason⟩

/-! ## Endings -/

/-- What comes of a script on an input and a shared store under a time limit, by the way in which
the script ends: the output of its node, and the store afterwards. -/
structure Comes (limit : Duration) (input store : Payload) (ending : Ending)
    (data left : Payload) : Prop where
  finished : ∀ scope output, ending = (none, scope) → Readable scope output →
    data = (if output.isEmpty then input else output) ∧ TakesOver scope store left
  unreadable : ∀ scope, ending = (none, scope) → (∀ output, ¬ Readable scope output) →
    left = store ∧
      ∃ reason : String, Marks input s!"Script execution error: {reason}" "exception" data
  failed : ∀ (e : Script.Error) scope, ending = (some (.failed e), scope) →
    left = store ∧ Marks input s!"Script execution error: {e.message}" "exception" data
  late : ∀ signal scope, ending = (some signal, scope) → (∀ e, signal ≠ .failed e) →
    left = store ∧
      Marks input s!"Code execution timed out after {limit.text} seconds" "timeout" data

theorem comes_of_attempt {limit : Duration} {input : Payload} {context : Context} {ending : Ending}
    {data left : Payload}
    (h : attempt input context (conclude limit ending) = ⟨.ok ⟨data, none⟩, left⟩) :
    Comes limit input context.globalState ending data left where
  finished scope output hending hreadable := by
    subst hending
    obtain ⟨left', hattempt, htakes⟩ := attempt_of_readable hreadable input context
    cases hattempt.symm.trans h
    exact ⟨rfl, htakes⟩
  unreadable scope hending hnone := by
    subst hending
    obtain ⟨reason, houtcome⟩ := Script.exists_runtime_of_not_readable hnone
    rw [conclude, houtcome] at h
    cases h
    exact ⟨rfl, reason, marks_marked input _ _⟩
  failed e scope hending := by
    subst hending
    cases h
    exact ⟨rfl, marks_marked input _ _⟩
  late signal scope hending hsignal := by
    subst hending
    have hconclude : conclude limit (some signal, scope) = .error (.timeout limit) := by
      cases signal with
      | failed e => exact absurd rfl (hsignal e)
      | _ => rfl
    rw [hconclude] at h
    cases h
    exact ⟨rfl, marks_marked input _ _⟩

/-! ## Runs -/

/-- The evaluation of a script, given what it does on a worker with its variables. -/
abbrev evaluation (running : Script.Worker → List Entry → Ending) (limit : Duration)
    (worker : Script.Worker) : Evaluation := evaluate (running worker) limit worker

/-- A node with a script is done with its first attempt, whatever the script does. -/
theorem run_evaluate {n : Prepared σ} {workers : Script.Workers σ}
    {running : Script.Worker → List Entry → Ending} {limit : Duration}
    (hbehavior : n.behavior = behavior workers limit (evaluation running limit))
    (input : Payload) (s : State) (m : Run.Moment σ) : ∃ data left,
      attempt input s.context
          (evaluation running limit (workers m.world).1 input (scriptContext s.context)) =
        ⟨.ok ⟨data, none⟩, left⟩ ∧
      n.behavior.execute input s.context m.world =
        (.now ⟨.ok ⟨data, none⟩, left⟩, (workers m.world).2) ∧
      n.run input none s m =
        (some (n.concluded s ⟨⟨.ok ⟨data, none⟩, left⟩, 1⟩ 0), ⟨(workers m.world).2, m.clock⟩) := by
  obtain ⟨data, left, hattempt⟩ := exists_attempt (running (workers m.world).1) limit
    (workers m.world).1 input (scriptContext s.context) s.context
  have hexecute : n.behavior.execute input s.context m.world =
      (.now ⟨.ok ⟨data, none⟩, left⟩, (workers m.world).2) := by
    rw [hbehavior, ← hattempt]
    rfl
  have htime : Duration.zero.ticks ≤ n.attemptTimeout.ticks := by
    rw [Duration.ticks_zero]
    exact Nat.zero_le _
  refine ⟨data, left, hattempt, hexecute, ?_⟩
  rw [n.run_of_ok input hexecute rfl htime, Time.Timed.now, Duration.ticks_zero, Nat.add_zero]

/-- What a node with a script comes to. The scripts of all nodes that can be made are evaluated on
an input and a context and do what they do with their variables. Whatever that is, the node succeeds
at once; in a run it is tried once, if there is a limit for its attempts and the deadline of the run
is not over already. If the worker cannot name the end of the time limit, or the script fails, or
leaves an output that is neither the unit value nor a map with a JSON form, or a context without
one, the output is the input with the marks of an exception; if its time is up, those of a time-out;
and the shared store is what it was. Otherwise the output is the map that the script leaves, or the
input if that is empty, and the store is what the script has made of it, if that is still a map. -/
theorem run_script (n : Prepared σ) :
    (∀ workers limits now i, construct workers limits now i = .ok n.behavior →
      ∃ c running, i.read shape.decode = .ok c ∧ n.behavior =
        behavior workers (.ofSeconds c.timeout) (evaluation running (.ofSeconds c.timeout))) ∧
    ∀ workers running limit, n.behavior = behavior workers limit (evaluation running limit) →
      ∀ (input : Payload) (s : State) (m : Run.Moment σ), ∃ r data left,
        (n.behavior.execute input s.context m.world).1 = .now ⟨.ok ⟨data, none⟩, left⟩ ∧
        ((attemptTimeout? limit).isSome → ∀ deadline, (n.run input deadline s m).1 =
          if n.isOver deadline m.clock then none
          else some (r, State.record { s with globalState := left } r)) ∧
        n.Reports (.ok ⟨data, none⟩) 1 r ∧
        let worker := (workers m.world).1
        (¬ worker.CanName limit → left = s.globalState ∧
          ∃ reason : String, Marks input s!"Script execution error: {reason}" "exception" data) ∧
        (worker.CanName limit → Comes limit input s.globalState
          (running worker (initialScope input (scriptContext s.context))) data left) := by
  constructor
  · intro workers limits now i hmade
    obtain ⟨c, program, hread, -, -, -, hbehavior⟩ := exists_of_construct hmade
    exact ⟨c, fun worker => program.run limits now (worker.budget (.ofSeconds c.timeout)), hread,
      hbehavior⟩
  intro workers running limit hbehavior input s m
  obtain ⟨data, left, hattempt, hexecute, hrun⟩ := run_evaluate hbehavior input s m
  have hreports := n.reports_result ⟨⟨.ok ⟨data, none⟩, left⟩, 1⟩ 0
  refine ⟨_, data, left, congrArg Prod.fst hexecute, ?_, hreports, ?_, ?_⟩
  · intro _ deadline
    rw [n.run_deadline, hrun]
    rfl
  · intro hname
    rw [evaluation, Script.evaluate_of_not_canName hname] at hattempt
    cases hattempt
    exact ⟨rfl, _, marks_marked input _ _⟩
  · intro hname
    rw [evaluation, Script.evaluate_of_canName hname] at hattempt
    exact comes_of_attempt hattempt

/-- A node with a script that writes to the shared store and puts something out before it throws. -/
def throwing : NodeDefinition where
  id := "n"
  name := "N"
  nodeType := "code"
  config := [("code", .string "context.global_state.seen = 1; output.x = 1; throw \"no\";"),
    ("timeout", .number (.float 5.0))]

/-- Workers that are counted, each on a machine that is up since the script begins. -/
def counted : Script.Workers Nat := fun count => (⟨count, .zero, fun _ => 100⟩, count + 1)

def throwingNode : Except Error (Prepared Nat) :=
  Prepared.ofDefinition [("code", construct counted {} 0)] {} throwing

theorem exists_throwingNode : ∃ n, throwingNode = .ok n ∧
    construct counted {} 0 ⟨"n", "N", throwing.config⟩ = .ok n.behavior := by
  obtain ⟨n, hmade⟩ : ∃ n, throwingNode = .ok n := Fallible.exists_of_isOk (by decide +kernel)
  have hcreate (f : Constructor Nat) (i : Init) :
      Registry.create [("code", f)] "code" i = f i := rfl
  have hconstruct := (hcreate _ _).symm.trans (Prepared.create_of_ofDefinition hmade)
  exact ⟨n, hmade, hconstruct⟩

/-- The message of the error that a script ends with. -/
def thrown? : Ending → Option String
  | (some (.failed e), _) => some e.message
  | _ => none

theorem exists_of_thrown? {ending : Ending} {message : String}
    (h : thrown? ending = some message) :
    ∃ (e : Script.Error) (scope : List Entry), ending = (some (.failed e), scope) ∧
      e.message = message := by
  unfold thrown? at h
  split at h
  · rename_i e scope
    exact ⟨e, scope, rfl, Option.some.inj h⟩
  · cases h

/-- Nothing is left of what this script does but the marks. -/
theorem run_script_throwing :
    ∃ n, throwingNode = .ok n ∧
      let s := State.new ⟨[]⟩ "greet" []
      ∃ r data, (n.run [("k", .bool true)] none s ⟨1, 0⟩).1 = some (r, s.record r) ∧
        r.status = .success ∧ r.attempts = 1 ∧ r.output = some data ∧
        Marks [("k", .bool true)]
          "Script execution error: Runtime error: no (line 1, position 46)" "exception" data := by
  obtain ⟨n, hn, hmade⟩ := exists_throwingNode
  obtain ⟨c, program, hread, hparse, -, -, hbehavior⟩ := exists_of_construct hmade
  -- The configuration and the program are not written out: the script is read and run at once.
  have hevaluated : (Init.read ⟨"n", "N", throwing.config⟩ shape.decode >>= fun c =>
      let limit := Duration.ofSeconds c.timeout
      let worker := (counted 1).1
      pure ((attemptTimeout? limit).isSome, decide (worker.CanName limit),
        (Script.Program.parse {} c.code).toOption.bind fun p =>
          thrown? (p.run {} 0 (worker.budget limit) (initialScope [("k", .bool true)]
            (scriptContext (State.new ⟨[]⟩ "greet" []).context))))).toOption =
      some (true, true, some "Runtime error: no (line 1, position 46)") := by decide +kernel
  rw [hread] at hevaluated
  obtain ⟨hbound, hrest⟩ := Prod.mk.inj (Option.some.inj hevaluated)
  obtain ⟨hname, hthrown⟩ := Prod.mk.inj hrest
  rw [hparse] at hthrown
  obtain ⟨r, data, left, -, hrun, hreports, -, hcomes⟩ :=
    (run_script n).2 _ (fun worker => program.run {} 0 (worker.budget (.ofSeconds c.timeout))) _
      hbehavior [("k", .bool true)] (.new ⟨[]⟩ "greet" []) ⟨1, 0⟩
  obtain ⟨e, scope, hending, hmessage⟩ := exists_of_thrown? hthrown
  obtain ⟨rfl, hmarks⟩ := (hcomes (of_decide_eq_true hname)).failed e scope hending
  rw [hmessage] at hmarks
  obtain ⟨hstatus, houtput, -, -⟩ := hreports.success _ rfl
  exact ⟨n, hn, r, data, hrun hbound none, hstatus, hreports.attempts, houtput, hmarks⟩

end Workflow.Node.Code
