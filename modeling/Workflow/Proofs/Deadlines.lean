import Workflow.Proofs.GeneratedText
import Workflow.Proofs.Scripts
import Workflow.Proofs.Seconds

/-!
Nodes with deadlines of their own, for a script or for a generator. The limit of their attempts is a
second later, so that the node itself tells that its deadline has passed. This goes wrong only where
numbers come to their end: a script whose deadline its worker cannot name does not begin, and a
second more than the longest duration is no duration.
-/
namespace Workflow

open Time (Duration Timed)

namespace Node

open Run (Context Prepared)

variable {σ : Type}

namespace Code

/-- What the output of a node tells of a script: what the script has put out, or the input with
marks on why there is nothing. -/
structure Tells (input : Payload) (evaluated : Except Script.Failure Script.Outcome)
    (data : Payload) : Prop where
  output : ∀ o, evaluated = .ok o → data = o.output.getD input
  late : ∀ limit, evaluated = .error (.timeout limit) →
    data = marked input s!"Code execution timed out after {limit.text} seconds" "timeout"
  failure : ∀ reason, evaluated = .error (.runtime reason) →
    data = marked input s!"Script execution error: {reason}" "exception"

theorem tells_of_attempt {evaluated : Except Script.Failure Script.Outcome} {input : Payload}
    {context : Context} {data left : Payload}
    (h : attempt input context evaluated = ⟨.ok ⟨data, none⟩, left⟩) :
    Tells input evaluated data where
  output o heq := by
    subst heq
    rw [attempt_ok] at h
    cases h
    rfl
  late limit heq := by
    subst heq
    cases h
    rfl
  failure reason heq := by
    subst heq
    cases h
    rfl

/-- A node with a script is tried once, and puts out what became of the script. -/
theorem exists_run {workers : Script.Workers σ} {limits : Script.Limits} {now : Int}
    {limit : Duration} {program : Script.Program} {n : Prepared σ}
    (hbehavior : n.behavior = behavior workers limit (program.execute limits now limit))
    (input : Payload) (s : Run.State) (m : Run.Moment σ) :
    ∃ r s' data, n.run input none s m = (some (r, s'), ⟨(workers m.world).2, m.clock⟩) ∧
      n.Reports (.ok ⟨data, none⟩) 1 r ∧
      Tells input (program.execute limits now limit (workers m.world).1 input
        (scriptContext s.context)) data := by
  have hevaluation : n.behavior = behavior workers limit
    (evaluation (fun worker => program.run limits now (worker.budget limit)) limit) := hbehavior
  obtain ⟨data, left, hattempt, -, hrun⟩ := run_evaluate hevaluation input s m
  exact ⟨_, _, data, hrun, n.reports_result ⟨⟨.ok ⟨data, none⟩, left⟩, 1⟩ 0,
    tells_of_attempt hattempt⟩

/-- There is a limit for the attempts unless the deadline is within a second of the longest
duration. -/
theorem isSome_attemptTimeout?_iff {limit : Duration} :
    (attemptTimeout? limit).isSome ↔ limit < .ofWholeSeconds (2 ^ 64 - 1) := by
  have hsum : limit + slack ≤ .longest ↔ limit < .ofWholeSeconds (2 ^ 64 - 1) := by
    change limit.nanoseconds + 1 * Duration.second ≤ 2 ^ 64 * Duration.second - 1 ↔
      limit.nanoseconds < (2 ^ 64 - 1) * Duration.second
    unfold Duration.second
    omega
  unfold attemptTimeout? Duration.add?
  rw [← hsum]
  by_cases h : limit + slack ≤ .longest
  · simp [h]
  · simp [h]

theorem isSome_attemptTimeout?_of_canName {worker : Script.Worker} {limit : Duration}
    (h : worker.CanName limit) : (attemptTimeout? limit).isSome := by
  rw [isSome_attemptTimeout?_iff]
  have hname : worker.uptime.nanoseconds + limit.nanoseconds < 2 ^ 63 * Duration.second := h
  change limit.nanoseconds < (2 ^ 64 - 1) * Duration.second
  unfold Duration.second at *
  omega

end Code

/-! ## Deadlines within attempts -/

/-- Whatever a node is given, it succeeds when it is first tried, with an output of some kind. -/
def SucceedsWith (n : Prepared σ) (kind : Payload → Context → σ → Payload → Prop) : Prop :=
  ∀ input s m, ∃ r s' data, (n.run input none s m).1 = some (r, s') ∧
    n.Reports (.ok ⟨data, none⟩) 1 r ∧ kind input s.context m.world data

/-- Deadlines of nodes and the limits of their attempts. There is a limit for a script unless its
deadline is within a second of the longest duration; it is no shorter than the deadline and not over
before. Then the node succeeds when it is first tried, and its output tells what became of the
script. A script whose deadline its worker can name has a limit; any other one does not begin. The
limit for a generator is a duration between its deadline and the longest one, and it is not over
before the deadline. The node succeeds when it is first tried; its output has no text if the
generator is late. -/
theorem deadlines_fit (n : Prepared σ) (i : Init) :
    (∀ workers limits now c, i.read Code.shape.decode = .ok c →
      Code.construct workers limits now i = .ok n.behavior →
      ∃ program, Script.Program.parse limits c.code = .ok program ∧
        let limit := Duration.ofSeconds c.timeout
        let evaluated := fun input (context : Context) world =>
          program.execute limits now limit (workers world).1 input (Code.scriptContext context)
        ((Code.attemptTimeout? limit).isSome ↔ limit < .ofWholeSeconds (2 ^ 64 - 1)) ∧
        ((Code.attemptTimeout? limit).isSome →
          Code.attemptTimeout? limit = some n.attemptTimeout ∧ limit ≤ n.attemptTimeout ∧
          limit.ticks ≤ n.attemptTimeout.ticks ∧
          SucceedsWith n fun input context world data =>
            Code.Tells input (evaluated input context world) data) ∧
        ∀ input context world, let worker := (workers world).1
          (worker.CanName limit → (Code.attemptTimeout? limit).isSome) ∧
          (¬ worker.CanName limit →
            evaluated input context world = .error (.brokenOff worker))) ∧
    ∀ generator c limit, i.read Generation.shape.decode = .ok c →
      Generation.construct generator i = .ok n.behavior →
      generator.requestTimeout = some limit → limit ≤ .longest →
      limit ≤ n.attemptTimeout ∧ n.attemptTimeout ≤ .longest ∧
        limit.ticks ≤ n.attemptTimeout.ticks ∧
        SucceedsWith n fun input _ world data =>
          let asked := Generation.request c generator.defaultModel input
          limit.ticks < (generator.generate asked world).1.duration.ticks →
            Payload.find? data "llm_response" = some .null ∧
            Payload.find? data "llm_error" =
              some (.string (Llm.Failure.timeout limit.seconds).message) := by
  constructor
  · intro workers limits now c hread hmade
    obtain ⟨c', program, hread', hparse, -, -, hbehavior⟩ := Code.exists_of_construct hmade
    rw [hread] at hread'
    cases hread'
    refine ⟨program, hparse, Code.isSome_attemptTimeout?_iff, ?_, ?_⟩
    · intro hbound
      obtain ⟨bound, hsum⟩ := Option.isSome_iff_exists.1 hbound
      have hlimit : n.attemptTimeout = bound := by
        unfold Prepared.attemptTimeout
        rw [hbehavior, Code.behavior, hsum, Option.getD_some, Option.getD_some]
      have hle : Duration.ofSeconds c.timeout ≤ bound := by
        rw [← (Duration.add?_eq_some_iff.1 hsum).2]
        exact Duration.le_add _ _
      rw [hlimit]
      refine ⟨hsum, hle, Duration.ticks_mono hle, ?_⟩
      intro input s m
      obtain ⟨r, s', data, hrun, hreports, htells⟩ := Code.exists_run hbehavior input s m
      exact ⟨r, s', data, congrArg Prod.fst hrun, hreports, htells⟩
    · intro input context world
      exact ⟨Code.isSome_attemptTimeout?_of_canName, Script.evaluate_of_not_canName⟩
  · intro generator c limit hread hmade hlimit hle
    rw [Generation.attemptTimeout_of_construct hread hmade hlimit]
    refine ⟨Duration.le_saturatingAdd hle _, Duration.saturatingAdd_le_longest _ _,
      limit.ticks_le_saturatingAdd _, ?_⟩
    intro input s m
    obtain ⟨r, s', data, hrun, hreports, htells⟩ :=
      Generation.exists_run hread hmade hlimit input s m
    refine ⟨r, s', data, congrArg Prod.fst hrun, hreports, ?_⟩
    intro hlate
    apply htells.failure
    rw [Generation.heard_value hlimit, if_pos hlate]

def scripted (timeout : Float) : NodeDefinition where
  id := "n"
  name := "N"
  nodeType := "code"
  config := [("code", .string "output.x = 1;"), ("timeout", .number (.float timeout))]

def scripting (timeout : Float) : Except Error (Prepared Nat) :=
  Prepared.ofDefinition [("code", Code.construct Code.counted {} 0)] {} (scripted timeout)

theorem deadlines_fit_fiveSeconds :
    (∃ n, scripting 5.0 = .ok n ∧
      Code.attemptTimeout? (.ofSeconds 5.0) = some n.attemptTimeout ∧
      ∃ r s' data, (n.run [] none (.new ⟨[]⟩ "greet" []) ⟨1, 0⟩).1 = some (r, s') ∧
        r.attempts = 1 ∧ r.output = some data) ∧
    ∃ n, Generation.asking (.ofWholeSeconds 5) (.ofWholeSeconds 7) = .ok n ∧
      Duration.ofWholeSeconds 5 ≤ n.attemptTimeout ∧
      ∃ r s' data, (n.run [] none (.new ⟨[]⟩ "greet" []) ⟨(), 0⟩).1 = some (r, s') ∧
        r.attempts = 1 ∧ r.output = some data ∧
        Payload.find? data "llm_response" = some .null := by
  constructor
  · obtain ⟨n, hn, hmade⟩ : ∃ n, scripting 5.0 = .ok n ∧
        Code.construct Code.counted {} 0 ⟨"n", "N", (scripted 5.0).config⟩ = .ok n.behavior :=
      ⟨_, rfl, rfl⟩
    have hread : Init.read ⟨"n", "N", (scripted 5.0).config⟩ Code.shape.decode =
        .ok ⟨"output.x = 1;", 5.0⟩ := rfl
    obtain ⟨program, -, -, hfits, -⟩ := (deadlines_fit n _).1 _ _ _ _ hread hmade
    obtain ⟨hsum, -, -, hruns⟩ := hfits (by decide +kernel)
    obtain ⟨r, s', data, hrun, hreports, -⟩ := hruns [] (.new ⟨[]⟩ "greet" []) ⟨1, 0⟩
    exact ⟨n, hn, hsum, r, s', data, hrun, hreports.attempts, (hreports.success _ rfl).2.1⟩
  · obtain ⟨n, hn, hmade⟩ := Generation.exists_asking (.ofWholeSeconds 5) (.ofWholeSeconds 7)
    obtain ⟨hle, -, -, hruns⟩ :=
      (deadlines_fit n _).2 _ _ _ Generation.read_greeting hmade rfl (by decide)
    obtain ⟨r, s', data, hrun, hreports, hlate⟩ := hruns [] (.new ⟨[]⟩ "greet" []) ⟨(), 0⟩
    exact ⟨n, hn, hle, r, s', data, hrun, hreports.attempts, (hreports.success _ rfl).2.1,
      (hlate (by decide)).1⟩

/-- A script that does not begin, because its worker cannot name its deadline, and one for which
there is no limit of the attempt either. -/
theorem scripting_beyondClock :
    ∃ n beyond, scripting 1e19 = .ok n ∧ scripting 2e19 = .ok beyond ∧
      (n.run [] none (.new ⟨[]⟩ "greet" []) ⟨1, 0⟩).1.map (fun done => done.1.output.map fun data =>
          data.map fun entry => (entry.1, entry.2.text?)) =
        some (some
          [("_script_error", some ("Script execution error: script worker failed: task 1 panicked "
              ++ "with message \"overflow when adding duration to instant\"")),
            ("_script_error_kind", some "exception")]) ∧
      Code.attemptTimeout? (.ofSeconds 2e19) = none := by
  refine ⟨_, _, rfl, rfl, by decide +kernel, by decide +kernel⟩

end Node

end Workflow
