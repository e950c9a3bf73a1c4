import Workflow.Proofs.Construction
import Workflow.Proofs.Retries
import Workflow.Run.Engine

/-!
What comes of asking for text. Whatever a generator does, its node succeeds when it is first tried,
and not later than the limit of the generator. The output holds the prompt and the text, or no text
and the reason. An entry for the reason that was in the input already stays there, also beside a
text.
-/
namespace Workflow.Node.Generation

open Run (Context Prepared)
open Time (Duration Timed)

variable {σ : Type}

/-- What the node hears from the generator: an answer that takes longer than the limit is the error
that tells the limit. -/
def heard (generator : Llm.Generator σ) (r : Llm.Request) (world : σ) :
    Timed (Except Llm.Failure String) :=
  match generator.requestTimeout with
  | some limit => (generator.generate r world).1.within limit (.error (.timeout limit.seconds))
  | none => (generator.generate r world).1

/-- What the output of a node tells of a request on an input and of what was heard. Under a key that
speaks of neither, it has what the input has. -/
structure Tells (r : Llm.Request) (input : Payload) (answer : Except Llm.Failure String)
    (data : Payload) : Prop where
  prompt : Payload.find? data "llm_prompt" = some (.string r.prompt)
  model : Payload.find? data "llm_model" = some (.ofText? r.model)
  success : ∀ text, answer = .ok text →
    Payload.find? data "llm_response" = some (.string text) ∧
    Payload.find? data "llm_error" = Payload.find? input "llm_error"
  failure : ∀ e, answer = .error e →
    Payload.find? data "llm_response" = some .null ∧
    Payload.find? data "llm_error" = some (.string e.message)
  other : ∀ key, key ∉ ["llm_prompt", "llm_model", "llm_response", "llm_error"] →
    Payload.find? data key = Payload.find? input key

theorem tells_output (r : Llm.Request) (input : Payload) (answer : Except Llm.Failure String) :
    Tells r input answer (output r input answer) where
  prompt := by
    cases answer <;> simp [output, Payload.insertAll]
  model := by
    cases answer <;> simp [output, Payload.insertAll]
  success text h := by
    subst h
    simp [output, Payload.insertAll]
  failure e h := by
    subst h
    simp [output, Payload.insertAll]
  other key h := by
    simp only [List.mem_cons, List.not_mem_nil, or_false, not_or] at h
    cases answer <;> simp [output, Payload.insertAll, h]

theorem eq_of_construct {generator : Llm.Generator σ} {i : Init} {c : Llm.Request}
    {b : Behavior σ} (hread : i.read shape.decode = .ok c) (h : construct generator i = .ok b) :
    b = ⟨"llm", generator.requestTimeout.map (·.saturatingAdd slack), false,
        execute generator c⟩ := by
  obtain ⟨c', hread', rfl⟩ := exists_of_construct h
  rw [hread] at hread'
  cases hread'
  rfl

theorem execute_of_construct {generator : Llm.Generator σ} {i : Init} {c : Llm.Request}
    {b : Behavior σ} (hread : i.read shape.decode = .ok c) (h : construct generator i = .ok b)
    (input : Payload) (context : Context) (world : σ) :
    b.execute input context world =
      ((heard generator (request c generator.defaultModel input) world).map fun answer =>
        .leaving context
          (.ok ⟨output (request c generator.defaultModel input) input answer, none⟩),
        (generator.generate (request c generator.defaultModel input) world).2) := by
  rw [eq_of_construct hread h]
  rfl

/-! ## What is heard -/

section Heard

variable {generator : Llm.Generator σ} {limit : Duration} {r : Llm.Request} {world : σ}

theorem heard_eq (hlimit : generator.requestTimeout = some limit) :
    heard generator r world =
      (generator.generate r world).1.within limit (.error (.timeout limit.seconds)) := by
  unfold heard
  rw [hlimit]

theorem heard_value (hlimit : generator.requestTimeout = some limit) :
    (heard generator r world).value =
      if limit.ticks < (generator.generate r world).1.duration.ticks then
        .error (.timeout limit.seconds)
      else (generator.generate r world).1.value := by
  rw [heard_eq hlimit]
  unfold Timed.within
  rw [apply_ite Timed.value]

/-- A call of the generator without a text that is in time. -/
def Fails (generator : Llm.Generator σ) (r : Llm.Request) (world : σ) : Prop :=
  (∃ e, (generator.generate r world).1.value = .error e) ∨
    ∃ limit, generator.requestTimeout = some limit ∧
      limit.ticks < (generator.generate r world).1.duration.ticks

theorem fails_iff : Fails generator r world ↔ ∃ e, (heard generator r world).value = .error e := by
  unfold Fails
  cases hlimit : generator.requestTimeout with
  | none =>
    unfold heard
    simp [hlimit]
  | some limit =>
    rw [heard_value hlimit]
    by_cases hlate : limit.ticks < (generator.generate r world).1.duration.ticks
    · simp [hlate]
    · simp [hlate]

end Heard

/-! ## One attempt is enough -/

theorem attemptTimeout_of_construct {generator : Llm.Generator σ} {i : Init} {c : Llm.Request}
    {n : Prepared σ} {limit : Duration} (hread : i.read shape.decode = .ok c)
    (hmade : construct generator i = .ok n.behavior)
    (hlimit : generator.requestTimeout = some limit) :
    n.attemptTimeout = limit.saturatingAdd slack := by
  unfold Prepared.attemptTimeout
  rw [eq_of_construct hread hmade, hlimit, Option.map_some, Option.getD_some]

theorem exists_run {generator : Llm.Generator σ} {i : Init} {c : Llm.Request} {n : Prepared σ}
    {limit : Duration} (hread : i.read shape.decode = .ok c)
    (hmade : construct generator i = .ok n.behavior)
    (hlimit : generator.requestTimeout = some limit) (input : Payload) (s : Run.State)
    (m : Run.Moment σ) :
    let asked := request c generator.defaultModel input
    let reply := (generator.generate asked m.world).1
    ∃ r s' data, n.run input none s m = (some (r, s'),
        ⟨(generator.generate asked m.world).2, m.clock + min reply.duration.ticks limit.ticks⟩) ∧
      n.Reports (.ok ⟨data, none⟩) 1 r ∧
      Tells asked input (heard generator asked m.world).value data := by
  intro asked reply
  have hexecute := execute_of_construct hread hmade input s.context m.world
  have hticks : (heard generator asked m.world).duration.ticks =
      min reply.duration.ticks limit.ticks := by
    rw [heard_eq hlimit, Timed.ticks_within]
  have htime : (heard generator asked m.world).duration.ticks ≤ n.attemptTimeout.ticks := by
    rw [attemptTimeout_of_construct hread hmade hlimit, hticks]
    exact Nat.le_trans (Nat.min_le_right _ _) (limit.ticks_le_saturatingAdd slack)
  obtain ⟨r, s', hreports, hrun⟩ := n.exists_run_of_ok input hexecute rfl htime
  refine ⟨r, s', _, ?_, hreports, tells_output asked input _⟩
  rw [hrun, Timed.map, hticks]

/-- A node that asks for text does not fail. Whatever the policy and whatever the generator does, it
succeeds when it is first tried, after the ticks of the reply or of the limit, whichever are fewer.
Its output tells the reply, or the limit if the reply comes after it. -/
theorem run_degrades {generator : Llm.Generator σ} {i : Init} {c : Llm.Request} {n : Prepared σ}
    {limit : Duration} (hread : i.read shape.decode = .ok c)
    (hmade : construct generator i = .ok n.behavior)
    (hlimit : generator.requestTimeout = some limit) (input : Payload) (s : Run.State)
    (m : Run.Moment σ) :
    let asked := request c generator.defaultModel input
    let reply := (generator.generate asked m.world).1
    ∃ r s' data, n.run input none s m = (some (r, s'),
        ⟨(generator.generate asked m.world).2, m.clock + min reply.duration.ticks limit.ticks⟩) ∧
      r.status = .success ∧ r.attempts = 1 ∧ r.error = none ∧ r.output = some data ∧
      Payload.find? data "llm_prompt" = some (.string (Template.render input c.prompt)) ∧
      Tells asked input
        (if limit.ticks < reply.duration.ticks then .error (.timeout limit.seconds)
          else reply.value) data := by
  intro asked reply
  obtain ⟨r, s', data, hrun, hreports, htells⟩ := exists_run hread hmade hlimit input s m
  obtain ⟨hstatus, houtput, herror, -⟩ := hreports.success _ rfl
  rw [heard_value hlimit] at htells
  exact ⟨r, s', data, hrun, hstatus, hreports.attempts, herror, houtput, htells.prompt, htells⟩

def greeting : NodeDefinition where
  id := "ask"
  name := "Ask"
  nodeType := "llm"
  config := [("prompt", .string "Hi {k}")]

/-- A generator under a limit whose text takes some time. -/
def slow (limit delay : Duration) : Llm.Generator Unit where
  defaultModel := "m"
  requestTimeout := some limit
  generate _ world := (⟨.ok "late", delay⟩, world)

def asking (limit delay : Duration) : Except Error (Prepared Unit) :=
  Prepared.ofDefinition [("llm", construct (slow limit delay))] {} greeting

theorem read_greeting : Init.read ⟨"ask", "Ask", greeting.config⟩ shape.decode =
    .ok ⟨"Hi {k}", none, 0.7, 1000, none⟩ := rfl

theorem exists_asking (limit delay : Duration) :
    ∃ n, asking limit delay = .ok n ∧
      construct (slow limit delay) ⟨"ask", "Ask", greeting.config⟩ = .ok n.behavior :=
  ⟨_, rfl, rfl⟩

/-- A text that comes two seconds after the limit. -/
theorem run_degrades_late :
    ∃ n, asking (.ofWholeSeconds 5) (.ofWholeSeconds 7) = .ok n ∧
      ∃ r s' data, n.run [("k", .bool true)] none (.new ⟨[]⟩ "greet" []) ⟨(), 0⟩ =
          (some (r, s'), ⟨(), 5000⟩) ∧
        r.status = .success ∧ r.attempts = 1 ∧ r.output = some data ∧
        Payload.find? data "llm_prompt" = some (.string "Hi true") ∧
        Payload.find? data "llm_response" = some .null ∧
        Payload.find? data "llm_error" =
          some (.string "LLM request exceeded timeout of 5 seconds") := by
  obtain ⟨n, hn, hmade⟩ := exists_asking (.ofWholeSeconds 5) (.ofWholeSeconds 7)
  obtain ⟨r, s', data, hrun, hstatus, hattempts, -, houtput, hprompt, htells⟩ :=
    run_degrades read_greeting hmade rfl [("k", .bool true)] (.new ⟨[]⟩ "greet" []) ⟨(), 0⟩
  obtain ⟨hresponse, herror⟩ := htells.failure _ rfl
  have hrendered : Template.render [("k", .bool true)] "Hi {k}" = "Hi true" := by decide +kernel
  have hmessage : (Llm.Failure.timeout (Duration.ofWholeSeconds 5).seconds).message =
      "LLM request exceeded timeout of 5 seconds" := by decide +kernel
  rw [hrendered] at hprompt
  rw [hmessage] at herror
  exact ⟨n, hn, r, s', data, hrun, hstatus, hattempts, houtput, hprompt, hresponse, herror⟩

/-- Delays and limits are counted on the clock. A text that takes a thousand million seconds comes
after thirty years. A limit of a fifth of a millisecond leaves a text in time that comes after half
a millisecond, at the same tick. -/
theorem run_degrades_ticks :
    ∃ patient hasty,
      asking (.ofWholeSeconds (10 ^ 19)) (.ofWholeSeconds (10 ^ 9)) = .ok patient ∧
      asking ⟨200000⟩ ⟨500000⟩ = .ok hasty ∧
      (Duration.ofWholeSeconds (10 ^ 9)).milliseconds = 10 ^ 12 ∧
      Duration.ofWholeSeconds (10 ^ 9) ≤ .ofWholeSeconds (10 ^ 19) ∧
      Duration.ofWholeSeconds (10 ^ 19) < .longest ∧
      let run := fun n : Prepared Unit =>
        n.run [("k", .bool true)] none (.new ⟨[]⟩ "greet" []) ⟨(), 0⟩
      let response := fun n => ((run n).1.bind fun done => done.1.output).bind fun data =>
        (Payload.find? data "llm_response").map Json.compact
      response patient = some "\"late\"" ∧ (run patient).2.clock = 30 * 365 * 86400 * 1000 ∧
        response hasty = some "\"late\"" ∧ (run hasty).2.clock = 1 := by
  refine ⟨_, _, rfl, rfl, by decide, by decide, by decide, ?_⟩
  intro run response
  exact ⟨by decide +kernel, by decide +kernel, by decide +kernel, by decide +kernel⟩

/-! ## The entry for the reason -/

/-- What the entries for the text and for the reason say. A node always has an output. There is no
text in it just if the call of this node fails, and then the reason is that of this call. After a
call with a text, the entry for the reason is that of the input. So this entry speaks of the call of
this node just if the call fails or the input comes without one. -/
theorem execute_llmError {generator : Llm.Generator σ} {i : Init} {c : Llm.Request}
    {b : Behavior σ} (hread : i.read shape.decode = .ok c)
    (hmade : construct generator i = .ok b) (input : Payload) (context : Context) (world : σ) :
    let asked := request c generator.defaultModel input
    ∃ data, (b.execute input context world).1.value.outcome = .ok ⟨data, none⟩ ∧
      (Payload.find? data "llm_response" = some .null ↔ Fails generator asked world) ∧
      (∀ e, (heard generator asked world).value = .error e →
        Payload.find? data "llm_error" = some (.string e.message)) ∧
      (¬ Fails generator asked world →
        Payload.find? data "llm_error" = Payload.find? input "llm_error") ∧
      (((Payload.find? data "llm_error").isSome ↔
          Payload.find? data "llm_response" = some .null) ↔
        Fails generator asked world ∨ Payload.find? input "llm_error" = none) := by
  intro asked
  have htells := tells_output asked input (heard generator asked world).value
  refine ⟨output asked input (heard generator asked world).value, ?_, ?_⟩
  · rw [execute_of_construct hread hmade]
    rfl
  rw [fails_iff]
  generalize output asked input (heard generator asked world).value = data at htells ⊢
  cases hheard : (heard generator asked world).value with
  | ok text =>
    obtain ⟨hresponse, herror⟩ := htells.success text hheard
    rw [hresponse, herror]
    simp
  | error e =>
    obtain ⟨hresponse, herror⟩ := htells.failure e hheard
    rw [hresponse, herror]
    simp

/-- A generator that fails when it is first called. -/
def recovering : Llm.Generator Nat where
  defaultModel := "m"
  requestTimeout := some (.ofWholeSeconds 5)
  generate _ calls := (.now (if calls = 0 then .error (.api 500 "down") else .ok "fine"), calls + 1)

/-- A later call with a text, on an input with the reason of an earlier one. -/
theorem execute_llmError_later :
    ∃ b, construct recovering ⟨"ask", "Ask", greeting.config⟩ = .ok b ∧
      ∃ data,
        (b.execute [("llm_error", .string "down")] ⟨"greet", ⟨[]⟩, [], []⟩ 1).1.value.outcome =
          .ok ⟨data, none⟩ ∧
        Payload.find? data "llm_response" ≠ some .null ∧
        Payload.find? data "llm_error" = some (.string "down") := by
  obtain ⟨b, hmade⟩ : ∃ b, construct recovering ⟨"ask", "Ask", greeting.config⟩ = .ok b := ⟨_, rfl⟩
  obtain ⟨data, houtcome, hresponse, -, hkeeps, -⟩ :=
    execute_llmError read_greeting hmade [("llm_error", .string "down")] ⟨"greet", ⟨[]⟩, [], []⟩ 1
  have hcall : ¬ Fails recovering
      (request ⟨"Hi {k}", none, 0.7, 1000, none⟩ "m" [("llm_error", .string "down")]) 1 := by
    rw [fails_iff]
    intro h
    obtain ⟨e, he⟩ := h
    cases he
  refine ⟨b, hmade, data, houtcome, ?_, hkeeps hcall⟩
  intro hnull
  exact hcall (hresponse.1 hnull)

/-- A workflow that asks twice. -/
def greetings : Definition where
  id := "greet"
  startNode := "ask"
  nodes := [{ greeting with nextNodes := ["again"] }, { greeting with id := "again" }]

/-- The second node has a text, and still the reason why the first one has none. -/
theorem execute_llmError_stale :
    let engine : Run.Engine Nat := ⟨{}, [("llm", construct recovering)]⟩
    let s := (engine.execute greetings [] .never ⟨[]⟩ ⟨0, 0⟩ 0).state
    s.status = .completed ∧
      s.results.map (fun r => (r.nodeId, (r.output.bind fun data =>
        Payload.find? data "llm_response").map Json.compact)) =
          [("ask", some "null"), ("again", some "\"fine\"")] ∧
      s.results.map (fun r => (r.nodeId, (r.output.bind fun data =>
        Payload.find? data "llm_error").map Json.compact)) =
          [("ask", some "\"LLM API error (status 500): down\""),
            ("again", some "\"LLM API error (status 500): down\"")] := by
  intro engine s
  exact ⟨by decide +kernel, by decide +kernel, by decide +kernel⟩

end Workflow.Node.Generation
