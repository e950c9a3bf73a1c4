import Workflow.Llm.Selection
import Workflow.Node.Init
import Workflow.Template.Render

/-!
Nodes that ask for generated text. The prompt is rendered against the input. A generator that
fails, or takes longer than it may, does not fail the node: the output says so and has no text.
-/
namespace Workflow.Node.Generation

open Json.Decoder (Field Shape require)
open Run (Context)
open Time (Duration Timed)

/-- A configuration as far as it has been read. -/
structure Parts where
  prompt : Option String := none
  model : Option String := none
  temperature : Float32 := 0.7
  maxTokens : Nat := 1000
  systemMessage : Option String := none

/-- What a node asks for; the prompt still has its placeholders. -/
def Parts.finish (p : Parts) : Except Json.DecodeError Llm.Request := do
  let prompt ← require "prompt" p.prompt
  return ⟨prompt, p.model, p.temperature, p.maxTokens, p.systemMessage⟩

def shape : Shape Parts Llm.Request where
  name := "LlmNodeConfig"
  fields :=
    [.of "prompt" .string (fun p v => { p with prompt := some v }) false,
      .of "model" (.optional .string) (fun p v => { p with model := v }) true,
      .of "temperature" .single (fun p v => { p with temperature := v }) true,
      .of "max_tokens" .word32 (fun p v => { p with maxTokens := v }) true,
      .of "system_message" (.optional .string) (fun p v => { p with systemMessage := v }) true]
  empty := {}
  finish := Parts.finish

/-- The time by which the limit of an attempt exceeds that of the generator. -/
def slack : Duration := .ofWholeSeconds 1

/-- The request on an input, which names its model. -/
def request (c : Llm.Request) (defaultModel : String) (input : Payload) : Llm.Request :=
  { c with
    prompt := Template.render input c.prompt
    model := some (c.model.getD defaultModel) }

/-- The input with the request and what came of it. -/
def output (r : Llm.Request) (input : Payload) (answer : Except Llm.Failure String) : Payload :=
  let asked := Payload.insertAll input
    [("llm_prompt", .string r.prompt), ("llm_model", .ofText? r.model)]
  match answer with
  | .ok text => Payload.insert asked "llm_response" (.string text)
  | .error e =>
    Payload.insertAll asked [("llm_response", .null), ("llm_error", .string e.message)]

def execute {σ : Type} (generator : Llm.Generator σ) (c : Llm.Request) (input : Payload)
    (context : Context) (world : σ) : Timed Attempt × σ :=
  let r := request c generator.defaultModel input
  let (answer, world) := generator.generate r world
  let answer := match generator.requestTimeout with
    | some limit => answer.within limit (.error (.timeout limit.seconds))
    | none => answer
  (answer.map fun text => .leaving context (.ok ⟨output r input text, none⟩), world)

def construct {σ : Type} (generator : Llm.Generator σ) (i : Init) :
    Except Error (Behavior σ) := do
  let c ← i.read shape.decode
  if (Text.trimChars c.prompt.toList).isEmpty then i.invalid "'prompt' is required for LLM node"
  if !(0.0 ≤ c.temperature && c.temperature ≤ 2.0) then
    i.invalid "'temperature' must be between 0.0 and 2.0"
  if c.maxTokens = 0 then i.invalid "'max_tokens' must be greater than 0"
  return ⟨"llm", generator.requestTimeout.map (·.saturatingAdd slack), false,
    execute generator c⟩

end Workflow.Node.Generation
