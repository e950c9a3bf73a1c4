import Workflow.Decimal.Layout
import Workflow.Decimal.Numeral
import Workflow.Http.Exchange
import Workflow.Json.Decode

/-!
Generated text: what is asked for, what can go wrong, and what gives the answers. A generator that
asks a server reads the reply in two steps: a reply without success is an error with the text of
its body, and any other reply has to be JSON of the expected form.
-/
namespace Workflow.Llm

open Time (Duration Timed)

structure Request where
  prompt : String
  /-- Takes the place of the usual model. -/
  model : Option String := none
  temperature : Float32 := 0.7
  maxTokens : Nat := 1000
  systemMessage : Option String := none

inductive Failure where
  | request (failure : Http.Failure)
  | api (status : Nat) (body : String)
  | timeout (seconds : Float)
  | emptyResponse
  | notConfigured

def Failure.message : Failure → String
  | request failure => s!"LLM request failed: {failure.message}"
  | api status body => s!"LLM API error (status {status}): {body}"
  | timeout seconds =>
    s!"LLM request exceeded timeout of {Decimal.Layout.message.double seconds} seconds"
  | emptyResponse => "LLM response contained no text"
  | notConfigured => "No LLM provider configured"

/-- Generates text in a world with states of type `σ`. -/
structure Generator (σ : Type) where
  /-- The model that is used where none is named. -/
  defaultModel : String
  /-- The time that a request may take, if there is a limit. -/
  requestTimeout : Option Duration
  generate : Request → σ → Timed (Except Failure String) × σ

def Generator.disabled {σ : Type} : Generator σ where
  defaultModel := "none"
  requestTimeout := none
  generate _ world := (.now (.error .notConfigured), world)

/-- The temperature of a request as a number with the shortest digits. -/
def Request.temperatureJson (r : Request) : Json :=
  match Decimal.parseFloat (Json.Number.layout.single r.temperature) with
  | .ok x => .ofFloat x
  | .error _ => .null

/-! ## Servers -/

def readReply {α : Type} (decoder : Json.Decoder α) (text : α → Except Failure String)
    (reply : Http.Reply) : Except Failure String :=
  if reply.isSuccess then
    match Json.decodeBytes decoder reply.body with
    | .ok answer => text answer
    | .error _ => .error (.request .decoding)
  else .error (.api reply.status reply.text)

/-- Sends a request, if it could be built, and reads the reply. -/
def ask {σ α : Type} (network : Http.Network σ) (limit : Duration) (decoder : Json.Decoder α)
    (text : α → Except Failure String) (request : Except Http.Failure Http.Request)
    (world : σ) :
    Timed (Except Failure String) × σ :=
  match request with
  | .error e => (.now (.error (.request e)), world)
  | .ok request =>
    let (answer, world) := request.send network limit world
    let read := answer.map fun r => match r with
      | .ok reply => readReply decoder text reply
      | .error e => .error (.request e)
    (read, world)

def trimSlashes (address : String) : String :=
  String.ofList ((address.toList.reverse.dropWhile (· = '/')).reverse)

end Workflow.Llm
