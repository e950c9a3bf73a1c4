import Workflow.Json.Reader
import Workflow.Node.Init
import Workflow.Template.Render

/-!
Nodes that send a request and put out the reply. Address, headers and body are rendered against
the input; nothing else of the input leaves the node or goes into its output.
-/
namespace Workflow.Node.HttpRequest

open Json.Decoder (Field Shape require)
open Run (Context)
open Time (Duration Timed)

structure Parts where
  url : Option String := none
  method : String := "GET"
  headers : List (String × String) := []
  body : Option Json := none
  timeout : Float := 30.0

/-- A configuration with its address. -/
structure Written where
  url : String
  parts : Parts

def shape : Shape Parts Written where
  name := "HttpConfig"
  fields :=
    [.of "url" .string (fun p v => { p with url := some v }) false,
      .of "method" .string (fun p v => { p with method := v }) true,
      .of "headers" (.mapOf .string) (fun p v => { p with headers := v }) true,
      .of "body" (.optional .value) (fun p v => { p with body := v }) true,
      .of "timeout" .double (fun p v => { p with timeout := v }) true]
  empty := {}
  finish p := do return ⟨← require "url" p.url, p⟩

/-- What a node sends. -/
structure Config where
  url : String
  method : Http.Method
  headers : List (String × String)
  body : Option Json
  timeout : Duration

def Written.check (w : Written) (i : Init) : Except Error Config := do
  if (Text.trimChars w.url.toList).isEmpty then i.invalid "URL is required for HTTP node"
  let method ← match Http.Method.ofText w.parts.method with
    | .ok m => pure m
    | .error name => i.invalid (Http.Method.unsupportedMessage name)
  let x := w.parts.timeout
  if !(x.isFinite && 0.0 < x) then i.invalid "'timeout' must be a positive number of seconds"
  return ⟨w.url, method, w.parts.headers, w.parts.body, .ofSeconds x⟩

namespace Config

def request (c : Config) (input : Payload) : Except Http.Failure Http.Request :=
  let headers := c.headers.map fun (name, value) => (name, Template.render input value)
  let body := if c.method.sendsBody then c.body.map (Template.renderValue input) else none
  Http.Request.build c.method (Template.render input c.url) headers body

/-- The body of a reply: JSON where it is announced and can be read, else text. -/
def bodyOf (reply : Http.Reply) : Json :=
  if reply.isJson then
    match Json.parse reply.text with
    | .ok v => v
    | .error _ => .string reply.text
  else .string reply.text

/-- The output for a reply. -/
def output (c : Config) (input : Payload) (reply : Http.Reply) : Payload :=
  Payload.ofList
    [("status_code", .ofInt reply.status), ("headers", .object reply.headerPayload),
      ("body", bodyOf reply), ("url", .string (Template.render input c.url)),
      ("method", .string c.method.name)]

end Config

def execute {σ : Type} (network : Http.Network σ) (c : Config) (input : Payload)
    (context : Context) (world : σ) : Timed Attempt × σ :=
  match c.request input with
  | .error e => (.now (.leaving context (.error (.http e))), world)
  | .ok request =>
    let (answer, world) := request.send network c.timeout world
    let attempt := answer.map fun r => match r with
      | .ok reply => Attempt.leaving context (.ok ⟨c.output input reply, none⟩)
      | .error e => Attempt.leaving context (.error (.http e))
    (attempt, world)

def construct {σ : Type} (network : Http.Network σ) (i : Init) :
    Except Error (Behavior σ) := do
  let written ← i.read shape.decode
  let c ← written.check i
  return ⟨"http_request", none, false, execute network c⟩

end Workflow.Node.HttpRequest
