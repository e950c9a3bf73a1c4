import Workflow.Config
import Workflow.Llm.Generator

/-!
Servers that complete chats. A request is a list of messages with their roles; the text is the
content of the first choice of the reply.
-/
namespace Workflow.Llm.ChatCompletion

open Json.Decoder (Field Shape require)
open Time (Duration)

/-- The address of the usual server. -/
def usualUrl : String := "https://api.openai.com/v1"

/-- Where and how a server is asked. -/
structure Server where
  baseUrl : String
  key : Option String
  model : String
  timeout : Duration

/-- The content of the first choice. -/
abbrev Answer := List (Option String)

def messageShape : Shape (Option String) (Option String) where
  name := "ResponseMessage"
  fields := [.of "content" (.optional .string) (fun _ v => v) true]
  empty := none
  finish := .ok

def choiceShape : Shape (Option (Option String)) (Option String) where
  name := "Choice"
  fields := [.of "message" messageShape.decode (fun _ v => some v) false]
  empty := none
  finish := require "message"

def answerShape : Shape Answer Answer where
  name := "ChatResponse"
  fields := [.of "choices" (.list choiceShape.decode) (fun _ v => v) true]
  empty := []
  finish := .ok

/-- The text of an answer. -/
def text (answer : Answer) : Except Failure String :=
  match answer with
  | some content :: _ => .ok content
  | _ => .error .emptyResponse

namespace Server

def ofConfig (c : LlmConfig) : Server :=
  ⟨(c.baseUrl.map trimSlashes).getD usualUrl, c.apiKey, c.defaultModel, c.timeout⟩

def message (role content : String) : Json :=
  .object (Payload.ofList [("role", .string role), ("content", .string content)])

/-- The body of a request. -/
def body (s : Server) (r : Request) : Json :=
  let messages := (r.systemMessage.map (message "system")).toList ++ [message "user" r.prompt]
  .object (Payload.ofList
    [("model", .string (r.model.getD s.model)), ("messages", .array messages),
      ("temperature", r.temperatureJson), ("max_tokens", .ofInt r.maxTokens)])

def request (s : Server) (r : Request) : Except Http.Failure Http.Request :=
  let headers := s.key.toList.map fun key => ("authorization", s!"Bearer {key}")
  Http.Request.build .post s!"{s.baseUrl}/chat/completions" headers (some (s.body r))

def generator {σ : Type} (s : Server) (network : Http.Network σ) : Generator σ where
  defaultModel := s.model
  requestTimeout := some s.timeout
  generate r := ask network s.timeout answerShape.decode text (s.request r)

end Server

end Workflow.Llm.ChatCompletion
