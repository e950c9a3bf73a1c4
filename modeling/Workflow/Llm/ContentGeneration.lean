import Workflow.Config
import Workflow.Llm.Generator

/-!
Servers that generate content. A request is a list of contents in parts and carries the key in its
query; the text is put together from the parts of the first candidate of the reply.
-/
namespace Workflow.Llm.ContentGeneration

open Json.Decoder (Field Shape)
open Time (Duration)

/-- The address of the usual server. -/
def usualUrl : String := "https://generativelanguage.googleapis.com/v1beta"

/-- Where and how a server is asked. -/
structure Server where
  baseUrl : String
  key : Option String
  model : String
  timeout : Duration

/-- The texts of the parts of every candidate with a content. -/
abbrev Answer := List (Option (List (Option String)))

def partShape : Shape (Option String) (Option String) where
  name := "CandidatePart"
  fields := [.of "text" (.optional .string) (fun _ v => v) true]
  empty := none
  finish := .ok

def contentShape : Shape (List (Option String)) (List (Option String)) where
  name := "CandidateContent"
  fields := [.of "parts" (.list partShape.decode) (fun _ v => v) true]
  empty := []
  finish := .ok

def candidateShape :
    Shape (Option (List (Option String))) (Option (List (Option String))) where
  name := "Candidate"
  fields := [.of "content" (.optional contentShape.decode) (fun _ v => v) true]
  empty := none
  finish := .ok

def answerShape : Shape Answer Answer where
  name := "GenerateContentResponse"
  fields := [.of "candidates" (.list candidateShape.decode) (fun _ v => v) true]
  empty := []
  finish := .ok

/-- The text of an answer. -/
def text (answer : Answer) : Except Failure String :=
  let parts := (answer.head?.join.getD []).filterMap id
  let content := String.join parts
  if content.isEmpty then .error .emptyResponse else .ok content

namespace Server

def ofConfig (c : LlmConfig) : Server :=
  ⟨(c.baseUrl.map trimSlashes).getD usualUrl, c.apiKey, c.defaultModel, c.timeout⟩

def parts (text : String) : String × Json :=
  ("parts", .array [.object (Payload.ofList [("text", .string text)])])

/-- The body of a request. -/
def body (r : Request) : Json :=
  let instruction := r.systemMessage.map fun text => .object (Payload.ofList [parts text])
  .object (Payload.ofList
    ([("contents", .array [.object (Payload.ofList [("role", .string "user"), parts r.prompt])])]
      ++ Json.optionalEntry "systemInstruction" instruction
      ++ [("generationConfig", .object (Payload.ofList
        [("temperature", r.temperatureJson), ("maxOutputTokens", .ofInt r.maxTokens)]))]))

def request (s : Server) (key : String) (r : Request) : Except Http.Failure Http.Request :=
  let url := s!"{s.baseUrl}/models/{r.model.getD s.model}:generateContent"
  Http.Request.build .post url [] (some (body r)) [("key", key)]

/-- Without a key the server is not asked. -/
def generator {σ : Type} (s : Server) (network : Http.Network σ) : Generator σ where
  defaultModel := s.model
  requestTimeout := some s.timeout
  generate r world :=
    match s.key with
    | none => (.now (.error .notConfigured), world)
    | some key => ask network s.timeout answerShape.decode text (s.request key r) world

end Server

end Workflow.Llm.ContentGeneration
