import Workflow.Json.Decode

/-!
The providers of generated text, and the names that stand for them. In a configuration a name is
taken as it is written; elsewhere the case of its letters does not matter and there are more names.
-/
namespace Workflow.Llm

/-- A provider of generated text. -/
inductive Provider where
  | openAi | gemini | disabled
  deriving Repr, DecidableEq

namespace Provider

def name : Provider → String
  | openAi => "openai"
  | gemini => "gemini"
  | disabled => "none"

def decoder : Json.Decoder Provider :=
  Json.Decoder.choice [("open_ai", openAi), ("openai", openAi), ("gemini", gemini),
    ("google", gemini), ("vertexai", gemini), ("none", disabled)]

/-- The provider of a name in letters of any case; the error is the name in small letters. -/
def ofName (text : String) : Except String Provider :=
  let name := String.ofList (text.toList.map Char.toLower)
  if name ∈ ["openai", "open_ai"] then .ok openAi
  else if name ∈ ["gemini", "vertexai", "google"] then .ok gemini
  else if name ∈ ["none", "disabled"] then .ok disabled
  else .error name

def unknownMessage (name : String) : String :=
  s!"Unknown LLM provider: {name}. Use 'openai', 'gemini' or 'none'"

/-- The model that is used when none is named. -/
def defaultModel : Provider → String
  | openAi => "gpt-4"
  | gemini => "gemini-pro"
  | disabled => "none"

end Provider

end Workflow.Llm
