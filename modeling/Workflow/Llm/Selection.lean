import Workflow.Llm.ChatCompletion
import Workflow.Llm.ContentGeneration

/-!
The generator that a configuration selects.
-/
namespace Workflow.Llm

/-- The generator of a configuration, which asks its server over a network. -/
def Generator.ofConfig {σ : Type} (network : Http.Network σ) (c : LlmConfig) : Generator σ :=
  match c.provider with
  | .openAi => (ChatCompletion.Server.ofConfig c).generator network
  | .gemini => (ContentGeneration.Server.ofConfig c).generator network
  | .disabled => .disabled

end Workflow.Llm
