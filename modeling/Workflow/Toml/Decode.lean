import Workflow.Json.Decode
import Workflow.Toml.Reader

/-!
Values of one type from TOML. They are read like those from JSON.
-/
namespace Workflow.Toml

/-- The value of a whole document. -/
def decode? {α : Type} (decoder : Json.Decoder α) (text : String) : Option α := do
  (decoder (← parse text)).toOption

end Workflow.Toml
