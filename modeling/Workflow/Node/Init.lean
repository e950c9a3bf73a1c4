import Workflow.Node.Behavior

/-!
What a node is made from, and how its configuration is read.
-/
namespace Workflow.Node

/-- What a node is made from. -/
structure Init where
  id : String
  name : String
  config : Payload

namespace Init

def invalid {α : Type} (i : Init) (reason : String) : Except Error α :=
  .error (.invalidConfig i.id reason)

def read {α : Type} (i : Init) (decoder : Json.Decoder α) : Except Error α :=
  match Json.decode decoder (.object i.config) with
  | .ok a => .ok a
  | .error e => i.invalid e.message

end Init

end Workflow.Node
