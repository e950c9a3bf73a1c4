import Workflow.Decimal.Layout
import Workflow.Http.Exchange

/-!
What can go wrong with a node, when it is made and when it runs.
-/
namespace Workflow.Node

/-- Why a node cannot be made or does not do its work. -/
inductive Error where
  | unknownType (nodeType : String) (known : List String)
  | invalidConfig (node reason : String)
  | execution (reason : String)
  | timeout (node : String) (seconds : Float)
  | http (failure : Http.Failure)

namespace Error

def message : Error → String
  | unknownType nodeType known =>
    s!"Unknown node type '{nodeType}'. Must be one of: " ++ ", ".intercalate known
  | invalidConfig node reason => s!"Invalid configuration for node '{node}': {reason}"
  | execution reason => reason
  | timeout node seconds =>
    s!"Node '{node}' timed out after {Decimal.Layout.message.double seconds} seconds"
  | http failure => s!"HTTP request failed: {failure.message}"

/-- Whether it makes sense to try again; a wrong configuration stays wrong. -/
def isRetryable : Error → Bool
  | unknownType _ _ | invalidConfig _ _ => false
  | execution _ | timeout _ _ | http _ => true

end Error

end Workflow.Node
