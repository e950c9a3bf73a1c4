import Workflow.Node.Error
import Workflow.Run.State

/-!
What a node does. A behaviour gets an input and a context, takes some time, and ends with an
output or an error; it may leave another shared store than it found. What it does to the world
outside of the run happens when it begins.
-/
namespace Workflow.Node

open Run (Context)
open Time (Duration Timed)

/-- What a node puts out; it may choose the nodes that come next. -/
structure Output where
  data : Payload
  nextNodes : Option (List String) := none

structure Attempt where
  outcome : Except Error Output
  globalState : Payload

/-- The behaviour of a node in a world with states of type `σ`. -/
structure Behavior (σ : Type) where
  nodeType : String
  /-- A time limit of an attempt that takes the place of the one of the policy. -/
  attemptTimeout : Option Duration
  /-- Whether an attempt hands its work over and waits for it: it is then never over at once. -/
  handsOver : Bool := false
  execute : Payload → Context → σ → Timed Attempt × σ

def Attempt.leaving (c : Context) (outcome : Except Error Output) : Attempt :=
  ⟨outcome, c.globalState⟩

end Workflow.Node
