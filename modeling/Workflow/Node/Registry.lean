import Workflow.Node.Code
import Workflow.Node.Condition
import Workflow.Node.Delay
import Workflow.Node.Generation
import Workflow.Node.HttpRequest
import Workflow.Text.Names

/-!
The types of nodes that can be made. Every type has one constructor; a later one takes the place
of an earlier one.
-/
namespace Workflow.Node

/-- What nodes of the built-in types use. -/
structure Services (σ : Type) where
  network : Http.Network σ
  generator : Llm.Generator σ
  scripts : Script.Limits
  workers : Script.Workers σ
  /-- The time in milliseconds that scripts are told. -/
  now : Int

def Services.ofConfig {σ : Type} (network : Http.Network σ) (workers : Script.Workers σ)
    (now : Int) (c : EngineConfig) : Services σ :=
  ⟨network, .ofConfig network c.llm, c.script, workers, now⟩

/-- Makes a node, or refuses its configuration. -/
abbrev Constructor (σ : Type) := Init → Except Error (Behavior σ)

/-- The types of nodes with their constructors; the latest comes first. -/
abbrev Registry (σ : Type) := List (String × Constructor σ)

namespace Registry

variable {σ : Type}

def register (r : Registry σ) (nodeType : String) (constructor : Constructor σ) : Registry σ :=
  (nodeType, constructor) :: r

def constructor? (r : Registry σ) (nodeType : String) : Option (Constructor σ) :=
  (r.find? (·.1 = nodeType)).map Prod.snd

def types (r : Registry σ) : List String := Text.nameSet (r.map Prod.fst)

def builtins (s : Services σ) : Registry σ :=
  register [] "http_request" (HttpRequest.construct s.network)
    |>.register "delay" Delay.construct
    |>.register NodeDefinition.conditionType Condition.construct
    |>.register "code" (Code.construct s.workers s.scripts s.now)
    |>.register "llm" (Generation.construct s.generator)

def create (r : Registry σ) (nodeType : String) (i : Init) : Except Error (Behavior σ) :=
  match r.constructor? nodeType with
  | some construct => construct i
  | none => .error (.unknownType nodeType r.types)

end Registry

end Workflow.Node
