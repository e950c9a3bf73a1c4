import Workflow.Node.Policy
import Workflow.Node.Registry

/-!
Nodes that are ready to run: a definition, the behaviour made from it, and how it is tried.
-/
namespace Workflow.Run

open Node (Behavior Policy Registry)
open Time (Duration)

/-- A node that is ready to run. -/
structure Prepared (σ : Type) where
  definition : NodeDefinition
  behavior : Behavior σ
  policy : Policy

namespace Prepared

variable {σ : Type}

def ofDefinition (registry : Registry σ) (c : EngineConfig) (n : NodeDefinition) :
    Except Node.Error (Prepared σ) := do
  let behavior ← registry.create n.nodeType ⟨n.id, n.name, n.config⟩
  let policy ← Policy.ofConfig n.id n.config c
  return ⟨n, behavior, policy⟩

def id (n : Prepared σ) : String := n.definition.id

/-- The limit of an attempt: that of the behaviour, or else that of the policy. -/
def attemptTimeout (n : Prepared σ) : Duration :=
  n.behavior.attemptTimeout.getD n.policy.timeout

/-- The attempts that are made at most; their number fits in 32 bits. -/
def maxAttempts (n : Prepared σ) : Nat := min (n.policy.retries + 1) (2 ^ 32 - 1)

end Prepared

end Workflow.Run
