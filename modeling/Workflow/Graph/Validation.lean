import Workflow.Definition

/-!
What a definition has to satisfy before it can run, and the first thing that is wrong with one
that does not.
-/
namespace Workflow

def NodeDefinition.conditionType : String := "condition"

/-- The targets of the branches of a condition node; other nodes have none. -/
def NodeDefinition.branches (n : NodeDefinition) : List String :=
  if n.nodeType = conditionType then
    ["true_branch", "false_branch"].filterMap fun key =>
      (Payload.find? n.config key).bind Json.text?
  else []

/-- Everything that a node refers to: its successors, its error handler, its branches. -/
def NodeDefinition.references (n : NodeDefinition) : List String :=
  n.nextNodes ++ n.onError.toList ++ n.branches

inductive DefinitionError where
  | emptyWorkflow (workflow : String)
  | missingStartNode (node : String)
  | unknownSuccessor (node target : String)
  | unknownHandler (node target : String)
  | unknownBranch (node target : String)
  | duplicateNode (node : String)
  deriving Repr, DecidableEq

def DefinitionError.message : DefinitionError → String
  | emptyWorkflow workflow => s!"Workflow '{workflow}' has no nodes"
  | missingStartNode node => s!"Start node '{node}' not found in workflow"
  | unknownSuccessor node target => s!"Node '{node}' references non-existent node '{target}'"
  | unknownHandler node target =>
    s!"Node '{node}' references non-existent error handler '{target}'"
  | unknownBranch node target =>
    s!"Condition node '{node}' branches to non-existent node '{target}'"
  | duplicateNode node => s!"Duplicate node ID '{node}' found in workflow"

namespace Definition

/-- The first of some targets that is not among the ids, as an error. -/
def checkTargets (ids : List String) (error : String → DefinitionError) (targets : List String) :
    Except DefinitionError Unit :=
  match targets.find? (· ∉ ids) with
  | some target => .error (error target)
  | none => .ok ()

def checkNode (ids : List String) (n : NodeDefinition) : Except DefinitionError Unit := do
  checkTargets ids (.unknownSuccessor n.id) n.nextNodes
  checkTargets ids (.unknownHandler n.id) n.onError.toList
  checkTargets ids (.unknownBranch n.id) n.branches

def checkNodes (ids : List String) : List NodeDefinition → Except DefinitionError Unit
  | [] => .ok ()
  | n :: rest => do
    checkNode ids n
    checkNodes ids rest

/-- The first id that has occurred before. -/
def firstRepeated (seen : List String) : List String → Option String
  | [] => none
  | id :: rest => if id ∈ seen then some id else firstRepeated (id :: seen) rest

/-- Checks a definition: there are nodes, the start node is one of them, whatever a node refers to
exists, and no id is used twice. -/
def validate (d : Definition) : Except DefinitionError Unit := do
  if d.nodes.isEmpty then throw (.emptyWorkflow d.id)
  if d.startNode ∉ d.nodeIds then throw (.missingStartNode d.startNode)
  checkNodes d.nodeIds d.nodes
  match firstRepeated [] d.nodeIds with
  | some id => throw (.duplicateNode id)
  | none => return

end Definition

end Workflow
