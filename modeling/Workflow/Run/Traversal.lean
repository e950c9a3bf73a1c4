import Workflow.Run.Attempts

/-!
The traversal of a workflow. The nodes that wait are run one after the other, each on the latest
output; its result says which nodes wait next. An error without a handler ends the traversal, and
so does a limit on the number of nodes that are taken, which no list of waiting nodes can pass.
-/
namespace Workflow.Run

inductive Failure where
  | definition (error : DefinitionError)
  | build (error : Node.Error)
  | node (id message : String)
  | iterationLimit (limit : Nat)
  | timeLimit (seconds : Float)

def Failure.message : Failure → String
  | definition e => s!"Invalid workflow definition: {e.message}"
  | build e => s!"Failed to build node graph: {e.message}"
  | node id message => s!"Node {id} failed: {message}"
  | iterationLimit limit =>
    s!"Workflow execution exceeded maximum iterations ({limit}); possible infinite loop"
  | timeLimit seconds =>
    s!"Workflow execution exceeded maximum time of {Decimal.Layout.message.double seconds} seconds"

inductive Exit where
  | finished
  | failed (reason : Failure)
  /-- The time was up. -/
  | interrupted

/-- What a traversal leaves behind. -/
structure Traversal (σ : Type) where
  exit : Exit
  state : State
  moment : Moment σ

variable {σ : Type}

/-- Whether the run goes on after a result. -/
def Result.goesOn (r : Result) : Bool := r.isSuccess || !r.nextNodes.isEmpty

/-- Runs the nodes that wait, `left` of them at most out of a limit; ids that are not those of
nodes count but are skipped. -/
def traverse (nodes : List (Prepared σ)) (deadline : Option Deadline) (limit : Nat) :
    (left : Nat) → State → Moment σ → Traversal σ
  | 0, s, m => ⟨if s.hasPending then .failed (.iterationLimit limit) else .finished, s, m⟩
  | left + 1, s, m =>
    match s.nextPending with
    | none => ⟨.finished, s, m⟩
    | some (id, s) =>
      match nodes.find? (·.id = id) with
      | none => traverse nodes deadline limit left s m
      | some n =>
        match n.run s.latestOutput deadline s m with
        | (none, m) => ⟨.interrupted, s, m⟩
        | (some (r, s), m) =>
          if r.goesOn then traverse nodes deadline limit left (s.addPending r.nextNodes) m
          else ⟨.failed (.node r.nodeId (r.error.getD "")), s, m⟩

end Workflow.Run
