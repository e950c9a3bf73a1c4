import Workflow.Script.Evaluation
import Workflow.Script.Parser
import Workflow.Time.Timed

/-!
Running a script on data. A script finds its input and a context as maps, and fills the map
`output`. What is left in `output` is the result; an empty map or the unit value is no result. A
script runs on a worker of its own, and how much work it does within its time limit is up to that
worker. The worker breaks off before the script begins if it cannot name the end of the limit.
-/
namespace Workflow.Script

open Time (Duration)

structure Outcome where
  output : Option Payload
  context : Payload

inductive Failure where
  | compile (error : SyntaxError)
  | runtime (reason : String)
  | timeout (limit : Duration)
  | cancelled

def Failure.message : Failure → String
  | compile e => s!"Script compilation failed: {e.message}"
  | runtime reason => s!"Script execution error: {reason}"
  | timeout limit => s!"Script execution exceeded timeout of {limit.text} seconds"
  | cancelled => "Script execution was cancelled"

/-- What a script runs on. -/
structure Worker where
  number : Nat
  /-- How long the machine has been up when the script begins. -/
  uptime : Duration
  /-- How often a script that looks at the time finds that a limit is not over yet. -/
  looks : Duration → Nat

/-- Gives the next script a worker. -/
abbrev Workers (σ : Type) := σ → Worker × σ

/-- A worker can name the end of a limit: it counts the seconds that the machine is up in 63
bits. -/
def Worker.CanName (w : Worker) (limit : Duration) : Prop :=
  w.uptime + limit < .ofWholeSeconds (2 ^ 63)

instance (w : Worker) (limit : Duration) : Decidable (w.CanName limit) :=
  inferInstanceAs (Decidable (_ < _))

/-- What is heard of a worker that cannot name the end of the limit of its script. -/
def Failure.brokenOff (w : Worker) : Failure :=
  .runtime (s!"script worker failed: task {w.number} panicked with message "
    ++ "\"overflow when adding duration to instant\"")

/-- The work after which the time is looked at. -/
def workBetweenLooks : Nat := 256

/-- The work that a script does before it finds that a limit is over. -/
def Worker.budget (w : Worker) (limit : Duration) : Nat := (w.looks limit + 1) * workBetweenLooks

/-- The variables that a script starts with, latest first. -/
def initialScope (input context : Payload) : List Entry :=
  [⟨"output", .map [], false⟩, ⟨"context", .ofJson (.object context), false⟩,
    ⟨"input_data", .ofJson (.object input), false⟩]

/-- The value of the latest variable of a name, the unit value if there is none. -/
def leftIn (scope : List Entry) (name : String) : Value :=
  ((scope.find? (·.name = name)).map Entry.value).getD .unit

/-- The JSON value of a value that a script leaves. -/
def readBack (v : Value) : Except Failure Json :=
  match v.toJson with
  | .ok v => .ok v
  | .error found =>
    .error (.runtime s!"Output type incorrect: {found} (expecting serde_json::value::Value)")

/-- The entries of an object, nothing if it is empty; no other JSON value is put out. -/
def entries : Json → Except Failure (Option Payload)
  | .object fields => .ok (if fields.isEmpty then none else some fields)
  | other => .error (.runtime s!"'output' must be a map, got {other.compact}")

/-- What is put out when a value is left in `output`; the unit value and an empty map are nothing. A
float that is not finite is read back as null too, but it is not the unit value and is refused. -/
def putOut : Value → Except Failure (Option Payload)
  | .unit => .ok none
  | v => readBack v >>= entries

def outcome (scope : List Entry) : Except Failure Outcome := do
  let output ← putOut (leftIn scope "output")
  let context ← readBack (leftIn scope "context")
  return ⟨output, context.payload?.getD []⟩

/-- How a run ends: why it stops early, if it does, and the variables that it leaves. -/
abbrev Ending := Option Signal × List Entry

/-- What comes of a run under a time limit that ends in some way. -/
def conclude (limit : Duration) : Ending → Except Failure Outcome
  | (none, scope) => outcome scope
  | (some (.failed e), _) => .error (.runtime e.message)
  | (some _, _) => .error (.timeout limit)

/-- Evaluates a script on an input and a context; `running` is what it does with its variables. -/
def evaluate (running : List Entry → Ending) (limit : Duration) (worker : Worker)
    (input context : Payload) : Except Failure Outcome :=
  if worker.CanName limit then conclude limit (running (initialScope input context))
  else .error (.brokenOff worker)

/-- Runs a program on an input and a context at a time in milliseconds. -/
def Program.execute (p : Program) (limits : Limits) (now : Int) (limit : Duration)
    (worker : Worker) : Payload → Payload → Except Failure Outcome :=
  evaluate (p.run limits now (worker.budget limit)) limit worker

end Workflow.Script
