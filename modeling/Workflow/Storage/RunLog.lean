import Workflow.Json.Printer
import Workflow.Run.State
import Workflow.Storage.Tree

/-!
The log of runs. Runs are kept below a directory, in one compressed file for every day and every
workflow, a line for each run. The name of a file has only letters, digits, `-` and `_` of ASCII, so
ids can share a file, and no id leads to another place.
-/
namespace Workflow.Storage

open Time (Timestamp)

inductive LogFailure where
  | createDirectory
  | readDirectory (path : String)
  | openFile
  | readLine
  | parseRecord
  | writeFile

def LogFailure.message : LogFailure → String
  | createDirectory => "Failed to create results directory"
  | readDirectory path => s!"Failed to read directory {path}"
  | openFile => "Failed to open results file"
  | readLine => "Failed to read line from results file"
  | parseRecord => "Failed to parse execution record"
  | writeFile => "Failed to write results file"

namespace RunLog

/-! ## Places -/

def isPlain (c : Char) : Bool := c.isAlphanum || c = '-' || c = '_'

/-- The name that a workflow has in the log. -/
def stem (workflow : String) : String :=
  if workflow.isEmpty then "_"
  else String.ofList (workflow.toList.map fun c => if isPlain c then c else '_')

def fileName (workflow : String) : String := stem workflow ++ ".jsonl.gz"

/-- A year in four digits at least; the sign counts as one. -/
def yearName (year : Int) : String :=
  if year < 0 then "-" ++ Time.padded 3 year.natAbs else Time.padded 4 year.natAbs

def root : String := "executions"

def dayPath (t : Timestamp) : Path :=
  let d := t.date
  [root, yearName d.year, Time.padded 2 d.month, Time.padded 2 d.day]

/-- The place of the runs of a workflow that start on some day. -/
def place (base : Path) (t : Timestamp) (workflow : String) : Path :=
  base ++ dayPath t ++ [fileName workflow]

/-! ## Files -/

def linesOf (runs : List Run.State) : String :=
  String.join (runs.map fun s => s.document.compact ++ "\n")

/-- The runs of a text; blank lines do not count. -/
def runsOf (text : String) : Except LogFailure (List Run.State) :=
  let lines := (Text.split '\n' text).filter fun line => !(Text.trimChars line.toList).isEmpty
  lines.mapM fun line =>
    match Json.decodeText Run.State.decoder line with
    | .ok s => .ok s
    | .error _ => .error .parseRecord

def readFile : Tree → Except LogFailure (List Run.State)
  | .file (.compressed text) => runsOf text
  | .file _ => .error .readLine
  | .directory _ => .error .openFile

/-- The runs in the file at a place, none if there is no file. -/
def runsAt (t : Tree) (place : Path) : Except LogFailure (List Run.State) :=
  match t.look place with
  | .ok file => readFile file
  | .error _ => .ok []

/-- Makes the directory that the log is in, and says where it is. -/
def create (t : Tree) (base : String) : Except LogFailure (Path × Tree) :=
  match t.makeWay [] (steps base) with
  | some made => .ok made
  | none => .error .createDirectory

/-- Appends a run to the file of the day when it started, or else of today. -/
def record (t : Tree) (base : Path) (s : Run.State) (now : Timestamp) :
    Except LogFailure Tree := do
  let place := place base (s.startTime.getD now) s.workflowId
  let some t := t.makeDirectories place.dropLast | throw .createDirectory
  let runs ← runsAt t place
  match t.write (.compressed (linesOf (runs ++ [s]))) place with
  | some t => return t
  | none => throw .writeFile

/-! ## Queries -/

def directories : (levels : Nat) → Tree → List Path
  | 0, _ => [[]]
  | levels + 1, t =>
    match t with
    | .file _ => []
    | .directory entries =>
      (entries.filter (·.2.isDirectory)).flatMap fun (name, t) =>
        (directories levels t).map (name :: ·)

/-- The directories of the days, in increasing order of their names. -/
def days (t : Tree) (base : Path) (name : String) : Except LogFailure (List Path) :=
  match t.look (base ++ [root]) with
  | .error _ => .ok []
  | .ok (.file _) => .error (.readDirectory (join name root))
  -- Paths are compared as the core library does it, whatever else a module imports.
  | .ok root => .ok ((directories 3 root).mergeSort fun a b =>
      @decide (List.instLE.le a b) (List.decidableLE a b))

/-- Whether a run starts no later than another one; runs without a start come first. -/
def startsBy (a b : Run.State) : Bool :=
  match a.startTime, b.startTime with
  | none, _ => true
  | some _, none => false
  | some x, some y => !y.before x

/-- All runs of a workflow, the oldest one first; `name` is the base as it is written. -/
def runs (t : Tree) (base : Path) (name workflow : String) :
    Except LogFailure (List Run.State) := do
  let days ← days t base name
  let runs ← days.mapM fun day => runsAt t (base ++ root :: day ++ [fileName workflow])
  return (runs.flatten.filter (·.workflowId = workflow)).mergeSort startsBy

end RunLog

end Workflow.Storage
