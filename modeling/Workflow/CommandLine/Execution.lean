import Workflow.CommandLine.Help
import Workflow.CommandLine.Settings
import Workflow.Decimal.Fixed
import Workflow.Graph.Basic
import Workflow.Run.Engine
import Workflow.Storage.Definitions
import Workflow.Storage.RunLog

/-!
What the program does when it is called: the lines that it writes, its exit code, and the files
that it leaves.
-/
namespace Workflow.CommandLine

open Storage (LoadFailure LogFailure Tree)
open Time (Timestamp)

/-- What the program finds when it is called. -/
structure Surroundings (σ : Type) where
  environment : String → Option String
  files : Tree
  network : Http.Network σ
  workers : Script.Workers σ
  world : σ
  /-- The id of a run that is made. -/
  id : Run.Id
  now : Timestamp

structure Outcome where
  exitCode : Nat
  output : List String
  errors : List String
  files : Tree
  /-- The ticks that it took. -/
  ticks : Nat

inductive Failure where
  | settings (failure : Settings.Failure)
  | load (failure : LoadFailure)
  | inputUnreadable (path : String)
  | inputNotJson
  | inputNotObject (value : Json)
  /-- The directory of the log of runs cannot be made. -/
  | resultsDirectory
  | log (failure : LogFailure)

def Failure.message : Failure → String
  | settings failure => failure.message
  | load failure => failure.message
  | inputUnreadable path => s!"Failed to read input file {path}"
  | inputNotJson => "Input is not valid JSON"
  | inputNotObject value => s!"Input must be a JSON object, got {value.compact}"
  | resultsDirectory => "Failed to open results directory"
  | log failure => failure.message

/-- A failure of one kind as one of another kind. -/
def failing {ε α : Type} (failure : ε → Failure) : Except ε α → Except Failure α
  | .ok a => .ok a
  | .error e => .error (failure e)

/-! ## Input -/

/-- The input of a run: no text stands for the empty object. -/
def Source.read (files : Tree) (source : Source) : Except Failure Payload := do
  match ← textOf source with
  | none => return []
  | some json =>
    match Json.parse json with
    | .ok (.object fields) => return fields
    | .ok value => throw (.inputNotObject value)
    | .error _ => throw .inputNotJson
where
  textOf : Source → Except Failure (Option String)
    | .empty => .ok none
    | .text json => .ok (some json)
    | .file path =>
      match files.readText? path with
      | some json => .ok (some json)
      | none => .error (.inputUnreadable path)

/-! ## History -/

/-- A text, filled up with blanks. -/
def blanksFor (width : Nat) (s : String) : String :=
  String.ofList (List.replicate (width - s.length) ' ')

def historyLine (s : Run.State) : String :=
  let started := (s.startTime.map Timestamp.offsetText).getD "-"
  let status := s.status.name
  let duration := (s.seconds.map fun d =>
    Decimal.fixedText 3 (Decimal.ofDouble d) ++ "s").getD "-"
  let error := (s.error.map fun e => s!"  error: {e}").getD ""
  s!"{s.id.text}  {started}  {status}{blanksFor 9 status}  {blanksFor 9 duration}{duration}  "
    ++ s!"{s.executed.length} nodes{error}"

def historyLines (workflow : String) (runs : List Run.State) : List String :=
  if runs.isEmpty then [s!"No recorded runs for workflow '{workflow}'"]
  else runs.map historyLine

/-! ## Commands -/

variable {σ : Type}

def Settings.logDirectory (s : Settings) (dataDirectory : String) : String :=
  Storage.join dataDirectory s.resultsDirectory

def Surroundings.engine (w : Surroundings σ) (s : Settings) : Run.Engine σ :=
  let milliseconds := w.now.total / 1000000
  ⟨s.engine, .builtins (.ofConfig w.network w.workers milliseconds s.engine)⟩

def openLog (files : Tree) (directory : String) : Except Failure (Storage.Path × Tree) :=
  failing (fun _ => .resultsDirectory) (Storage.RunLog.create files directory)

def validate (w : Surroundings σ) (file : String) : Except Failure Outcome := do
  let d ← failing .load (Storage.loadFile w.files file)
  match d.validate with
  | .error e => return ⟨1, [], [s!"Invalid workflow '{d.id}': {e.message}"], w.files, 0⟩
  | .ok () =>
    let warnings := d.lint.map ("warning: " ++ ·)
    let verdict := s!"Workflow '{d.id}' is valid ({d.nodes.length} nodes)"
    return ⟨0, warnings ++ [verdict], [], w.files, 0⟩

/-- Runs a workflow; that it cannot be recorded does not matter to the run. -/
def run (w : Surroundings σ) (s : Settings) (dataDirectory file : String) (source : Source)
    (isRecorded : Bool) : Except Failure Outcome := do
  let input ← source.read w.files
  let d ← failing .load (Storage.loadFile w.files file)
  let (log, files) ←
    if isRecorded then do
      let (base, files) ← openLog w.files (s.logDirectory dataDirectory)
      pure (some base, files)
    else pure (none, w.files)
  let ended := (w.engine s).execute d input .never w.id w.now w.world
  let recorded := log.bind fun base =>
    (Storage.RunLog.record files base ended.state w.now).toOption
  let exitCode := if ended.state.status = .completed then 0 else 1
  return ⟨exitCode, [ended.state.document.indented], [], recorded.getD files, ended.ticks⟩

def types (w : Surroundings σ) (s : Settings) : Outcome :=
  ⟨0, (w.engine s).registry.types, [], w.files, 0⟩

def history (w : Surroundings σ) (s : Settings) (dataDirectory workflow : String) :
    Except Failure Outcome := do
  let directory := s.logDirectory dataDirectory
  let (base, files) ← openLog w.files directory
  let runs ← failing .log (Storage.RunLog.runs files base directory workflow)
  return ⟨0, historyLines workflow runs, [], files, 0⟩

def Invocation.perform (i : Invocation) (w : Surroundings σ) : Except Failure Outcome := do
  let s ← failing .settings (Settings.load w.files i.configFile)
  let s := s.override i.overrides
  match i.command with
  | .validate file => validate w file
  | .run file input isRecorded => run w s i.dataDirectory file input isRecorded
  | .types => return types w s
  | .history workflow => history w s i.dataDirectory workflow

def execute (w : Surroundings σ) (arguments : List String) : Outcome :=
  match Invocation.read w.environment arguments with
  | .error .nothing => ⟨2, [], helpLines none, w.files, 0⟩
  | .error (.help command) => ⟨0, helpLines command, [], w.files, 0⟩
  | .error (.fault fault) =>
    ⟨2, [], ["error: " ++ fault.message, "", "For more information, try '--help'."], w.files, 0⟩
  | .ok i =>
    match i.perform w with
    | .ok outcome => outcome
    | .error failure => ⟨1, [], ["Error: " ++ failure.message], w.files, 0⟩

end Workflow.CommandLine
