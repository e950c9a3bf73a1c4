import Std.Time.DateTime.Timestamp
import Workflow.CommandLine.Execution
import Workflow.Compression.Gzip

/-!
The program on a real machine. What a command may touch is read into a tree of files, the command
is executed on the tree, and what it changed is written back. There is no network: no request has a
reply.
-/
namespace Workflow.Machine

open CommandLine (Invocation Outcome Settings Surroundings)
open Storage (Content Path Tree)
open Time (Timestamp)

/-! ## Reading -/

def pathOf (place : Path) : String :=
  match place with
  | [] => "."
  | name :: rest =>
    if name = Storage.top then Storage.top ++ "/".intercalate rest else "/".intercalate place

def contentOf (bytes : ByteArray) : Content :=
  match Text.strictText? bytes.toList with
  | some text => .text text
  | none => ((Compression.Gzip.unpack? bytes).map Content.compressed).getD .other

/-- What is at a place; of a directory, nothing but that it is there. -/
def readPlace (place : Path) : BaseIO (Option Tree) := do
  match ← (IO.FS.readBinFile (pathOf place)).toBaseIO with
  | .ok bytes => return some (.file (contentOf bytes))
  | .error (.noFileOrDirectory ..) => return none
  | .error (.inappropriateType ..) => return some (.directory [])
  | .error _ => return some (.file .other)

/-- Puts what is along some steps into a tree. -/
def gather (t : Tree) (place : Path) : List String → BaseIO Tree
  | [] => return t
  | step :: rest => do
    let place := Storage.next place step
    match ← readPlace place with
    | some (.file content) => return (t.write content place).getD t
    | some (.directory _) => gather ((t.makeDirectories place).getD t) place rest
    | none => gather t place rest

def gatherPath (t : Tree) (path : String) : BaseIO Tree := gather t [] (Storage.steps path)

def isDirectory (place : Path) : BaseIO Bool := do
  return (← readPlace place).any Tree.isDirectory

/-- The directories below a place that have a number for their name. -/
def numbered (place : Path) (width bound : Nat) : BaseIO (List Path) :=
  ((List.range bound).map fun n => place ++ [Time.padded width n]).filterM isDirectory

/-- Puts the runs of a workflow into a tree. -/
def gatherRuns (t : Tree) (base : Path) (workflow : String) : BaseIO Tree := do
  let root := base ++ [Storage.RunLog.root]
  let t ← gather t [] root
  if !(t.look root).toOption.any Tree.isDirectory then return t
  let years ← numbered root 4 10000
  let months ← years.mapM (numbered · 2 13)
  let days ← months.flatten.mapM (numbered · 2 32)
  days.flatten.foldlM (fun t day => gather t [] (day ++ [Storage.RunLog.fileName workflow])) t

/-- Puts what a command may touch into a tree. -/
def gatherFor (i : Invocation) (now : Timestamp) : BaseIO Tree := do
  let t ← gatherPath (.directory []) i.configFile
  let log := (Settings.load t i.configFile).toOption.map fun s =>
    (Storage.steps (s.logDirectory i.dataDirectory)).foldl Storage.next []
  match i.command with
  | .validate file => gatherPath t file
  | .types => return t
  | .history workflow =>
    match log with
    | none => return t
    | some log => gatherRuns t log workflow
  | .run file input isRecorded =>
    let t ← gatherPath t file
    let t ← match input with
      | .file path => gatherPath t path
      | .empty | .text _ => pure t
    match log, Storage.loadFile t file with
    | some log, .ok d =>
      if isRecorded then gather t [] (Storage.RunLog.place log now d.id) else return t
    | _, _ => return t

/-! ## Writing -/

def bytesOf : Content → ByteArray
  | .text text => text.toUTF8
  | .compressed text => Compression.Gzip.pack text
  | .other => .empty

/-- Writes what is in one tree and not in another one. -/
def writeBack (before after : Tree) : IO Unit := do
  for place in after.directories do
    if !(before.look place).toBool then IO.FS.createDirAll (pathOf place)
  for place in after.files do
    match before.look place, after.look place with
    | .ok (.file old), .ok (.file new) =>
      if old ≠ new then IO.FS.writeBinFile (pathOf place) (bytesOf new)
    | _, .ok (.file new) => IO.FS.writeBinFile (pathOf place) (bytesOf new)
    | _, _ => return

/-! ## The program -/

def now : IO Timestamp := do
  return .ofTotal (← Std.Time.Timestamp.now).toNanosecondsSinceUnixEpoch.val

/-- The values of the variables of the environment that parameters look at. -/
def environment : BaseIO (List (String × String)) := do
  let names := CommandLine.rootScope.parameters.filterMap (·.environment)
  let found ← names.mapM fun name => do return (← IO.getEnv name).map fun value => (name, value)
  return found.filterMap id

def wait (milliseconds : Nat) : BaseIO Unit := do
  let longest := 2 ^ 31
  for _ in List.range (milliseconds / longest) do
    IO.sleep longest.toUInt32
  IO.sleep (milliseconds % longest).toUInt32

/-- A worker that does ten million units of work in a second, and a bounded number in all. -/
def worker (number : Nat) : Script.Worker where
  number
  uptime := .zero
  looks limit := min 78124 (limit.nanoseconds / 25600)

def call (arguments : List String) : IO UInt32 := do
  let start ← now
  let id := Run.Id.ofRandom (← IO.getRandomBytes 16).toList
  let known ← environment
  let environment (name : String) : Option String := (known.find? (·.1 = name)).map Prod.snd
  let files ← match Invocation.read environment arguments with
    | .ok i => gatherFor i start
    | .error _ => pure (.directory [])
  let w : Surroundings Nat :=
    ⟨environment, files, fun _ hired => (.now none, hired),
      fun hired => (worker (hired + 1), hired + 1), 0, id, start⟩
  let outcome := CommandLine.execute w arguments
  wait outcome.ticks
  for line in outcome.output do
    IO.println line
  for line in outcome.errors do
    IO.eprintln line
  if let .error e ← (writeBack files outcome.files).toBaseIO then
    IO.eprintln s!"warning: {e}"
  return outcome.exitCode.toUInt32

end Workflow.Machine

def main (arguments : List String) : IO UInt32 := Workflow.Machine.call arguments
