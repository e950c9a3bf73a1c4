import Workflow.Storage.Path

/-!
Trees of files. The names of a place lead through directories to a file or a directory. A file
holds a text, as it is or in compressed form, or something else. Names have at most 255 bytes.
-/
namespace Workflow.Storage

inductive Content where
  | text (text : String)
  | compressed (text : String)
  /-- Bytes that are neither a text nor a compressed one. -/
  | other
  deriving Repr, DecidableEq

/-- A file, or a directory with its entries. -/
inductive Tree where
  | file (content : Content)
  | directory (entries : List (String × Tree))
  deriving Inhabited

inductive Missing where
  | notFound
  /-- The path goes through a file. -/
  | notDirectory
  /-- The path has a name that no file can have. -/
  | badName
  deriving Repr, DecidableEq

namespace Tree

def child? (entries : List (String × Tree)) (name : String) : Option Tree :=
  (entries.find? (·.1 = name)).map Prod.snd

/-- Puts an entry under a name, in place of the one that is there. -/
def setEntry (name : String) (t : Tree) : List (String × Tree) → List (String × Tree)
  | [] => [(name, t)]
  | (n, u) :: rest => if n = name then (n, t) :: rest else (n, u) :: setEntry name t rest

def isName (name : String) : Bool := name.utf8ByteSize ≤ 255 && '\x00' ∉ name.toList

def look : Tree → Path → Except Missing Tree
  | t, [] => .ok t
  | .file _, _ :: _ => .error .notDirectory
  | .directory entries, name :: path =>
    match child? entries name with
    | some t => look t path
    | none => .error (if isName name then .notFound else .badName)

def isDirectory : Tree → Bool
  | .directory _ => true
  | .file _ => false

/-- The place that steps lead to; from a file no step leads on. -/
def follow (t : Tree) (place : Path) : List String → Except Missing Path
  | [] => .ok place
  | step :: rest =>
    if step = "." || step = ".." then
      match t.look place with
      | .ok (.directory _) => t.follow (next place step) rest
      | .ok (.file _) => .error .notDirectory
      | .error reason => .error reason
    else t.follow (next place step) rest

def find (t : Tree) (path : String) : Except Missing Tree := do
  t.look (← t.follow [] (steps path))

def contains (t : Tree) (path : String) : Bool := (t.find path).toBool

def readText? (t : Tree) (path : String) : Option String :=
  match t.find path with
  | .ok (.file (.text s)) => some s
  | _ => none

/-- Makes the directories on the way to a place as far as they are missing. -/
def makeDirectories : Path → Tree → Option Tree
  | _, .file _ => none
  | [], t => some t
  | name :: path, .directory entries => do
    if !isName name then none
    let t ← makeDirectories path ((child? entries name).getD (.directory []))
    return .directory (setEntry name t entries)

/-- Makes the directories on the way along some steps, and says where it ends. -/
def makeWay (t : Tree) (place : Path) : List String → Option (Path × Tree)
  | [] => some (place, t)
  | step :: rest =>
    let place := next place step
    if step = "." || step = ".." then t.makeWay place rest
    else do makeWay (← t.makeDirectories place) place rest

/-- Writes a file into a directory that is there. -/
def write (content : Content) : Path → Tree → Option Tree
  | [], _ => none
  | _, .file _ => none
  | [name], .directory entries =>
    if ((child? entries name).any isDirectory) || !isName name then none
    else some (.directory (setEntry name (.file content) entries))
  | name :: path, .directory entries => do
    let t ← write content path (← child? entries name)
    return .directory (setEntry name t entries)

def files : Tree → List Path
  | .file _ => [[]]
  | .directory entries => filesOf entries
where
  filesOf : List (String × Tree) → List Path
    | [] => []
    | (name, t) :: rest => (files t).map (name :: ·) ++ filesOf rest

/-- The places of all directories, outer ones first. -/
def directories : Tree → List Path
  | .file _ => []
  | .directory entries => [] :: directoriesOf entries
where
  directoriesOf : List (String × Tree) → List Path
    | [] => []
    | (name, t) :: rest => (directories t).map (name :: ·) ++ directoriesOf rest

end Tree

end Workflow.Storage
