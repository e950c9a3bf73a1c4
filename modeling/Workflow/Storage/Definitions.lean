import Workflow.Definition
import Workflow.Storage.Tree
import Workflow.Text.Names
import Workflow.Toml.Decode

/-!
Definitions in files: a directory holds each under its id, as JSON or as TOML. An id is a single
name, so it cannot lead out of the directory.
-/
namespace Workflow.Storage

inductive LoadFailure where
  | invalidId (id : String)
  | notFound (id base : String)
  | unreadable (path : String)
  | toml (path : String)
  | json (path : String) (cause : Json.DecodeError)
  | listing

def LoadFailure.message : LoadFailure → String
  | invalidId id => s!"Invalid workflow id '{id}'"
  | notFound id base => s!"Workflow '{id}' not found in {base}"
  | unreadable path => s!"Failed to read workflow file {path}"
  | toml path => s!"Failed to parse TOML workflow {path}"
  | json path _ => s!"Failed to parse JSON workflow {path}"
  | listing => "Failed to read workflow directory"

/-- Reads the definition in a file: TOML if the ending says so, and otherwise JSON. -/
def loadFile (t : Tree) (path : String) : Except LoadFailure Definition := do
  let some text := t.readText? path | throw (.unreadable path)
  if ((steps path).getLast?.bind fun name => (splitEnding name).2) = some "toml" then
    match Toml.decode? Definition.decoder text with
    | some d => return d
    | none => throw (.toml path)
  else
    match Json.decodeText Definition.decoder text with
    | .ok d => return d
    | .error cause => throw (.json path cause)

def isName (id : String) : Bool :=
  id ∉ ["", ".", ".."] && '/' ∉ id.toList && '\\' ∉ id.toList

/-- The files that may hold a definition, the first choice first. -/
def candidates (base id : String) : Except LoadFailure (List String) :=
  if isName id then .ok [join base s!"{id}.json", join base s!"{id}.toml"]
  else .error (.invalidId id)

def load (t : Tree) (base id : String) : Except LoadFailure Definition := do
  match (← candidates base id).find? t.contains with
  | some path => loadFile t path
  | none => throw (.notFound id base)

/-- The id of a definition in a file of some name. -/
def idOf? (name : String) : Option String :=
  match splitEnding name with
  | (stem, some "json") | (stem, some "toml") => some stem
  | _ => none

/-- The ids of the definitions in a directory, in increasing order; a directory that does not
exist has none, and neither has the empty path. -/
def list (t : Tree) (base : String) : Except LoadFailure (List String) :=
  if base.isEmpty then .ok []
  else
    match t.find base with
    | .ok (.directory entries) => .ok (Text.nameSet (entries.filterMap fun e => idOf? e.1))
    | .error .notFound => .ok []
    | .ok (.file _) | .error .notDirectory | .error .badName => .error .listing

end Workflow.Storage
