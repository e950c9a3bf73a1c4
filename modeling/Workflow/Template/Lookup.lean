import Workflow.Json.Basic
import Workflow.Text.Split

/-!
Dot-separated paths into nested objects. Every piece of a path is a key, the empty piece too.
-/
namespace Workflow.Template

/-- The value that a list of keys leads to through nested objects. -/
def lookupKeys (data : Payload) : List String → Option Json
  | [] => none
  | key :: rest =>
    match Payload.find? data key, rest with
    | found, [] => found
    | some (.object fields), next :: keys => lookupKeys fields (next :: keys)
    | _, _ :: _ => none

/-- The value at a dot-separated path. -/
def lookup (data : Payload) (path : String) : Option Json :=
  lookupKeys data (Text.split '.' path)

theorem lookupKeys_single (data : Payload) (key : String) :
    lookupKeys data [key] = Payload.find? data key := by
  simp [lookupKeys]

end Workflow.Template
