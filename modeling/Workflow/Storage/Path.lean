import Workflow.Text.Split

/-!
Paths as texts. A path is a list of steps with slashes between them; a step is a name, or `.` for
the place that has been reached, or `..` for the one above it. Nothing between two slashes is the
same as `.`, and a path with a slash at its front starts at the topmost directory.
-/
namespace Workflow.Storage

/-- The names on the way to a place. -/
abbrev Path := List String

/-- The name under which places hold the topmost directory. -/
def top : String := "/"

def stepOf (part : String) : String := if part.isEmpty then "." else part

def steps (path : String) : List String :=
  match Text.split '/' path with
  | [""] => []
  | "" :: rest => top :: rest.map stepOf
  | parts => parts.map stepOf

/-- The place above another one; those above the starting place are named by the way up. -/
def above (place : Path) : Path :=
  if place = [top] then place
  else if place.all (· = "..") then place ++ [".."]
  else place.dropLast

/-- The place that a step leads to. -/
def next (place : Path) (step : String) : Path :=
  if step = "." then place else if step = ".." then above place else place ++ [step]

def join (base path : String) : String :=
  if path.startsWith "/" || base.isEmpty then path
  else if base.endsWith "/" then base ++ path
  else s!"{base}/{path}"

/-- A name without its ending, and the ending; a point at the front does not begin an ending. -/
def splitEnding (name : String) : String × Option String :=
  let s := name.toList
  let ending := (s.reverse.takeWhile (· ≠ '.')).reverse
  let stem := s.take (s.length - ending.length - 1)
  if name = ".." || '.' ∉ s || stem.isEmpty then (name, none)
  else (String.ofList stem, some (String.ofList ending))

end Workflow.Storage
