import Workflow.Text.Blank

/-!
The methods of requests.
-/
namespace Workflow.Http

/-- A method that a request can have. -/
inductive Method where
  | get | post | put | patch | delete
  deriving Repr, DecidableEq

namespace Method

def all : List Method := [get, post, put, patch, delete]

def name : Method → String
  | get => "GET"
  | post => "POST"
  | put => "PUT"
  | patch => "PATCH"
  | delete => "DELETE"

/-- Whether requests with this method have a body. -/
def sendsBody : Method → Bool
  | post | put | patch => true
  | get | delete => false

/-- The method of a name in letters of any case, with blanks around it; the error is the name in
capital letters. -/
def ofText (text : String) : Except String Method :=
  let name := String.ofList ((Text.trimChars text.toList).map Char.toUpper)
  match all.find? (·.name = name) with
  | some m => .ok m
  | none => .error name

def unsupportedMessage (name : String) : String := s!"Unsupported HTTP method: {name}"

end Method

end Workflow.Http
