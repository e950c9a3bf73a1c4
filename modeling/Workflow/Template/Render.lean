import Workflow.Json.Printer
import Workflow.Template.Lookup
import Workflow.Text.Alphanumeric
import Workflow.Text.Blank
import Workflow.Text.Names

/-!
Placeholders in text. A placeholder is a valid name between braces. Rendering goes through a text
once, from one opening brace to the next, and replaces every placeholder that resolves; what is put
in is never looked at again. Another scan lists the names of the placeholders, whatever the data.
-/
namespace Workflow.Template

def isNameChar (c : Char) : Bool := Text.isAlphanumeric c || c = '_' || c = '-' || c = '.'

/-- A name is not empty and has a dot neither at its front nor at its back. -/
def isName (name : List Char) : Bool :=
  !name.isEmpty && name.head? != some '.' && name.getLast? != some '.' && name.all isNameChar

/-- The text of the value that a name leads to; what is not a name leads nowhere. -/
def resolve? (data : Payload) (name : List Char) : Option (List Char) :=
  if isName name then (lookup data (String.ofList name)).map (·.plainText.toList) else none

/-- A text that is rendered up to some place: what is done, and what is left to look at. -/
structure Rendering where
  done : List Char
  left : List Char

/-- One round of rendering, as long as an opening brace is left. What stands in front of the next
closing brace is replaced if it resolves; if not, only the opening brace is done. Without a closing
brace all the rest is done. -/
def Rendering.next? (data : Payload) (r : Rendering) : Option Rendering :=
  match Text.cut? '{' r.left with
  | none => none
  | some (front, inner) =>
    match Text.cut? '}' inner with
    | none => some ⟨r.done ++ front ++ '{' :: inner, []⟩
    | some (name, behind) =>
      match resolve? data name with
      | none => some ⟨r.done ++ front ++ ['{'], inner⟩
      | some value => some ⟨r.done ++ front ++ value, behind⟩

theorem Rendering.length_of_next? {data : Payload} {r r' : Rendering}
    (h : r.next? data = some r') : r'.left.length < r.left.length := by
  unfold next? at h
  split at h
  · cases h
  rename_i front inner hopening
  have hinner := Text.length_of_cut? hopening
  split at h
  · cases h
    exact Nat.zero_lt_of_lt hinner
  rename_i name behind hclosing
  have hbehind := Text.length_of_cut? hclosing
  split at h
  · cases h
    exact hinner
  · cases h
    exact Nat.lt_trans hbehind hinner

def Rendering.finish (data : Payload) (r : Rendering) : List Char :=
  match _h : r.next? data with
  | none => r.done ++ r.left
  | some r' => r'.finish data
termination_by r.left.length
decreasing_by exact length_of_next? _h

def render (data : Payload) (text : String) : String :=
  String.ofList (Rendering.finish data ⟨[], text.toList⟩)

mutual

/-- A value with all its strings rendered; keys are left alone. -/
def renderValue (data : Payload) : Json → Json
  | .string s => .string (render data s)
  | .array items => .array (renderItems data items)
  | .object fields => .object (renderFields data fields)
  | .null => .null
  | .bool b => .bool b
  | .number n => .number n

def renderItems (data : Payload) : List Json → List Json
  | [] => []
  | item :: rest => renderValue data item :: renderItems data rest

def renderFields (data : Payload) : List (String × Json) → List (String × Json)
  | [] => []
  | (key, value) :: rest => (key, renderValue data value) :: renderFields data rest

end

/-- The names of the placeholders of a text, one after the other. The scan goes on behind a
placeholder, and right behind an opening brace that begins none. -/
def names (s : List Char) : List String :=
  match _hopening : Text.cut? '{' s with
  | none => []
  | some (_, inner) =>
    match _hclosing : Text.cut? '}' inner with
    | none => []
    | some (name, behind) =>
      if isName name then String.ofList name :: names behind else names inner
termination_by s.length
decreasing_by
  · exact Nat.lt_trans (Text.length_of_cut? _hclosing) (Text.length_of_cut? _hopening)
  · exact Text.length_of_cut? _hopening

def placeholders (text : String) : List String := Text.nameSet (names text.toList)

/-- What is left of a text behind the given front. -/
def behind? (front : List Char) (s : List Char) : Option (List Char) :=
  if front.isPrefixOf s then some (s.drop front.length) else none

/-- What is left of a text before the given back. -/
def before? (back : List Char) (s : List Char) : Option (List Char) :=
  if back.isSuffixOf s then some (s.take (s.length - back.length)) else none

/-- The name in a text that is one doubly braced reference, blanks around it and inside it
aside. -/
def parseReference (text : String) : Option String := do
  let inner ← behind? ['{', '{'] (Text.trimChars text.toList)
  let inner ← before? ['}', '}'] inner
  let name := Text.trimChars inner
  if isName name then some (String.ofList name) else none

end Workflow.Template
