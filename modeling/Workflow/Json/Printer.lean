import Workflow.Json.Basic

/-!
The text of JSON values. The compact text has no blanks; the indented text puts every entry on a
line of its own, two blanks deeper than its container.
-/
namespace Workflow.Json

/-- The lower-case hexadecimal digits of a control character after `\u00`. -/
def controlDigits (n : Nat) : List Char :=
  [Nat.digitChar (n / 16), Nat.digitChar (n % 16)]

/-- The written form of one character: quotes, backslashes and control characters are escaped. -/
def escapeChar (c : Char) : List Char :=
  if c = '"' then ['\\', '"']
  else if c = '\\' then ['\\', '\\']
  else if c = '\n' then ['\\', 'n']
  else if c = '\r' then ['\\', 'r']
  else if c = '\t' then ['\\', 't']
  else if c.toNat = 8 then ['\\', 'b']
  else if c.toNat = 12 then ['\\', 'f']
  else if c.toNat < 32 then ['\\', 'u', '0', '0'] ++ controlDigits c.toNat
  else [c]

/-- A text in quotes. -/
def quote (s : String) : String :=
  String.ofList ('"' :: s.toList.flatMap escapeChar ++ ['"'])

mutual

def compact : Json → String
  | .null => "null"
  | .bool true => "true"
  | .bool false => "false"
  | .number n => n.text
  | .string s => quote s
  | .array items => "[" ++ ",".intercalate (compactItems items) ++ "]"
  | .object fields => "\x7b" ++ ",".intercalate (compactFields fields) ++ "\x7d"

def compactItems : List Json → List String
  | [] => []
  | item :: rest => compact item :: compactItems rest

def compactFields : List (String × Json) → List String
  | [] => []
  | (key, value) :: rest => (quote key ++ ":" ++ compact value) :: compactFields rest

end

/-- The start of a line at a depth of nesting. -/
def lineStart (depth : Nat) : String := "\n" ++ String.ofList (List.replicate (2 * depth) ' ')

/-- Entries between brackets, each on a line of its own; an empty container has no lines. -/
def block (opening closing : String) (depth : Nat) : List String → String
  | [] => opening ++ closing
  | entries =>
    opening ++ lineStart (depth + 1) ++ ("," ++ lineStart (depth + 1)).intercalate entries ++
      lineStart depth ++ closing

mutual

/-- The indented text of a value that stands at a depth of nesting. -/
def indentedAt (depth : Nat) : Json → String
  | .array items => block "[" "]" depth (indentedItems (depth + 1) items)
  | .object fields => block "\x7b" "\x7d" depth (indentedFields (depth + 1) fields)
  | .null => "null"
  | .bool true => "true"
  | .bool false => "false"
  | .number n => n.text
  | .string s => quote s

def indentedItems (depth : Nat) : List Json → List String
  | [] => []
  | item :: rest => indentedAt depth item :: indentedItems depth rest

def indentedFields (depth : Nat) : List (String × Json) → List String
  | [] => []
  | (key, value) :: rest =>
    (quote key ++ ": " ++ indentedAt depth value) :: indentedFields depth rest

end

def indented (value : Json) : String := value.indentedAt 0

/-- The text form of a value inside other text: a string stands for itself. -/
def plainText : Json → String
  | .string s => s
  | value => value.compact

end Workflow.Json
