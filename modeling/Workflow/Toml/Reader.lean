import Workflow.Toml.Quoted
import Workflow.Toml.Scalar
import Workflow.Toml.Table

/-!
Reading TOML. A document is a list of lines: headers of tables, keys with their values, comments
and blank lines; values in brackets may go over lines. Values and keys are nested 79 levels deep at
most. Every step takes a character, so the length of the text bounds the steps.
-/
namespace Workflow.Toml

abbrev Scan (α : Type) := StateT (List Char) Option α

namespace Scan

def takeWhile (p : Char → Bool) : Scan (List Char) := do
  let s ← get
  set (s.dropWhile p)
  return s.takeWhile p

def spaces : Scan Unit := do
  let _ ← takeWhile isSpace

def exactly (c : Char) : Scan Unit := do
  match ← get with
  | d :: rest => if c = d then set rest else failure
  | [] => failure

def sees (c : Char) : Scan Bool := do return (← get).head? = some c

/-- Takes something scanned from the front. -/
def scanned (f : List Char → Option Scanned) : Scan String := do
  let (text, rest) ← f (← get)
  set rest
  return String.ofList text

def comment : Scan Unit := do
  if ← sees '#' then
    let _ ← takeWhile isPrintable

def newline : Scan Unit := do set (← afterNewline? (← get))

/-- The end of a line: blanks, a comment, and a line break unless the text ends. -/
def lineEnd : Scan Unit := do
  spaces
  comment
  if !(← get).isEmpty then newline

/-- Skips blanks, comments and line breaks; a comment ends with its line. -/
def gap : Nat → Scan Unit
  | 0 => spaces
  | fuel + 1 => do
    spaces
    if ← sees '#' then
      comment
      newline
      gap fuel
    else if (afterNewline? (← get)).isSome then
      newline
      gap fuel

/-- The depth that nothing may reach. -/
def depthLimit : Nat := 80

def isBareKeyChar (c : Char) : Bool := c.isAlphanum || c = '_' || c = '-'

def simpleKey : Scan String := do
  match ← get with
  | '"' :: _ | '\'' :: _ => scanned shortString?
  | _ =>
    let key ← takeWhile isBareKeyChar
    if key.isEmpty then failure
    return String.ofList key

/-- The parts of a dotted key, with blanks around each. -/
def keyParts : Nat → Scan (List String)
  | 0 => failure
  | fuel + 1 => do
    spaces
    let part ← simpleKey
    spaces
    if ← sees '.' then
      exactly '.'
      return part :: (← keyParts fuel)
    else return [part]

/-- A dotted key, as its path and its last part. -/
def key : Scan (List String × String) := do
  let parts ← keyParts (depthLimit - 1)
  return (parts.dropLast, ← parts.getLast?)

/-- A word, and another one if the first is a date with a time behind it. -/
def scalar : Scan Json.Draft := do
  let word ← takeWhile isWordChar
  match ← get with
  | ' ' :: next :: rest =>
    if next.isDigit && (date? word).any (·.2.isEmpty) then
      set (next :: rest)
      let time ← takeWhile isWordChar
      scalar? (word ++ ' ' :: time)
    else scalar? word
  | _ => scalar? word

mutual

/-- A value inside of a number of brackets. -/
def value : (fuel depth : Nat) → Scan Json.Draft
  | 0, _ => failure
  | fuel + 1, depth => do
    match ← get with
    | '"' :: _ | '\'' :: _ => return .leaf (.string (← scanned string?))
    | '[' :: rest =>
      if depthLimit ≤ depth + 1 then failure
      set rest
      return .array (← items fuel (depth + 1)) none
    | '{' :: rest =>
      if depthLimit ≤ depth + 1 then failure
      set rest
      spaces
      if ← sees '}' then
        exactly '}'
        return .object [] none
      else return (← inlineEntries fuel (depth + 1) []).toDraft
    | _ => scalar

def items : (fuel depth : Nat) → Scan (List Json.Draft)
  | 0, _ => failure
  | fuel + 1, depth => do
    gap fuel
    if ← sees ']' then
      exactly ']'
      return []
    let item ← value fuel depth
    gap fuel
    if ← sees ',' then
      exactly ','
      return item :: (← items fuel depth)
    else
      exactly ']'
      return [item]

/-- The entries of a table in braces, behind its brace or a comma. -/
def inlineEntries : (fuel depth : Nat) → Entries → Scan Entries
  | 0, _, _ => failure
  | fuel + 1, depth, entries => do
    let (path, last) ← key
    exactly '='
    spaces
    let v ← value fuel depth
    spaces
    let entries ← entries.put path last v
    if ← sees ',' then
      exactly ','
      inlineEntries fuel depth entries
    else
      exactly '}'
      return entries

end

/-- A header, in single or double brackets: the document with the table that it opens, and the
path of that table. -/
def header (document : Entries) : Scan (Entries × List String) := do
  exactly '['
  let double ← sees '['
  if double then exactly '['
  let (path, last) ← key
  exactly ']'
  if double then exactly ']'
  lineEnd
  let document ← if double then document.openNext path last else document.openTable path last
  return (document, path ++ [last])

/-- The lines of a document; the path is that of the table that was opened last. -/
def lines : (fuel : Nat) → Entries → List String → Scan Entries
  | 0, _, _ => failure
  | fuel + 1, document, path => do
    spaces
    match ← get with
    | [] => return document
    | '[' :: _ =>
      let (document, path) ← header document
      lines fuel document path
    | c :: _ =>
      if c = '#' || c = '\n' || c = '\r' then
        lineEnd
        lines fuel document path
      else
        let (inner, last) ← key
        exactly '='
        spaces
        let v ← value fuel 0
        lineEnd
        let document ← document.within path fun table => table.put inner last v
        lines fuel document path

end Scan

/-- Reads a document; a byte order mark at the front does not count. -/
def parse (text : String) : Option Json.Draft := do
  let s := match text.toList with
    | '\ufeff' :: rest => rest
    | s => s
  let (document, _) ← (Scan.lines (s.length + 2) [] []).run s
  return document.toDraft

end Workflow.Toml
