import Workflow.Text.Hex

/-!
Strings of TOML. Between double quotes a backslash begins an escape, between single quotes all
characters stand for themselves. A string in three quotes may go over lines: a line break behind
the opening quotes does not count, and there may be one or two quotes more at the end.
-/
namespace Workflow.Toml

def isSpace (c : Char) : Bool := c = ' ' || c = '\t'

/-- Characters that comments and strings may have; line breaks are not among them. -/
def isPrintable (c : Char) : Bool := c = '\t' || (0x20 ≤ c.toNat && c.toNat ≠ 0x7f)

/-- What comes behind a line break, if there is one at the front. -/
def afterNewline? : List Char → Option (List Char)
  | '\n' :: rest => some rest
  | '\r' :: '\n' :: rest => some rest
  | _ => none

def escape? : Char → Option Char
  | 'b' => some '\x08'
  | 't' => some '\t'
  | 'n' => some '\n'
  | 'f' => some '\x0c'
  | 'r' => some '\r'
  | '"' => some '"'
  | '\\' => some '\\'
  | _ => none

def character? (digits : List Char) : Option Char := do
  let values ← digits.mapM Text.hexDigit?
  let n := values.foldl (fun n d => n * 16 + d) 0
  if n.isValidChar then some (Char.ofNat n) else none

abbrev Scanned := List Char × List Char

def push (c : Char) (scanned : Scanned) : Scanned := (c :: scanned.1, scanned.2)

/-- The end of a string behind its three closing quotes: up to two more belong to the text. -/
def closing (quote : Char) (s : List Char) : Option Scanned :=
  let extra := s.takeWhile (· = quote)
  if extra.length ≤ 2 then some (extra, s.drop extra.length) else none

def basic : List Char → Option Scanned
  | [] => none
  | '"' :: rest => some ([], rest)
  | '\\' :: 'u' :: a :: b :: c :: d :: rest => do
    return push (← character? [a, b, c, d]) (← basic rest)
  | '\\' :: 'U' :: a :: b :: c :: d :: e :: f :: g :: h :: rest => do
    return push (← character? [a, b, c, d, e, f, g, h]) (← basic rest)
  | '\\' :: c :: rest => do return push (← escape? c) (← basic rest)
  | c :: rest => do if isPrintable c then return push c (← basic rest) else none

def literal : List Char → Option Scanned
  | [] => none
  | '\'' :: rest => some ([], rest)
  | c :: rest => do if isPrintable c then return push c (← literal rest) else none

/-- Whether a backslash before these characters joins lines. -/
def joinsLines (s : List Char) : Bool := (afterNewline? (s.dropWhile isSpace)).isSome

/-- The text of a string in three double quotes; `joining` drops blanks and line breaks. -/
def longBasic : (joining : Bool) → List Char → Option Scanned
  | _, [] => none
  | true, ' ' :: rest => longBasic true rest
  | true, '\t' :: rest => longBasic true rest
  | true, '\n' :: rest => longBasic true rest
  | true, '\r' :: '\n' :: rest => longBasic true rest
  | _, '"' :: '"' :: '"' :: rest => closing '"' rest
  | _, '\\' :: 'u' :: a :: b :: c :: d :: rest => do
    return push (← character? [a, b, c, d]) (← longBasic false rest)
  | _, '\\' :: 'U' :: a :: b :: c :: d :: e :: f :: g :: h :: rest => do
    return push (← character? [a, b, c, d, e, f, g, h]) (← longBasic false rest)
  | _, '\\' :: c :: rest =>
    if joinsLines (c :: rest) then longBasic true rest
    else do return push (← escape? c) (← longBasic false rest)
  | _, '\r' :: '\n' :: rest => do return push '\n' (← longBasic false rest)
  | _, c :: rest => do
    if c = '\n' || isPrintable c then return push c (← longBasic false rest) else none

def longLiteral : List Char → Option Scanned
  | [] => none
  | '\'' :: '\'' :: '\'' :: rest => closing '\'' rest
  | '\r' :: '\n' :: rest => do return push '\n' (← longLiteral rest)
  | c :: rest => do
    if c = '\n' || isPrintable c then return push c (← longLiteral rest) else none

def skipNewline (s : List Char) : List Char := (afterNewline? s).getD s

def shortString? : List Char → Option Scanned
  | '"' :: rest => basic rest
  | '\'' :: rest => literal rest
  | _ => none

def string? : List Char → Option Scanned
  | '"' :: '"' :: '"' :: rest => longBasic false (skipNewline rest)
  | '\'' :: '\'' :: '\'' :: rest => longLiteral (skipNewline rest)
  | s => shortString? s

end Workflow.Toml
