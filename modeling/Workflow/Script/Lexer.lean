import Workflow.Decimal.Numeral
import Workflow.Script.Limits
import Workflow.Script.Token
import Workflow.Text.Hex

/-!
Cutting a script into words. Every word takes at least one character, so the cutting ends after at
most as many steps as there are characters. A text that is no word ends the list with a fault.
-/
namespace Workflow.Script

/-- What is left of a script, with the place of the last character taken. -/
structure Cursor where
  rest : List Char
  line : Nat
  column : Nat

namespace Cursor

def start (text : String) : Cursor := ⟨text.toList, 1, 0⟩

def here (c : Cursor) : Position := ⟨c.line, c.column⟩

def next (c : Cursor) : Position := ⟨c.line, c.column + 1⟩

def advance (c : Cursor) : Cursor :=
  match c.rest with
  | [] => c
  | '\n' :: rest => ⟨rest, c.line + 1, 0⟩
  | _ :: rest => ⟨rest, c.line, c.column + 1⟩

def advanceBy : Nat → Cursor → Cursor
  | 0, c => c
  | n + 1, c => advanceBy n c.advance

def takeWhile (p : Char → Bool) (c : Cursor) : List Char × Cursor :=
  let taken := c.rest.takeWhile p
  (taken, c.advanceBy taken.length)

end Cursor

def isNameStart (c : Char) : Bool := c.isAlpha

def isNameChar (c : Char) : Bool := c.isAlphanum || c = '_'

/-- A name has a letter behind its underscores. -/
def isProperName (s : List Char) : Bool :=
  match s.dropWhile (· = '_') with
  | [] => false
  | c :: _ => isNameStart c

/-! ## Comments -/

def skipLine : List Char → Cursor → Cursor
  | [], c => c
  | ch :: rest, c => if ch = '\n' then c else skipLine rest c.advance

/-- Drops a comment with nested comments in it; `depth` comments are open. -/
def skipComment : List Char → Nat → Cursor → Cursor
  | [], _, c => c
  | [_], _, c => c.advance
  | '*' :: '/' :: rest, depth, c =>
    if depth ≤ 1 then c.advanceBy 2 else skipComment rest (depth - 1) (c.advanceBy 2)
  | '/' :: '*' :: rest, depth, c => skipComment rest (depth + 1) (c.advanceBy 2)
  | _ :: second :: rest, depth, c => skipComment (second :: rest) depth c.advance

/-! ## Numbers -/

def isSeparatedDigit (p : Char → Bool) (c : Char) : Bool := p c || c = '_'

def digitValue (c : Char) : Nat := (Text.hexDigit? c).getD 0

def naturalOf (base : Nat) (digits : List Char) : Nat :=
  digits.foldl (fun n c => n * base + digitValue c) 0

/-- An integer of another base than ten; its 64 bits are taken as a signed integer. -/
def basedNumber (base : Nat) (digits : List Char) (written : String) : Token :=
  let digits := digits.filter (· ≠ '_')
  let n := naturalOf base digits
  if digits.isEmpty || 2 ^ 64 ≤ n then .bad (.badNumber written)
  else .int (if n < 2 ^ 63 then n else (n : Int) - 2 ^ 64)

/-- A number without fraction and exponent is an integer if it fits in 64 bits. -/
def decimalNumber (isNegative : Bool) (whole : List Char) (fraction exponent : Option (List Char)) :
    Token :=
  let digits (s : List Char) := s.filter (· ≠ '_')
  let sign := if isNegative then ['-'] else []
  let text := sign ++ digits whole ++ (match fraction with
    | some f => '.' :: (if f.isEmpty then ['0'] else digits f)
    | none => []) ++ (match exponent with
    | some e => 'e' :: digits e
    | none => [])
  let n := naturalOf 10 (digits whole)
  let value : Int := if isNegative then -n else n
  if fraction.isNone && exponent.isNone && -2 ^ 63 ≤ value && value < 2 ^ 63 then .int value
  else match Decimal.parseFloat (String.ofList text) with
    | .ok x => .float x
    | .error _ => .bad (.badNumber (String.ofList text))

def isBased : List Char → Bool
  | '0' :: letter :: _ => letter ∈ ['x', 'X', 'o', 'O', 'b', 'B']
  | _ => false

/-- A number; the next character is a digit. Only a decimal number has a sign of its own. -/
def scanNumber (isNegative : Bool) (c : Cursor) : Token × Cursor :=
  let based (base : Nat) (p : Char → Bool) : Token × Cursor :=
    let (digits, after) := (c.advanceBy 2).takeWhile (isSeparatedDigit p)
    (basedNumber base digits (String.ofList (c.rest.take 2 ++ digits)), after)
  match c.rest with
  | '0' :: 'x' :: _ | '0' :: 'X' :: _ => based 16 fun ch => (Text.hexDigit? ch).isSome
  | '0' :: 'o' :: _ | '0' :: 'O' :: _ => based 8 fun ch => '0' ≤ ch && ch ≤ '7'
  | '0' :: 'b' :: _ | '0' :: 'B' :: _ => based 2 fun ch => ch = '0' || ch = '1'
  | _ =>
    let isDigit := isSeparatedDigit Char.isDigit
    let (whole, c) := c.takeWhile isDigit
    let (fraction, c) := match c.rest with
      | '.' :: second :: _ =>
        if second.isDigit then
          let (digits, c) := c.advance.takeWhile isDigit
          (some digits, c)
        else if second = '.' || second = '_' || isNameStart second then (none, c)
        else (some [], c.advance)
      | ['.'] => (some [], c.advance)
      | _ => (none, c)
    let (exponent, c) := match c.rest with
      | 'e' :: second :: _ =>
        if second.isDigit then
          let (digits, c) := c.advance.takeWhile isDigit
          (some digits, c)
        else if second = '+' || second = '-' then
          let (digits, c) := (c.advanceBy 2).takeWhile isDigit
          (some (second :: digits), c)
        else (none, c)
      | _ => (none, c)
    (decimalNumber isNegative whole fraction exponent, c)

/-! ## Strings -/

/-- How a piece of quoted text ends. -/
inductive QuoteEnd where
  | closed
  | block

/-- The number of hexadecimal digits of an escape. -/
def escapeWidth? (c : Char) : Option Nat :=
  match c with
  | 'x' => some 2
  | 'u' => some 4
  | 'U' => some 8
  | _ => none

def plainEscape? (quote c : Char) : Option Char :=
  match c with
  | 't' => some '\t'
  | 'n' => some '\n'
  | 'r' => some '\r'
  | '\\' => some '\\'
  | _ => if c = quote then some c else none

def charOf? (n : Nat) : Option Char :=
  if n < 0xD800 || (0xDFFF < n && n < 0x110000) then some (Char.ofNat n) else none

/-- Quoted text up to its end; `fuel` bounds the characters. Back quotes span lines and hold
interpolated blocks. -/
def scanQuoted (limit : Nat) (quote : Char) (start : Position) :
    Nat → Cursor → List Char → Except SyntaxError (List Char × QuoteEnd × Cursor)
  | 0, _, _ => .error ⟨.openString, start⟩
  | fuel + 1, c, text =>
    if exceeds ((text.map Char.utf8Size).sum) limit then .error ⟨.longString limit, start⟩
    else match c.rest with
      | [] => .error ⟨.openString, start⟩
      | '\\' :: second :: _ =>
        if quote = '\x60' then scanQuoted limit quote start fuel c.advance ('\\' :: text)
        else if second = '\n' then
          let (_, after) := (c.advanceBy 2).takeWhile (fun ch => ch = ' ' || ch = '\t')
          scanQuoted limit quote start fuel after text
        else match plainEscape? quote second, escapeWidth? second with
          | some e, _ => scanQuoted limit quote start fuel (c.advanceBy 2) (e :: text)
          | none, some width =>
            let digits := (c.rest.drop 2).take width
            let after := c.advanceBy (2 + width)
            if digits.length = width && digits.all (fun d => (Text.hexDigit? d).isSome) then
              match charOf? (naturalOf 16 digits) with
              | some e => scanQuoted limit quote start fuel after (e :: text)
              | none =>
                .error ⟨.badEscape (String.ofList ('\\' :: second :: digits)), after.here⟩
            else
              let valid := digits.takeWhile fun d => (Text.hexDigit? d).isSome
              let seen := digits.take (valid.length + 1)
              .error ⟨.badEscape (String.ofList ('\\' :: second :: seen)),
                (c.advanceBy (3 + valid.length)).here⟩
          | none, none =>
            .error ⟨.badEscape (String.ofList ['\\', second]), (c.advanceBy 2).here⟩
      | '$' :: '{' :: _ =>
        if quote = '\x60' then .ok (text.reverse, .block, c.advance)
        else scanQuoted limit quote start fuel c.advance ('$' :: text)
      | ch :: rest =>
        if ch = quote then
          if rest.head? = some quote then
            scanQuoted limit quote start fuel (c.advanceBy 2) (quote :: text)
          else .ok (text.reverse, .closed, c.advance)
        else if ch = '\n' && quote ≠ '\x60' then .error ⟨.openString, start⟩
        else scanQuoted limit quote start fuel c.advance (ch :: text)

/-! ## Words -/

/-- The word that a run of name characters is. -/
def wordToken (s : List Char) : Token :=
  let text := String.ofList s
  if text ∈ keywords then .keyword text
  else if text = "eval" then .bad (.advice "reserved keyword 'eval' is disabled")
  else if text ∈ reservedWords || text ∈ reservedFunctions then .reserved text
  else if text = "_" then .symbol "_"
  else if isProperName s then .name text
  else .bad (.badName text)

def symbolToken (rest : List Char) : Token × Nat :=
  let starts (s : String) : Bool := s.toList.isPrefixOf rest
  let longest := (foreignSymbols.map (·.1) ++ symbols ++ reservedSymbols).filter starts
    |>.foldl (fun best s => if best.length < s.length then s else best) ""
  let isIn := starts "!in" && !((rest.drop 3).head?.any isNameChar)
  if isIn then (.symbol "!in", 3)
  else match foreignSymbols.find? (·.1 = longest) with
    | some (_, advice) => (.bad (.advice advice), longest.length)
    | none =>
      if longest ∈ symbols then (.symbol longest, longest.length)
      else if longest = "" then (.bad (.unexpected (String.ofList (rest.take 1))), 1)
      else (.reserved longest, longest.length)

/-- Whether a minus after a word is the sign of a number if it stands right before one. -/
def precedesSign : Token → Bool
  | .symbol text => text ∉ ["\x7d", ")", "]", ".", "?.", "=>", "::", "#\x7b"]
  | .keyword text => text ∈ ["if", "while", "until", "in", "return", "throw"]
  | .bad _ => true
  | _ => false

structure Scan where
  cursor : Cursor
  /-- How many braces were open around every interpolated block that is open. -/
  blocks : List Nat := []
  braces : Nat := 0
  mayHaveSign : Bool := true

def Scan.after (s : Scan) (token : Token) (cursor : Cursor) : Scan :=
  { s with cursor, mayHaveSign := precedesSign token }

def scan (limits : Limits) : Nat → Scan → List (Token × Position)
  | 0, s => [(.ending, s.cursor.next)]
  | fuel + 1, s =>
    let c := s.cursor
    let position := c.next
    let word (token : Token) (after : Cursor) : List (Token × Position) :=
      (token, position) :: scan limits fuel (s.after token after)
    let quoted (quote : Char) (start : Position) (c : Cursor)
        (go : List Char → QuoteEnd → Cursor → List (Token × Position)) :
        List (Token × Position) :=
      match scanQuoted limits.stringSize quote start (c.rest.length + 1) c [] with
      | .error e => [(.bad e.fault, e.position)]
      | .ok (text, ending, after) => go text ending after
    let templateText (start : Position) (c : Cursor) (outer : Nat) (blocks : List Nat) :
        List (Token × Position) :=
      quoted '\x60' start c fun text ending after =>
        let s := { s with cursor := after, braces := outer, mayHaveSign := false }
        match ending with
        | .closed =>
          (.string (String.ofList text), start) :: scan limits fuel { s with blocks }
        | .block =>
          (.template (String.ofList text), start) ::
            scan limits fuel { s with blocks := outer :: blocks }
    match c.rest with
    | [] => [(.ending, c.next)]
    | ch :: rest =>
      if ch = ' ' || ch = '\t' || ch = '\n' || ch = '\r' then
        scan limits fuel { s with cursor := c.advance }
      else if ch = '/' && rest.head? = some '/' then
        scan limits fuel { s with cursor := skipLine c.rest c }
      else if ch = '/' && rest.head? = some '*' then
        scan limits fuel { s with cursor := skipComment (rest.drop 1) 1 (c.advanceBy 2) }
      else if ch.isDigit then
        let (token, after) := scanNumber false c
        word token after
      else if ch = '-' && s.mayHaveSign && rest.head?.any Char.isDigit && !isBased rest then
        let (token, after) := scanNumber true c.advance
        word token after
      else if isNameStart ch || ch = '_' then
        let (text, after) := c.takeWhile isNameChar
        word (wordToken text) after
      else if ch = '"' then
        quoted '"' position c.advance fun text _ after => word (.string (String.ofList text)) after
      else if ch = '\x27' then
        quoted '\x27' position c.advance fun text _ after =>
          match text with
          | [x] => word (.char x) after
          | _ => word (.bad (.badChar (String.ofList text))) after
      else if ch = '\x60' then
        let c := c.advance
        match c.rest with
        | '\r' :: '\n' :: _ => templateText position (c.advanceBy 2) s.braces s.blocks
        | '\n' :: _ => templateText position c.advance s.braces s.blocks
        | _ => templateText position c s.braces s.blocks
      else
        let (token, length) := symbolToken c.rest
        let after := c.advanceBy length
        let next := s.after token after
        let go (next : Scan) : List (Token × Position) :=
          (token, position) :: scan limits fuel next
        match token with
        | .symbol "\x7b" | .symbol "#\x7b" => go { next with braces := s.braces + 1 }
        | .symbol "\x7d" =>
          match s.blocks with
          | outer :: blocks =>
            if s.braces = outer + 1 then
              (token, position) :: templateText after.next after outer blocks
            else go { next with braces := s.braces - 1 }
          | [] => go { next with braces := s.braces - 1 }
        | _ => go next

/-- The words of a script with their places; the last one is the end of the script. -/
def tokens (limits : Limits) (text : String) : List (Token × Position) :=
  let c := Cursor.start text
  scan limits (c.rest.length + 1) { cursor := c }

end Workflow.Script
