import Workflow.Script.Fault

/-!
The words of the scripting language.
-/
namespace Workflow.Script

inductive Token where
  | int (value : Int)
  | float (value : Float)
  | char (value : Char)
  | string (text : String)
  /-- The text in front of an interpolated block. -/
  | template (text : String)
  | name (text : String)
  | keyword (text : String)
  | reserved (text : String)
  | symbol (text : String)
  | bad (fault : SyntaxFault)
  | ending
  deriving Repr

def keywords : List String :=
  ["let", "const", "if", "else", "switch", "do", "while", "until", "loop", "for", "in",
    "continue", "break", "return", "throw", "try", "catch", "import", "export", "as",
    "private", "fn", "true", "false"]

/-- The words that are kept for later use. -/
def reservedWords : List String :=
  ["async", "await", "case", "default", "exit", "go", "goto", "match", "module", "new", "nil",
    "null", "package", "protected", "public", "shared", "spawn", "static", "super", "sync",
    "this", "thread", "use", "var", "void", "with", "yield"]

/-- The reserved words that name functions. -/
def reservedFunctions : List String :=
  ["print", "debug", "type_of", "Fn", "call", "curry", "is_shared", "is_def_var", "is_def_fn"]

/-- The symbols of the language, longer ones first. -/
def symbols : List String :=
  ["..=", "**=", "<<=", ">>=",
    "..", "**", "<<", ">>", "+=", "-=", "*=", "/=", "%=", "&=", "|=", "^=", "==", "!=", "<=",
    ">=", "&&", "||", "??", "?.", "?[", "=>", "::", "#\x7b",
    "\x7b", "\x7d", "(", ")", "[", "]", "+", "-", "*", "/", "%", ";", ":", ",", ".", "=", "<",
    ">", "!", "&", "|", "^"]

/-- Symbols of other languages, with advice; longer ones come first. -/
def foreignSymbols : List (String × String) :=
  [("===", "'===' is not a valid operator. This is not JavaScript! Should it be '=='?"),
    ("!==", "'!==' is not a valid operator. This is not JavaScript! Should it be '!='?"),
    ("::<", "'::<>' is not a valid symbol. This is not Rust! Should it be '::'?"),
    ("->", "'->' is not a valid symbol. This is not C or C++!"),
    ("<-", "'<-' is not a valid symbol. This is not Go! Should it be '<='?"),
    (":=", "':=' is not a valid assignment operator. This is not Go or Pascal! Should it be"
      ++ " simply '='?"),
    (":;", "':;' is not a valid symbol. Should it be '::'?"),
    ("(*", "'(* .. *)' is not a valid comment format. This is not Pascal! Should it be"
      ++ " '/* .. */'?"),
    ("*)", "'(* .. *)' is not a valid comment format. This is not Pascal! Should it be"
      ++ " '/* .. */'?"),
    ("#", "'#' is not a valid symbol. Should it be '#\x7b'?")]

/-- Symbols that are kept for later use, longer ones first. -/
def reservedSymbols : List String :=
  ["...", "++", "--", "|>", "<|", "~", "@", "$", "?"]

namespace Token

def text : Token → String
  | int i => toString i
  | float x => Value.floatLayout.double x
  | char c => c.toString
  | string _ => "string"
  | template _ => "string"
  | name s | keyword s | reserved s | symbol s => s
  | bad f => f.message
  | ending => "{EOF}"

def isSymbol (s : String) : Token → Bool
  | symbol t => t = s
  | _ => false

def isKeyword (s : String) : Token → Bool
  | keyword t => t = s
  | _ => false

/-- The operator of a compound assignment. -/
def compound? : Token → Option String
  | symbol s =>
    if s ∈ ["+=", "-=", "*=", "/=", "%=", "&=", "|=", "^=", "**=", "<<=", ">>="] then
      some (s.dropEnd 1).toString
    else none
  | _ => none

/-- How tightly a binary operator binds; zero for a token that is none. -/
def precedence : Token → Nat
  | symbol s =>
    if s ∈ ["||", "|", "^"] then 30
    else if s ∈ ["&&", "&"] then 60
    else if s ∈ ["==", "!="] then 90
    else if s ∈ ["<", "<=", ">", ">="] then 130
    else if s = "??" then 135
    else if s ∈ ["..", "..="] then 140
    else if s ∈ ["+", "-"] then 150
    else if s ∈ ["*", "/", "%"] then 180
    else if s = "**" then 190
    else if s ∈ ["<<", ">>"] then 210
    else if s = "!in" then 110
    else 0
  | keyword "in" => 110
  | _ => 0

/-- Powers are grouped from the right. -/
def bindsRight : Token → Bool
  | symbol "**" => true
  | _ => false

end Token

end Workflow.Script
