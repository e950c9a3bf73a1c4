import Workflow.Text.Hex
import Workflow.Text.Utf8

/-!
Percent encoding: a byte as a percent sign and two hexadecimal digits. Each part of an address has
its own set of characters that are encoded; everything beyond ASCII always is.
-/
namespace Workflow.Http

/-- A set of ASCII characters to encode. -/
abbrev EncodeSet := Char → Bool

namespace EncodeSet

def control : EncodeSet := fun c => c.toNat < 0x20 || c.toNat = 0x7f

def fragment : EncodeSet := fun c => control c || c ∈ [' ', '"', '<', '>', '\x60']

def path : EncodeSet := fun c => fragment c || c ∈ ['#', '?', '{', '}']

def userInfo : EncodeSet := fun c =>
  path c || c ∈ ['/', ':', ';', '=', '@', '[', '\\', ']', '^', '|']

def query : EncodeSet := fun c => control c || c ∈ [' ', '"', '#', '<', '>']

/-- The set for the queries of well-known schemes. -/
def specialQuery : EncodeSet := fun c => query c || c = '\x27'

end EncodeSet

def encodeByte (byte : UInt8) : List Char := '%' :: Text.upperHex byte.toNat

/-- Encodes the characters of a set and everything beyond ASCII. -/
def percentEncode (set : EncodeSet) (s : List Char) : List Char :=
  s.flatMap fun c =>
    if 0x80 ≤ c.toNat || set c then (Text.utf8Bytes c.toString).flatMap encodeByte else [c]

/-- The bytes of a text; `%` and two hexadecimal digits are one byte. -/
def percentDecode : List Char → List UInt8
  | [] => []
  | '%' :: a :: b :: rest =>
    match Text.hexDigit? a, Text.hexDigit? b with
    | some x, some y => UInt8.ofNat (x * 16 + y) :: percentDecode rest
    | _, _ => 0x25 :: percentDecode (a :: b :: rest)
  | c :: rest => Text.utf8Bytes c.toString ++ percentDecode rest

/-- A text as the value of a form field: blanks become `+`. -/
def formEncode (text : String) : List Char :=
  (Text.utf8Bytes text).flatMap fun byte =>
    let c := Char.ofNat byte.toNat
    if c.isAlphanum || c ∈ ['*', '-', '.', '_'] then [c]
    else if c = ' ' then ['+']
    else encodeByte byte

end Workflow.Http
