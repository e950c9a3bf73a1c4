import Workflow.Decimal.Binary
import Workflow.Http.Percent
import Workflow.Http.Punycode
import Workflow.Text.Case
import Workflow.Text.Split

/-!
Hosts of addresses: names, four-byte addresses and sixteen-byte addresses in brackets. A name is
written in small ASCII letters; a name that ends in a number has to be a four-byte address.
-/
namespace Workflow.Http.Host

def isForbidden (c : Char) : Bool :=
  c.toNat ≤ 0x20 || c.toNat = 0x7f
    || c ∈ ['%', '#', '/', ':', '<', '>', '?', '@', '[', '\\', ']', '^', '|']

def asciiLabel (label : List Char) : List Char :=
  if label.all (·.toNat < 0x80) then label else "xn--".toList ++ Punycode.encode label

/-- The parts of a name; some marks other than the point part names, too. -/
def labels (s : List Char) : List (List Char) :=
  Text.splitOn '.' (s.map fun c => if c ∈ ['\u3002', '\uff0e', '\uff61'] then '.' else c)

/-- The number that a part of a four-byte address stands for: octal behind `0`, hexadecimal behind
`0x`. -/
def number? (s : List Char) : Option Nat :=
  let read (base : Nat) (digits : List Char) : Option Nat :=
    if digits.all fun c => (Text.hexDigit? c).any (· < base) then
      some (digits.foldl (fun n c => n * base + (Text.hexDigit? c).getD 0) 0)
    else none
  match s with
  | [] => none
  | '0' :: 'x' :: rest | '0' :: 'X' :: rest => read 16 rest
  | '0' :: c :: rest => read 8 (c :: rest)
  | s => read 10 s

/-- The parts without an empty last one. -/
def withoutEmptyEnd (parts : List (List Char)) : List (List Char) :=
  if parts.getLast? = some [] && 1 < parts.length then parts.dropLast else parts

def endsInNumber (parts : List (List Char)) : Bool :=
  match (withoutEmptyEnd parts).getLast? with
  | none => false
  | some [] => false
  | some last => last.all Char.isDigit || (number? last).isSome

/-- A four-byte address; the last part fills the bytes that are left. -/
def ipv4? (parts : List (List Char)) : Option (List Char) := do
  let numbers ← (withoutEmptyEnd parts).mapM number?
  let last ← numbers.getLast?
  let front := numbers.dropLast
  if 3 < front.length || front.any (255 < ·) || 256 ^ (4 - front.length) ≤ last then none
  else
    let value := last + (front.zipIdx.foldl (fun n (part, i) => n + part * 256 ^ (3 - i)) 0)
    let byte (i : Nat) : List Char := Nat.toDigits 10 (value / 256 ^ i % 256)
    some (byte 3 ++ '.' :: byte 2 ++ '.' :: byte 1 ++ '.' :: byte 0)

def piece? (s : List Char) : Option Nat :=
  if s.isEmpty || 4 < s.length || !s.all fun c => (Text.hexDigit? c).isSome then none
  else some (s.foldl (fun n c => n * 16 + (Text.hexDigit? c).getD 0) 0)

/-- A plain decimal byte without leading zeros. -/
def byte? (s : List Char) : Option Nat :=
  if s.isEmpty || 3 < s.length || !s.all Char.isDigit || (s.head? = some '0' && 1 < s.length) then
    none
  else
    let n := s.foldl (fun n c => n * 10 + (c.toNat - 48)) 0
    if n < 256 then some n else none

/-- The groups of a part of a sixteen-byte address; the last one may be a four-byte address. -/
def groups? (s : List Char) (last : Bool) : Option (List Nat) :=
  if s.isEmpty then some []
  else
    let parts := Text.splitOn ':' s
    match parts.getLast? with
    | none => some []
    | some final =>
      if last && final.contains '.' then do
        let front ← parts.dropLast.mapM piece?
        match ← (Text.splitOn '.' final).mapM byte? with
        | [a, b, c, d] => some (front ++ [a * 256 + b, c * 256 + d])
        | _ => none
      else parts.mapM piece?

def cutGap : List Char → Option (List Char × List Char)
  | ':' :: ':' :: rest => some ([], rest)
  | c :: rest => (cutGap rest).map fun (a, b) => (c :: a, b)
  | [] => none

def ipv6Groups? (s : List Char) : Option (List Nat) :=
  match cutGap s with
  | none => do
    let groups ← groups? s true
    if groups.length = 8 then some groups else none
  | some (front, back) => do
    let a ← groups? front false
    let b ← groups? back true
    if a.length + b.length < 8 then
      some (a ++ List.replicate (8 - a.length - b.length) 0 ++ b)
    else none

/-- The longest run of zero groups, the first of several: its place and its length. -/
def longestZeros (groups : List Nat) : Nat × Nat :=
  let run (i : Nat) : Nat := ((groups.drop i).takeWhile (· = 0)).length
  (List.range 8).foldl (fun best i => if best.2 < run i then (i, run i) else best) (0, 0)

/-- A sixteen-byte address with its longest run of zero groups left out. -/
def ipv6Text (groups : List Nat) : List Char :=
  let text (gs : List Nat) : List Char :=
    [':'].intercalate (gs.map fun g => Nat.toDigits 16 g)
  let (place, length) := longestZeros groups
  if length < 2 then text groups
  else text (groups.take place) ++ [':', ':'] ++ text (groups.drop (place + length))

def normalize? (s : List Char) : Option (List Char) :=
  match s with
  | '[' :: rest =>
    if rest.getLast? = some ']' then
      (ipv6Groups? rest.dropLast).map fun groups => '[' :: ipv6Text groups ++ [']']
    else none
  | s => do
    let decoded ← Text.strictText? (percentDecode s)
    let parts := (labels (Text.lower decoded.toList)).map asciiLabel
    let name := ['.'].intercalate parts
    if name.isEmpty || name.any isForbidden then none
    else if endsInNumber parts then ipv4? parts
    else some name

/-- The written form of a host in an address of a scheme that is not well known. -/
def opaque? (s : List Char) : Option (List Char) :=
  match s with
  | '[' :: _ => normalize? s
  | s =>
    if s.any fun c => isForbidden c && c ≠ '%' then none
    else some (percentEncode EncodeSet.control s)

end Workflow.Http.Host
