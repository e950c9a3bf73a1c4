import Workflow.Json.Decode
import Workflow.Text.Hex

/-!
The ids of runs: 32 hexadecimal digits, written in small letters in groups of 8, 4, 4, 4 and 12.
A text may leave out the hyphens, or stand in braces or behind `urn:uuid:`.
-/
namespace Workflow.Run

/-- The id of a run, by its digits in small letters. -/
structure Id where
  digits : List Char
  deriving Repr, DecidableEq, Inhabited

namespace Id

/-- The text of an id, in its groups. -/
def text (id : Id) : String :=
  let d := id.digits
  String.ofList (d.take 8 ++ '-' :: (d.drop 8).take 4 ++ '-' :: (d.drop 12).take 4
    ++ '-' :: (d.drop 16).take 4 ++ '-' :: d.drop 20)

/-- The id of 16 random bytes, in which six bits are replaced by the mark of a random id. -/
def ofRandom (bytes : List UInt8) : Id :=
  let marked := bytes.mapIdx fun i byte =>
    let n := byte.toNat
    if i = 6 then 0x40 + n % 16 else if i = 8 then 0x80 + n % 64 else n
  ⟨marked.flatMap fun n => [Nat.digitChar (n / 16), Nat.digitChar (n % 16)]⟩

inductive Fault where
  | character (c : Char) (index : Nat)
  | plainLength (length : Nat)
  | groupCount (count : Nat)
  | groupLength (group expected found : Nat)
  deriving Repr, DecidableEq

def Fault.message : Fault → String
  | character c index => s!"UUID parsing failed: invalid character: found `{c}` at {index}"
  | plainLength length =>
    s!"UUID parsing failed: invalid length: expected length 32 for simple format, found {length}"
  | groupCount count => s!"UUID parsing failed: invalid group count: expected 5, found {count}"
  | groupLength group expected found =>
    s!"UUID parsing failed: invalid group length in group {group}: "
      ++ s!"expected {expected}, found {found}"

def isHex (c : Char) : Bool := (Text.hexDigit? c).isSome

def groupLengths : List Nat := [8, 4, 4, 4, 12]

/-- The groups of a text between its hyphens. -/
def groups : List Char → List (List Char)
  | [] => [[]]
  | c :: rest =>
    if c = '-' then [] :: groups rest
    else match groups rest with
      | [] => [[c]]
      | g :: gs => (c :: g) :: gs

/-- The body of a text, where it begins, and whether the text is nothing but its body. -/
def unwrap (s : List Char) : List Char × Nat × Bool :=
  let marker := "urn:uuid:".toList
  match s, s.getLast? with
  | '{' :: rest, some '}' => (rest.dropLast, 1, false)
  | _, _ =>
    if marker.isPrefixOf s then (s.drop marker.length, marker.length, false) else (s, 0, true)

/-- The first character that is neither a hexadecimal digit nor a hyphen, with the bytes before
it. -/
def firstBad : List Char → Nat → Option (Char × Nat)
  | [], _ => none
  | c :: rest, index =>
    if isHex c || c = '-' then firstBad rest (index + c.utf8Size) else some (c, index)

/-- The first group before the last one that does not have its length, else the last one; `gone`
counts the groups before it. -/
def wrongGroup (total : Nat) : List (List Char) → List Nat → Nat → Fault
  | g :: gs, n :: ns, gone =>
    if gs.isEmpty then .groupLength gone n (total - 24)
    else if g.length ≠ n then .groupLength gone n g.length
    else wrongGroup total gs ns (gone + 1)
  | _, _, gone => .groupCount gone

def fault (s : List Char) : Fault :=
  let (body, start, isPlain) := unwrap s
  match firstBad body start with
  | some (c, index) => .character c index
  | none =>
    let gs := groups body
    if gs.length = 1 && isPlain then .plainLength s.length
    else if gs.length ≠ 5 then .groupCount gs.length
    else wrongGroup s.length gs groupLengths 0

def ofText (text : String) : Except Fault Id :=
  let s := text.toList
  let (body, _, isPlain) := unwrap s
  let gs := groups body
  let digits := gs.flatten
  if digits.all isHex
      && (gs.map List.length = groupLengths || (isPlain && gs.length = 1 && s.length = 32)) then
    .ok ⟨digits.map Char.toLower⟩
  else .error (fault s)

def decoder : Json.Decoder Id
  | .leaf (.string s) =>
    match ofText s with
    | .ok id => .ok id
    | .error e => .error (.malformed e.message)
  | d => Json.Decoder.mismatch "a UUID string" d

def toJson (id : Id) : Json := .string id.text

end Id

end Workflow.Run
