/-!
UTF-8. Bytes are read by a machine that knows what may follow; bytes that end a character too
early, or that nothing may begin with, are a malformed piece. A lossy reading puts U+FFFD in place
of every malformed piece, and a strict one has none.
-/
namespace Workflow.Text

/-- A character that has begun: its bits so far, how many bytes are missing, and the bounds of the
next one. -/
structure Begun where
  bits : Nat
  missing : Nat
  least : Nat
  greatest : Nat

/-- What a byte begins: a whole character, a longer one, or nothing. -/
inductive First where
  | whole (c : Char)
  | longer (b : Begun)
  | malformed

def First.ofByte (n : Nat) : First :=
  if n < 0x80 then .whole (Char.ofNat n)
  else if n < 0xc2 then .malformed
  else if n < 0xe0 then .longer ⟨n - 0xc0, 1, 0x80, 0xbf⟩
  else if n < 0xf0 then
    .longer ⟨n - 0xe0, 2, if n = 0xe0 then 0xa0 else 0x80, if n = 0xed then 0x9f else 0xbf⟩
  else if n < 0xf5 then
    .longer ⟨n - 0xf0, 3, if n = 0xf0 then 0x90 else 0x80, if n = 0xf4 then 0x8f else 0xbf⟩
  else .malformed

/-- What a byte ends, with nothing for a malformed piece, and what has begun after it. -/
def utf8Step (begun : Option Begun) (byte : UInt8) : List (Option Char) × Option Begun :=
  let n := byte.toNat
  let fresh : List (Option Char) × Option Begun :=
    match First.ofByte n with
    | .whole c => ([some c], none)
    | .longer b => ([], some b)
    | .malformed => ([none], none)
  match begun with
  | none => fresh
  | some b =>
    if b.least ≤ n && n ≤ b.greatest then
      let bits := b.bits * 64 + (n - 0x80)
      if b.missing = 1 then ([some (Char.ofNat bits)], none)
      else ([], some ⟨bits, b.missing - 1, 0x80, 0xbf⟩)
    else (none :: fresh.1, fresh.2)

/-- The characters of some bytes, with nothing for every malformed piece. -/
def scanUtf8 : Option Begun → List UInt8 → List (Option Char)
  | none, [] => []
  | some _, [] => [none]
  | begun, byte :: rest =>
    let (ended, begun) := utf8Step begun byte
    ended ++ scanUtf8 begun rest

/-- The text of some bytes; malformed pieces become U+FFFD. -/
def lossyText (bytes : List UInt8) : String :=
  String.ofList ((scanUtf8 none bytes).map fun c => c.getD '\ufffd')

/-- The text of some bytes, if none of them is malformed. -/
def strictText? (bytes : List UInt8) : Option String :=
  ((scanUtf8 none bytes).mapM id).map String.ofList

def utf8Bytes (text : String) : List UInt8 := text.toUTF8.toList

example : lossyText [0x61, 0xc3, 0xa9, 0xe2, 0x82, 0x62] = "aé\ufffdb" := by decide

end Workflow.Text
