import Workflow.Compression.Checksum
import Workflow.Compression.Inflate
import Workflow.Text.Utf8

/-!
Compressed files: a header, compressed bytes, and then a checksum and the length of what was
compressed. What is written is stored in blocks as it is; what is read can be compressed in any way.
-/
namespace Workflow.Compression.Gzip

/-- A number in some bytes, the lowest one first. -/
def bytesOf : (count : Nat) → Nat → List UInt8
  | 0, _ => []
  | count + 1, n => (n % 256).toUInt8 :: bytesOf count (n / 256)

def mark : List Nat := [0x1f, 0x8b, 8]

/-! ## Reading -/

/-- Skips a text that ends in a zero. -/
def skipText : Nat → BitReader Unit
  | 0 => failure
  | left + 1 => do if (← BitReader.number 8) ≠ 0 then skipText left

def skipBytes (count : Nat) : BitReader Unit := modify (· + 8 * count)

/-- Reads the header, with the fields that its flags announce. -/
def header : BitReader Unit := do
  if (← (List.range 3).mapM fun _ => BitReader.number 8) ≠ mark then failure
  let flags ← BitReader.number 8
  let has (bit : Nat) : Bool := flags / 2 ^ bit % 2 = 1
  let size := (← read).size
  skipBytes 6
  if has 2 then skipBytes (← BitReader.number 16)
  if has 3 then skipText size
  if has 4 then skipText size
  if has 1 then skipBytes 2

def file : BitReader ByteArray := do
  header
  let out ← inflate
  BitReader.align
  if (← BitReader.number 32) ≠ (checksum out).toNat then failure
  if (← BitReader.number 32) ≠ out.size % 2 ^ 32 then failure
  return out

def unpack? (bytes : ByteArray) : Option String := do
  let (out, _) ← (file.run bytes).run 0
  Text.strictText? out.toList

/-! ## Writing -/

def blockSize : Nat := 65535

/-- A block that holds bytes as they are. -/
def storedBlock (isLast : Bool) (bytes : List UInt8) : List UInt8 :=
  (if isLast then 1 else 0) :: bytesOf 2 bytes.length ++ bytesOf 2 (0xffff - bytes.length)
    ++ bytes

def storedBlocks (bytes : List UInt8) : List UInt8 :=
  if bytes.length ≤ blockSize then storedBlock true bytes
  else storedBlock false (bytes.take blockSize) ++ storedBlocks (bytes.drop blockSize)
termination_by bytes.length
decreasing_by
  have h : 0 < blockSize := by decide
  simp only [List.length_drop]
  omega

def pack (text : String) : ByteArray :=
  let bytes := text.toUTF8
  let start := mark.map Nat.toUInt8 ++ List.replicate 6 0 ++ [255]
  ⟨(start ++ storedBlocks bytes.toList ++ bytesOf 4 (checksum bytes).toNat
    ++ bytesOf 4 (bytes.size % 2 ^ 32)).toArray⟩

end Workflow.Compression.Gzip
