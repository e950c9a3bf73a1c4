import Workflow.Compression.PrefixCode

/-!
Compressed bytes are read block by block. A block holds bytes as they are, or symbols in prefix
codes: a symbol is a byte, the end of the block, or the length of a piece that has been seen before
and is copied from some distance back. The codes are fixed or stand at the front of their block.
-/
namespace Workflow.Compression

/-- Appends a piece that begins some distance back; it can reach into itself. -/
def copyBack (distance : Nat) : (length : Nat) → ByteArray → ByteArray
  | 0, out => out
  | length + 1, out =>
    copyBack distance length (out.push (out[out.size - distance]?.getD 0))

/-- Pairs of a base and a number of bits to add to it. -/
abbrev Ranges := List (Nat × Nat)

def lengthRanges : Ranges :=
  [(3, 0), (4, 0), (5, 0), (6, 0), (7, 0), (8, 0), (9, 0), (10, 0), (11, 1), (13, 1), (15, 1),
    (17, 1), (19, 2), (23, 2), (27, 2), (31, 2), (35, 3), (43, 3), (51, 3), (59, 3), (67, 4),
    (83, 4), (99, 4), (115, 4), (131, 5), (163, 5), (195, 5), (227, 5), (258, 0)]

def distanceRanges : Ranges :=
  [(1, 0), (2, 0), (3, 0), (4, 0), (5, 1), (7, 1), (9, 2), (13, 2), (17, 3), (25, 3), (33, 4),
    (49, 4), (65, 5), (97, 5), (129, 6), (193, 6), (257, 7), (385, 7), (513, 8), (769, 8),
    (1025, 9), (1537, 9), (2049, 10), (3073, 10), (4097, 11), (6145, 11), (8193, 12),
    (12289, 12), (16385, 13), (24577, 13)]

def inRange (ranges : Ranges) (symbol : Nat) : BitReader Nat := do
  let some (base, bits) := ranges[symbol]? | failure
  return base + (← BitReader.number bits)

/-- The symbol that ends a block. -/
def endOfBlock : Nat := 256

/-- Reads symbols up to the end of a block; there are at most as many as there are bits. -/
def readSymbols (lengths distances : PrefixCode) : Nat → ByteArray → BitReader ByteArray
  | 0, _ => failure
  | fuel + 1, out => do
    let symbol ← lengths.next
    if symbol < endOfBlock then readSymbols lengths distances fuel (out.push symbol.toUInt8)
    else if symbol = endOfBlock then return out
    else
      let length ← inRange lengthRanges (symbol - endOfBlock - 1)
      let distance ← inRange distanceRanges (← distances.next)
      if out.size < distance then failure
      readSymbols lengths distances fuel (copyBack distance length out)

def fixedCodes : PrefixCode × PrefixCode :=
  (.ofLengths (List.replicate 144 8 ++ List.replicate 112 9 ++ List.replicate 24 7
      ++ List.replicate 8 8),
    .ofLengths (List.replicate 30 5))

/-- The order in which the lengths of the code for lengths are given. -/
def lengthOrder : List Nat := [16, 17, 18, 0, 8, 7, 9, 6, 10, 5, 11, 4, 12, 3, 13, 2, 14, 1, 15]

/-- Reads lengths of words, `left` of them; some symbols stand for repeated ones. -/
def readLengths (code : PrefixCode) : Nat → (left : Nat) → List Nat → BitReader (List Nat)
  | 0, _, _ => failure
  | fuel + 1, left, found => do
    if left = 0 then return found
    let symbol ← code.next
    let more ← match symbol with
      | 16 =>
        let some last := found.getLast? | failure
        pure (List.replicate (3 + (← BitReader.number 2)) last)
      | 17 => pure (List.replicate (3 + (← BitReader.number 3)) 0)
      | 18 => pure (List.replicate (11 + (← BitReader.number 7)) 0)
      | length => pure [length]
    if left < more.length then failure
    readLengths code fuel (left - more.length) (found ++ more)

/-- Reads the codes at the front of a block. -/
def readCodes : BitReader (PrefixCode × PrefixCode) := do
  let lengthCount := 257 + (← BitReader.number 5)
  let distanceCount := 1 + (← BitReader.number 5)
  let given ← (lengthOrder.take (4 + (← BitReader.number 4))).mapM fun symbol => do
    return (symbol, ← BitReader.number 3)
  let code := PrefixCode.ofLengths ((List.range lengthOrder.length).map fun symbol =>
    ((given.find? (·.1 = symbol)).map Prod.snd).getD 0)
  let count := lengthCount + distanceCount
  let found ← readLengths code (count + 1) count []
  return (.ofLengths (found.take lengthCount), .ofLengths (found.drop lengthCount))

def readPlain : Nat → ByteArray → BitReader ByteArray
  | 0, out => return out
  | count + 1, out => do readPlain count (out.push (← BitReader.number 8).toUInt8)

/-- Reads the body of a block of some kind. -/
def readBlock (kind fuel : Nat) (out : ByteArray) : BitReader ByteArray := do
  match kind with
  | 0 =>
    BitReader.align
    let count ← BitReader.number 16
    if (← BitReader.number 16) ≠ 0xffff - count then failure
    readPlain count out
  | 1 => readSymbols fixedCodes.1 fixedCodes.2 fuel out
  | 2 =>
    let (lengths, distances) ← readCodes
    readSymbols lengths distances fuel out
  | _ => failure

def readBlocks (fuel : Nat) : Nat → ByteArray → BitReader ByteArray
  | 0, _ => failure
  | left + 1, out => do
    let isLast ← BitReader.bit
    let out ← readBlock (← BitReader.number 2) fuel out
    if isLast = 1 then return out else readBlocks fuel left out

def inflate : BitReader ByteArray := do
  let bits := 8 * (← read).size
  readBlocks (bits + 1) (bits + 1) .empty

end Workflow.Compression
