import Workflow.Decimal.Binary

/-!
Bits of bytes, and codes of symbols in which no code word begins another one. Such a code is given
by the lengths of its words: shorter words come first, and words of one length are in the order of
their symbols.
-/
namespace Workflow.Compression

/-- Reads the bits of some bytes from a position on; the lowest bit of a byte is its first one. -/
abbrev BitReader := ReaderT ByteArray (StateT Nat Option)

namespace BitReader

def bit : BitReader Nat := do
  let position ← get
  let some byte := (← read)[position / 8]? | failure
  set (position + 1)
  return byte.toNat / 2 ^ (position % 8) % 2

/-- A number in some bits, the lowest one first. -/
def number : (bits : Nat) → BitReader Nat
  | 0 => return 0
  | bits + 1 => do
    let low ← bit
    return low + 2 * (← number bits)

/-- Goes on to the start of a byte. -/
def align : BitReader Unit := modify fun position => (position + 7) / 8 * 8

end BitReader

/-- A code: how many words of every length there are, and the symbols in the order of their
words. -/
structure PrefixCode where
  counts : List Nat
  symbols : Array Nat

namespace PrefixCode

def greatestLength : Nat := 15

/-- The code in which every symbol has a word of some length, or none if the length is zero. -/
def ofLengths (lengths : List Nat) : PrefixCode :=
  let sizes := (List.range greatestLength).map (· + 1)
  let symbols (size : Nat) : List Nat := (lengths.zipIdx.filter (·.1 = size)).map Prod.snd
  ⟨sizes.map fun size => (symbols size).length, (sizes.flatMap symbols).toArray⟩

/-- Reads the rest of a word. Among the words of the length that is read next, `word` would be the
value of the one that is read, `first` that of the first, and `index` is the place of its symbol. -/
def nextFrom (symbols : Array Nat) : List Nat → (word first index : Nat) → BitReader Nat
  | [], _, _, _ => failure
  | count :: counts, word, first, index => do
    let word := 2 * word + (← BitReader.bit)
    if word < first + count then
      let some symbol := symbols[index + (word - first)]? | failure
      return symbol
    else nextFrom symbols counts word (2 * (first + count)) (index + count)

def next (c : PrefixCode) : BitReader Nat := nextFrom c.symbols c.counts 0 0 0

end PrefixCode

end Workflow.Compression
