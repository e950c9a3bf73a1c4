/-!
Binary floating-point values as exact numbers. A positive finite float is
`mantissa · 2 ^ exponent`; its rounding interval reaches half way to both neighbours, and
belongs to it with its ends exactly when the mantissa is even.
-/
namespace Workflow.Decimal

/-- Powers of integers are those of the core library, whatever else a module imports. -/
@[default_instance 20000]
instance (priority := 20000) corePower {α : Type} [NatPow α] : Pow α Nat := instPowNat

/-- A positive finite float, together with the shape of its rounding interval. -/
structure Binary where
  mantissa : Nat
  exponent : Int
  /-- The smaller neighbour is half as far away as the larger one. -/
  narrowBelow : Bool
  deriving Repr, DecidableEq

inductive Reading where
  | notANumber
  | infinite (negative : Bool)
  | zero (negative : Bool)
  | finite (negative : Bool) (value : Binary)
  deriving Repr, DecidableEq

structure Format where
  fractionBits : Nat
  exponentBits : Nat

def Format.double : Format := ⟨52, 11⟩

def Format.single : Format := ⟨23, 8⟩

/-- The power of two of the last place of the smallest floats. -/
def Format.leastExponent (f : Format) : Int :=
  2 - 2 ^ (f.exponentBits - 1) - f.fractionBits

/-- Splits a bit pattern into sign, exponent and fraction. -/
def Format.read (f : Format) (bits : Nat) : Reading :=
  let fraction := bits % 2 ^ f.fractionBits
  let biased := bits / 2 ^ f.fractionBits % 2 ^ f.exponentBits
  let negative := bits / 2 ^ (f.fractionBits + f.exponentBits) % 2 = 1
  if biased = 2 ^ f.exponentBits - 1 then
    if fraction = 0 then .infinite negative else .notANumber
  else if biased = 0 then
    if fraction = 0 then .zero negative
    else .finite negative ⟨fraction, f.leastExponent, false⟩
  else
    .finite negative
      ⟨2 ^ f.fractionBits + fraction, f.leastExponent + (biased - 1 : Nat),
        fraction = 0 && biased ≠ 1⟩

/-- The exact value of a double. -/
def ofDouble (x : Float) : Reading := Format.double.read x.toBits.toNat

def ofSingle (x : Float32) : Reading := Format.single.read x.toBits.toNat

example : ofDouble 1.0 = .finite false ⟨2 ^ 52, -52, true⟩ := by decide

example : ofDouble (-0.0) = .zero true := by decide

end Workflow.Decimal
