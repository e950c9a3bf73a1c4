import Workflow.Decimal.Layout

/-!
Durations in whole nanoseconds. A number of seconds becomes the nearest duration; what is negative
or not a number counts as no time at all, and what is too long as the longest duration.
-/
namespace Workflow.Time

/-- A length of time, in nanoseconds. -/
structure Duration where
  nanoseconds : Nat
  deriving Repr, DecidableEq, Inhabited

namespace Duration

def second : Nat := 1000000000

/-- The longest duration has as many seconds as fit in 64 bits. -/
def longest : Duration := ⟨2 ^ 64 * second - 1⟩

def zero : Duration := ⟨0⟩

def ofWholeSeconds (n : Nat) : Duration := ⟨n * second⟩

instance : LE Duration := ⟨fun a b => a.nanoseconds ≤ b.nanoseconds⟩

instance : LT Duration := ⟨fun a b => a.nanoseconds < b.nanoseconds⟩

instance (a b : Duration) : Decidable (a ≤ b) :=
  inferInstanceAs (Decidable (a.nanoseconds ≤ b.nanoseconds))

instance (a b : Duration) : Decidable (a < b) :=
  inferInstanceAs (Decidable (a.nanoseconds < b.nanoseconds))

instance : Add Duration := ⟨fun a b => ⟨a.nanoseconds + b.nanoseconds⟩⟩

/-- The sum, if there is a duration that long. -/
def add? (a b : Duration) : Option Duration :=
  if a + b ≤ longest then some (a + b) else none

/-- The sum, or the longest duration if the sum is longer. -/
def saturatingAdd (a b : Duration) : Duration :=
  if a + b ≤ longest then a + b else longest

/-- The quotient rounded to the nearest whole number; a tie goes to the even one. -/
def roundedQuotient (n d : Nat) : Nat :=
  let q := n / d
  let twice := 2 * (n % d)
  if twice < d || (twice = d && q % 2 = 0) then q else q + 1

/-- The duration nearest to a number of seconds. -/
def ofSeconds (x : Float) : Duration :=
  match Decimal.ofDouble x with
  | .finite false v =>
    let n := roundedQuotient (v.mantissa * second * 2 ^ v.exponent.toNat)
      (2 ^ (-v.exponent).toNat)
    if n ≤ longest.nanoseconds then ⟨n⟩ else longest
  | .infinite false => longest
  | _ => zero

/-- The number of seconds, fraction included. -/
def seconds (d : Duration) : Float :=
  (UInt64.ofNat (d.nanoseconds / second)).toFloat
    + (UInt64.ofNat (d.nanoseconds % second)).toFloat / 1000000000.0

/-- The seconds as they stand in messages. -/
def text (d : Duration) : String := Decimal.Layout.message.double d.seconds

/-- The shortest whole number of milliseconds that is not shorter. -/
def milliseconds (d : Duration) : Nat :=
  d.nanoseconds / 1000000 + if d.nanoseconds % 1000000 = 0 then 0 else 1

end Duration

end Workflow.Time
