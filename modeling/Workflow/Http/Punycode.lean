/-!
Names of hosts in ASCII letters: the code points beyond ASCII are written, in increasing order, as
differences in a numeral system whose digits run from `a` to `9` and whose bias adapts.
-/
namespace Workflow.Http.Punycode

def digit (n : Nat) : Char := Char.ofNat (if n < 26 then 97 + n else 22 + n)

/-- The least value of a digit at a place that is not the last one. -/
def threshold (place bias : Nat) : Nat :=
  if place ≤ bias then 1 else if bias + 26 ≤ place then 26 else place - bias

theorem threshold_pos (place bias : Nat) : 1 ≤ threshold place bias := by
  unfold threshold
  split
  · omega
  · split <;> omega

/-- Divides by 35 until at most 455 are left, and counts 36 for every division. -/
def reduce (delta count : Nat) : Nat × Nat :=
  if 455 < delta then reduce (delta / 35) (count + 36) else (delta, count)
termination_by delta

/-- The bias after a difference. -/
def adapt (delta points : Nat) (isFirst : Bool) : Nat :=
  let d := if isFirst then delta / 700 else delta / 2
  let (rest, count) := reduce (d + d / points) 0
  count + 36 * rest / (rest + 38)

def digits (bias place n : Nat) : List Char :=
  let t := threshold place bias
  if n < t then [digit n]
  else digit (t + (n - t) % (36 - t)) :: digits bias (place + 36) ((n - t) / (36 - t))
termination_by n
decreasing_by
  have := threshold_pos place bias
  exact Nat.lt_of_le_of_lt (Nat.div_le_self _ _) (by omega)

structure Progress where
  output : List Char
  delta : Nat
  bias : Nat
  written : Nat

/-- Looks at one character while the code point `point` is written. -/
def look (basic point : Nat) (p : Progress) (c : Char) : Progress :=
  if c.toNat < point then { p with delta := p.delta + 1 }
  else if c.toNat = point then
    ⟨p.output ++ digits p.bias 36 p.delta, 0, adapt p.delta (p.written + 1) (p.written = basic),
      p.written + 1⟩
  else p

/-- Writes the code points from `next` on, given in increasing order. -/
def write (s : List Char) (basic : Nat) : List Nat → Nat → Progress → Progress
  | [], _, p => p
  | point :: rest, next, p =>
    let p := { p with delta := p.delta + (point - next) * (p.written + 1) }
    let p := s.foldl (look basic point) p
    write s basic rest (point + 1) { p with delta := p.delta + 1 }

def encode (s : List Char) : List Char :=
  let basic := s.filter (·.toNat < 0x80)
  let points := (((s.filter (0x80 ≤ ·.toNat)).map Char.toNat).mergeSort).eraseDups
  let p := write s basic.length points 0x80 ⟨[], 0, 72, basic.length⟩
  (if basic.isEmpty then [] else basic ++ ['-']) ++ p.output

end Workflow.Http.Punycode
