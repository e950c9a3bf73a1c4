/-!
Hexadecimal digits of either case.
-/
namespace Workflow.Text

def hexDigit? (c : Char) : Option Nat :=
  if c.isDigit then some (c.toNat - 48)
  else if 'a' ≤ c ∧ c ≤ 'f' then some (c.toNat - 87)
  else if 'A' ≤ c ∧ c ≤ 'F' then some (c.toNat - 55)
  else none

/-- The two upper-case hexadecimal digits of a byte. -/
def upperHex (byte : Nat) : List Char :=
  [(Nat.digitChar (byte / 16 % 16)).toUpper, (Nat.digitChar (byte % 16)).toUpper]

end Workflow.Text
