import Workflow.Script.Fault

/-!
Resource limits of scripts. A limit of zero is no limit.
-/
namespace Workflow.Script

/-- The limits under which a script is read and run. -/
structure Limits where
  operations : Nat := 0
  stringSize : Nat := 1048576
  arraySize : Nat := 100000
  mapSize : Nat := 100000
  callLevels : Nat := 64
  expressionDepth : Nat := 64
  deriving Repr, DecidableEq

def exceeds (n limit : Nat) : Bool := limit ≠ 0 && limit < n

/-- The first limit that a size goes beyond. -/
def Limits.check (limits : Limits) (s : Value.Size) : Except Fault Unit :=
  if exceeds s.bytes limits.stringSize then .error (.tooLarge "Length of string")
  else if exceeds s.items limits.arraySize then .error (.tooLarge "Size of array/BLOB")
  else if exceeds s.entries limits.mapSize then .error (.tooLarge "Size of object map")
  else .ok ()

def Limits.checkValue (limits : Limits) (v : Value) (p : Position) : Except Error Unit :=
  match limits.check v.size with
  | .ok () => .ok ()
  | .error f => .error (.at f (some p))

end Workflow.Script
