import Workflow.Decimal.Binary
import Workflow.Script.Fault
import Workflow.Text.Find

/-!
The operators of scripts. Integers are checked: a result that does not fit in 64 bits is a fault,
as is a division by zero. An integer next to a float counts as a float. A comparison of different
types is false, and only `!=` is true.
-/
namespace Workflow.Script

namespace Value

/-- The result of integer arithmetic, if it fits. -/
def checked (i : Int) (operation expression : String) : Except Fault Value :=
  if smallestInt ≤ i ∧ i ≤ largestInt then .ok (int i)
  else .error (.arithmetic s!"{operation} overflow: {expression}")

def bits (i : Int) : BitVec 64 := BitVec.ofInt 64 i

def ofBits (b : BitVec 64) : Value := int b.toInt

/-- Shifts to the left; a negative count shifts to the right. -/
def shiftLeft (a b : Int) : Value :=
  if 0 ≤ b then (if 64 ≤ b then int 0 else ofBits (bits a <<< b.toNat))
  else if b ≤ -64 then int (if a < 0 then -1 else 0)
  else ofBits ((bits a).sshiftRight b.natAbs)

def shiftRight (a b : Int) : Value :=
  if 0 ≤ b then
    if 64 ≤ b then int (if a < 0 then -1 else 0) else ofBits ((bits a).sshiftRight b.toNat)
  else if b ≤ -64 then int 0
  else ofBits (bits a <<< b.natAbs)

/-- A power of an integer. The exponent is looked at before anything is multiplied. -/
def power (a b : Int) : Except Fault Value :=
  let expression := s!"{a} ** {b}"
  if 4294967295 < b then
    .error (.arithmetic s!"Integer raised to too large an index: {expression}")
  else if b < 0 then .error (.arithmetic s!"Integer raised to a negative index: {expression}")
  else if a = 0 || a = 1 then .ok (int (if b = 0 then 1 else a))
  else if a = -1 then .ok (int (if b % 2 = 0 then 1 else -1))
  else if 64 ≤ b then .error (.arithmetic s!"Exponential overflow: {expression}")
  else checked (a ^ b.toNat) "Exponential" expression

def intOperator (symbol : String) (a b : Int) : Option (Except Fault Value) :=
  let expression := s!"{a} {symbol} {b}"
  match symbol with
  | "+" => some (checked (a + b) "Addition" expression)
  | "-" => some (checked (a - b) "Subtraction" expression)
  | "*" => some (checked (a * b) "Multiplication" expression)
  | "/" =>
    if b = 0 then some (.error (.arithmetic s!"Division by zero: {expression}"))
    else some (checked (a.tdiv b) "Division" expression)
  | "%" =>
    if b = 0 || (a = smallestInt && b = -1) then
      some (.error (.arithmetic s!"Modulo division by zero or overflow: {expression}"))
    else some (.ok (int (a.tmod b)))
  | "**" => some (power a b)
  | "&" => some (.ok (ofBits (bits a &&& bits b)))
  | "|" => some (.ok (ofBits (bits a ||| bits b)))
  | "^" => some (.ok (ofBits (bits a ^^^ bits b)))
  | "<<" => some (.ok (shiftLeft a b))
  | ">>" => some (.ok (shiftRight a b))
  | ".." => some (.ok (range a b false))
  | "..=" => some (.ok (range a b true))
  | _ => none

/-- The remainder of a division of floats, with the sign of the dividend. -/
def floatRemainder (x y : Float) : Float :=
  match Decimal.ofDouble x, Decimal.ofDouble y with
  | .finite negative a, .finite _ b =>
    let e := min a.exponent b.exponent
    let left := a.mantissa * 2 ^ (a.exponent - e).toNat
    let right := b.mantissa * 2 ^ (b.exponent - e).toNat
    let rest := (Float.ofNat (left % right)).scaleB e
    if negative then -rest else rest
  | .zero _, .finite _ _ => x
  | .zero _, .infinite _ => x
  | .finite _ _, .infinite _ => x
  | _, _ => 0.0 / 0.0

def floatOperator (symbol : String) (x y : Float) : Option Value :=
  match symbol with
  | "+" => some (float (x + y))
  | "-" => some (float (x - y))
  | "*" => some (float (x * y))
  | "/" => some (float (x / y))
  | "%" => some (float (floatRemainder x y))
  | "**" => some (float (x ^ y))
  | _ => none

/-- The outcome of a comparison operator on two values in the given order. -/
def ofOrdering (symbol : String) (o : Ordering) : Option Bool :=
  match symbol with
  | "==" => some (o == .eq)
  | "!=" => some (o != .eq)
  | "<" => some (o == .lt)
  | "<=" => some (o != .gt)
  | ">" => some (o == .gt)
  | ">=" => some (o != .lt)
  | _ => none

/-- Floats are compared as numbers; not-a-number differs from everything. -/
def compareFloats (symbol : String) (x y : Float) : Option Bool :=
  match symbol with
  | "==" => some (x == y)
  | "!=" => some (x != y)
  | "<" => some (x < y)
  | "<=" => some (x ≤ y)
  | ">" => some (y < x)
  | ">=" => some (y ≤ x)
  | _ => none

def isComparison (symbol : String) : Bool := symbol ∈ ["==", "!=", "<", "<=", ">", ">="]

mutual

/-- Whether two values are equal for the operator `==`. -/
def same : Value → Value → Bool
  | int a, int b => a == b
  | float x, float y => x == y
  | int a, float y => Json.Number.roundInt a == y
  | float x, int b => x == Json.Number.roundInt b
  | bool a, bool b => a == b
  | char a, char b => a == b
  | string s, string t => s == t
  | char c, string s => s.toList.take 2 == [c]
  | string s, char c => s.toList.take 2 == [c]
  | unit, unit => true
  | range a b i, range c d j => a == c && b == d && i == j
  | array as, array bs => sameItems as bs
  | map as, map bs => sameFields as bs
  | _, _ => false

def sameItems : List Value → List Value → Bool
  | [], [] => true
  | a :: as, b :: bs => same a b && sameItems as bs
  | _, _ => false

def sameFields : List (String × Value) → List (String × Value) → Bool
  | [], [] => true
  | (k, a) :: as, (l, b) :: bs => k == l && same a b && sameFields as bs
  | _, _ => false

end

/-- Comparison operators; nothing for values of one type that has no such operator. -/
def comparison (symbol : String) (a b : Value) : Option Bool :=
  match a, b with
  | int x, int y => ofOrdering symbol (compare x y)
  | float x, float y => compareFloats symbol x y
  | int x, float y => compareFloats symbol (Json.Number.roundInt x) y
  | float x, int y => compareFloats symbol x (Json.Number.roundInt y)
  | string s, string t => ofOrdering symbol (compare s t)
  | char c, char d => ofOrdering symbol (compare c d)
  | bool x, bool y => ofOrdering symbol (compare x.toNat y.toNat)
  | char c, string t => ofOrdering symbol (compare c.toString (String.ofList (t.toList.take 2)))
  | string s, char d => ofOrdering symbol (compare (String.ofList (s.toList.take 2)) d.toString)
  | unit, unit => some (symbol == "==")
  | array _, array _ | map _, map _ | range _ _ _, range _ _ _ =>
    if symbol = "==" then some (same a b)
    else if symbol = "!=" then some (!same a b)
    else none
  | _, _ => some (symbol == "!=")

/-- The signature of a call that no function answers. -/
def signature (name : String) (arguments : List Value) : String :=
  s!"{name} (" ++ ", ".intercalate (arguments.map signatureName) ++ ")"

/-- Whether a container holds an item; nothing if the two do not fit. -/
def holds (container item : Value) : Option Bool :=
  match container, item with
  | array items, v => some (items.any (same · v))
  | map fields, string key => some (find? fields key).isSome
  | string s, string t => some (Text.occursIn t.toList s.toList)
  | string s, char c => some (s.toList.contains c)
  | range first last inclusive, int i =>
    some (first ≤ i && (i < last || (inclusive && i == last)))
  | _, _ => none

/-- A binary operator on two values; nothing if it has no meaning for them. -/
def binary (symbol : String) (a b : Value) : Option (Except Fault Value) :=
  if isComparison symbol then (comparison symbol a b).map fun r => .ok (bool r)
  else if symbol = "in" then (holds b a).map fun r => .ok (bool r)
  else match a, b with
    | int x, int y => intOperator symbol x y
    | float x, float y => (floatOperator symbol x y).map .ok
    | int x, float y => (floatOperator symbol (Json.Number.roundInt x) y).map .ok
    | float x, int y => (floatOperator symbol x (Json.Number.roundInt y)).map .ok
    | bool x, bool y =>
      match symbol with
      | "&" => some (.ok (bool (x && y)))
      | "|" => some (.ok (bool (x || y)))
      | "^" => some (.ok (bool (x != y)))
      | _ => none
    | array xs, array ys => if symbol = "+" then some (.ok (array (xs ++ ys))) else none
    | map xs, map ys =>
      if symbol = "+" then some (.ok (map (ys.foldl (fun m kv => insert m kv.1 kv.2) xs)))
      else none
    | string s, string t =>
      if symbol = "+" then some (.ok (string (s ++ t)))
      else if symbol = "-" then
        some (.ok (string (String.ofList (Text.replace t.toList [] s.toList))))
      else none
    | char c, char d => if symbol = "+" then some (.ok (string (String.ofList [c, d]))) else none
    | string s, char c =>
      if symbol = "+" then some (.ok (string (s ++ c.toString)))
      else if symbol = "-" then some (.ok (string (String.ofList (s.toList.filter (· ≠ c)))))
      else none
    | string s, v => if symbol = "+" then some (.ok (string (s ++ v.text))) else none
    | v, string s => if symbol = "+" then some (.ok (string (v.text ++ s))) else none
    | _, _ => none

/-- An operator on one value; nothing if it has no meaning for it. -/
def unary (symbol : String) (a : Value) : Option (Except Fault Value) :=
  match symbol, a with
  | "-", int i => some (checked (-i) "Negation" s!"-{i}")
  | "-", float x => some (.ok (float (-x)))
  | "+", int i => some (.ok (int i))
  | "+", float x => some (.ok (float x))
  | "!", bool b => some (.ok (bool !b))
  | _, _ => none

/-- A compound assignment that is more than its operator; otherwise nothing. -/
def compound (symbol : String) (a b : Value) : Option Value :=
  match symbol, a, b with
  | "+", array xs, array ys => some (array (xs ++ ys))
  | "+", array xs, v => some (array (xs ++ [v]))
  | _, _, _ => none

end Value

end Workflow.Script
