import Workflow.Script.Fault

/-!
The structure of scripts: expressions, statements and functions, each with the place that its
faults are reported at.
-/
namespace Workflow.Script

mutual

inductive Expr where
  | literal (value : Value) (position : Position)
  | template (parts : List Expr) (position : Position)
  | array (items : List Expr) (position : Position)
  | map (entries : List (String × Expr)) (position : Position)
  | name (text : String) (position : Position)
  | call (function : String) (arguments : List Expr) (position : Position)
  | operator (symbol : String) (operands : List Expr) (position : Position)
  | both (left right : Expr)
  | either (left right : Expr)
  /-- The left value unless it is the unit value. -/
  | orElse (left right : Expr)
  /-- A value and a chain of accesses into it; at least one. -/
  | chain (root : Expr) (links : List Link)
  | statement (inner : Stmt)

inductive Link where
  | property (name : String) (position dot : Position)
  | index (key : Expr) (bracket : Position)
  | method (name : String) (arguments : List Expr) (position dot : Position)

inductive Stmt where
  | expression (value : Expr)
  | block (body : List Stmt) (position : Position)
  | declare (name : String) (isConstant : Bool) (value : Option Expr) (position : Position)
  /-- An assignment, with the operator of a compound one. -/
  | assign (target : Expr) (compound : Option String) (value : Expr) (position : Position)
  | branch (condition : Expr) (body : List Stmt) (otherwise : Option Stmt) (position : Position)
  | whileLoop (condition : Expr) (body : List Stmt) (position : Position)
  /-- A loop without condition; `brace` is the place of its body. -/
  | loop (body : List Stmt) (position brace : Position)
  /-- A loop that runs its body before it looks at the condition and goes on as long as the
  condition is `wanted`. -/
  | doLoop (body : List Stmt) (wanted : Bool) (condition : Expr) (position : Position)
  /-- A loop over the items of something; `brace` is the place of its body. -/
  | forLoop (item : String) (counter : Option String) (source : Expr) (body : List Stmt)
      (position brace : Position)
  | leave (value : Option Expr) (position : Position)
  | again (position : Position)
  | giveBack (value : Option Expr) (position : Position)
  | throwValue (value : Option Expr) (position : Position)
  | attempt (body : List Stmt) (caught : Option String) (handler : List Stmt)
      (position : Position)
  | load (path : Expr) (position : Position)

end

instance : Inhabited Expr := ⟨.literal .unit ⟨0, 0⟩⟩

instance : Inhabited Stmt := ⟨.block [] ⟨0, 0⟩⟩

structure Function where
  name : String
  parameters : List String
  body : List Stmt

structure Program where
  functions : List Function
  body : List Stmt

namespace Link

/-- The place of the dot or of the opening bracket. -/
def access : Link → Position
  | property _ _ dot => dot
  | index _ bracket => bracket
  | method _ _ _ dot => dot

end Link

namespace Expr

mutual

def start : Expr → Position
  | literal _ p | template _ p | array _ p | map _ p | name _ p | call _ _ p
  | operator _ _ p => p
  | both l _ | either l _ | orElse l _ => l.start
  | chain root _ => root.start
  | statement s => startOfStatement s

def startOfStatement : Stmt → Position
  | .expression e => e.start
  | .block _ p | .declare _ _ _ p | .assign _ _ _ p | .branch _ _ _ p | .whileLoop _ _ p
  | .loop _ p _ | .doLoop _ _ _ p | .forLoop _ _ _ _ p _ | .leave _ p | .again p
  | .giveBack _ p | .throwValue _ p | .attempt _ _ _ p | .load _ p => p

end

/-- The place that a fault of an expression is reported at. -/
def position : Expr → Position
  | chain root links => (links.head?.map Link.access).getD root.start
  | e => e.start

mutual

/-- An expression that is known from its text: a literal, or a container of such expressions. -/
def isFixed : Expr → Bool
  | literal _ _ => true
  | template parts _ => areFixed parts
  | array items _ => areFixed items
  | map entries _ => entriesFixed entries
  | _ => false

def areFixed : List Expr → Bool
  | [] => true
  | e :: rest => isFixed e && areFixed rest

def entriesFixed : List (String × Expr) → Bool
  | [] => true
  | (_, e) :: rest => isFixed e && entriesFixed rest

end

mutual

/-- An expression that can neither fail nor have an effect, undefined variables aside. -/
def isIdle : Expr → Bool
  | literal _ _ | name _ _ => true
  | template parts _ => areIdle parts
  | array items _ => areIdle items
  | map entries _ => entriesIdle entries
  | both l r | either l r | orElse l r => isIdle l && isIdle r
  | call _ _ _ | operator _ _ _ | chain _ _ | statement _ => false

def areIdle : List Expr → Bool
  | [] => true
  | e :: rest => isIdle e && areIdle rest

def entriesIdle : List (String × Expr) → Bool
  | [] => true
  | (_, e) :: rest => isIdle e && entriesIdle rest

end

end Expr

namespace Stmt

/-- Statements that end with their own closing brace. -/
def closesItself : Stmt → Bool
  | block _ _ | branch _ _ _ _ | whileLoop _ _ _ | loop _ _ _ | forLoop _ _ _ _ _ _
  | attempt _ _ _ _ => true
  | _ => false

/-- A statement that is only an idle expression. -/
def isIdle : Stmt → Bool
  | expression e => e.isIdle
  | _ => false

end Stmt

end Workflow.Script
