import Workflow.Script.Access
import Workflow.Script.Machine

/-!
Evaluation of scripts. The value of a block is the value of its last statement, and what a block
declares ends with it. Functions see their parameters only. The fuel bounds how deep calls nest
and how often loops repeat; a run spends its budget of work before its fuel.
-/
namespace Workflow.Script

namespace Eval

def truth (v : Value) (p : Position) : Eval Bool :=
  match v with
  | .bool b => return b
  | v => fail (.mismatch v.typeName "bool") p

def operate (s : Setting) (symbol : String) (arguments : List Value) (p : Position) :
    Eval Value := do
  let answer := match arguments with
    | [a] => Value.unary symbol a
    | [a, b] => Value.binary symbol a b
    | _ => none
  match answer with
  | some (.ok v) => sized s p v
  | some (.error f) => fail f p
  | none =>
    let (name, arguments) := match symbol, arguments with
      | "in", [a, b] => ("contains", [b, a])
      | _, _ => (symbol, arguments)
    fail (.functionNotFound (Value.signature name arguments)) p

/-- An operator that is carried out by a function of the library counts as a call of it. -/
def isCounted (symbol : String) (operands : List Value) : Bool :=
  symbol = "in" || (operands.length = 1 && symbol ≠ "!")

/-- Where what is left of a chain is counted. -/
def chainPlace (link : Link) : List Link → Position
  | following :: _ => following.access
  | [] => match link with
    | .property _ p _ | .method _ _ p _ => p
    | .index key _ => key.position

def countMethods (s : Setting) : List Access → Eval Unit
  | [] => return
  | .method _ _ p _ :: rest => do
    count s p
    countMethods s rest
  | _ :: rest => countMethods s rest

/-- An error as it leaves the call of a function. -/
def leaving (function : String) (p : Position) (e : Error) : Error :=
  if e.fault.isLimit then e.withPlace (some p) else .inCall function e (some p)

/-- The statements of a block that can be noticed: an idle one only counts at the end. -/
def noticed : List Stmt → List Stmt
  | [] => []
  | [s] => [s]
  | s :: rest => if s.isIdle then noticed rest else s :: noticed rest

def effective (body : List Stmt) : List Stmt := body.filter (!·.isIdle)

/-- A handler may throw the fault again that it handles by throwing nothing. -/
def rethrown (caught : Error) : Signal → Signal
  | .failed (.at (.thrown .unit) p) => .failed (caught.withPlace p)
  | signal => signal

mutual

def expression (s : Setting) (level : Nat) : Nat → Expr → Eval Value
  | 0, _ => throw .timeUp
  | fuel + 1, e => do
    count s e.position
    match e with
    | .literal v _ => return v
    | .name name p => return (← find name p).value
    | .template parts p => do
      let text ← templateText s level fuel parts ""
      sized s p (.string text)
    | .array items p => do sized s p (.array (← expressions s level fuel items))
    | .map entries p => do
      let values ← expressions s level fuel (entries.map (·.2))
      let fields := ((entries.map (·.1)).zip values).foldl
        (fun m kv => Value.insert m kv.1 kv.2) []
      sized s p (.map fields)
    | .call function arguments p => call s level fuel function arguments p
    | .operator symbol operands p => do
      let values ← expressions s level fuel operands
      if isCounted symbol values then count s p
      operate s symbol values p
    | .both l r => do
      if ← truth (← expression s level fuel l) l.position then
        return .bool (← truth (← expression s level fuel r) r.position)
      else return .bool false
    | .either l r => do
      if ← truth (← expression s level fuel l) l.position then return .bool true
      else return .bool (← truth (← expression s level fuel r) r.position)
    | .orElse l r => do
      match ← expression s level fuel l with
      | .unit => expression s level fuel r
      | v => return v
    | .chain root links => chain s level fuel none root links
    | .statement inner => statement s level fuel inner

def expressions (s : Setting) (level : Nat) : Nat → List Expr → Eval (List Value)
  | 0, _ => throw .timeUp
  | _, [] => return []
  | fuel + 1, e :: rest => do
    let v ← expression s level fuel e
    return v :: (← expressions s level fuel rest)

def templateText (s : Setting) (level : Nat) : Nat → List Expr → String → Eval String
  | 0, _, _ => throw .timeUp
  | _, [], text => return text
  | fuel + 1, e :: rest, text => do
    let v ← expression s level fuel e
    let text := text ++ v.text
    let _ ← sized s e.position (.string text)
    templateText s level fuel rest text

/-- The accesses of a chain with their keys and arguments evaluated. -/
def accesses (s : Setting) (level : Nat) : Nat → List Link → Eval (List Access)
  | 0, _ => throw .timeUp
  | _, [] => return []
  | fuel + 1, link :: rest => do
    count s (chainPlace link rest)
    let access ← match link with
      | .property name p dot => pure (Access.property name p dot)
      | .index key bracket => do
        pure (Access.index (← expression s level fuel key) key.start bracket)
      | .method name arguments p dot => do
        pure (Access.method name (← expressions s level fuel arguments) p dot)
    return access :: (← accesses s level fuel rest)

/-- Follows a chain of accesses. A chain that starts at a variable can change it. -/
def chain (s : Setting) (level : Nat) :
    Nat → Option Assignment → Expr → List Link → Eval Value
  | 0, _, _, _ => throw .timeUp
  | fuel + 1, a, root, links => do
    let accesses ← match links with
      | [.property name p dot] => pure [Access.property name p dot]
      | [.method name [] p dot] => pure [Access.method name [] p dot]
      | links => accesses s level fuel links
    match root with
    | .name name p =>
      count s p
      let entry ← find name p
      if entry.isConstant && a.isSome then fail (.constantAssignment name) p
      countMethods s accesses
      let step := Access.follow s.now s.limits a entry.isConstant entry.value accesses
      if !entry.isConstant then assign name step.target
      spend s (match step.target with
        | .array items => items.length / 16
        | _ => 0)
      lift step.result
    | root =>
      let value ← expression s level fuel root
      countMethods s accesses
      lift (Access.follow s.now s.limits a false value accesses).result

/-- A call of a function. A variable as first argument is read after the others, and a function
of the library can change it. -/
def call (s : Setting) (level : Nat) : Nat → String → List Expr → Position → Eval Value
  | 0, _, _, _ => throw .timeUp
  | fuel + 1, function, arguments, p => do
    let (changed, values) ← match arguments with
      | .name name q :: rest => do
        count s q
        let values ← expressions s level fuel rest
        let entry ← find name q
        pure (if entry.isConstant then none else some name, entry.value :: values)
      | arguments => do pure (none, ← expressions s level fuel arguments)
    match s.functions.find? fun f => f.name = function && f.parameters.length = values.length with
    | some f => callFunction s (level + 1) fuel f values p
    | none =>
      count s p
      match Function.call s.now function values with
      | some (.ok answer) =>
        match changed with
        | some name => assign name answer.receiver
        | none => pure ()
        sized s p answer.result
      | some (.error f) => fail f p
      | none => fail (.functionNotFound (Value.signature function values)) p

def callFunction (s : Setting) (level : Nat) :
    Nat → Function → List Value → Position → Eval Value
  | 0, _, _, _ => throw .timeUp
  | fuel + 1, f, values, p => do
    count s p
    if exceeds level s.limits.callLevels then fail .stackOverflow p
    let scope := ((f.parameters.zip values).map fun kv => (⟨kv.1, kv.2, false⟩ : Entry)).reverse
    try isolated scope (statements s level fuel (noticed f.body) .unit)
    catch signal => match signal with
      | .returned v => return v
      | .failed e => throw (.failed (leaving f.name p e))
      | signal => throw signal

/-- Statements one after the other; the value is that of the last one. -/
def statements (s : Setting) (level : Nat) : Nat → List Stmt → Value → Eval Value
  | 0, _, _ => throw .timeUp
  | _, [], value => return value
  | fuel + 1, stmt :: rest, _ => do
    let value ← statement s level fuel stmt
    statements s level fuel rest value

def block (s : Setting) (level : Nat) : Nat → List Stmt → Eval Value
  | 0, _ => throw .timeUp
  | fuel + 1, body => inScope (statements s level fuel (noticed body) .unit)

def statement (s : Setting) (level : Nat) : Nat → Stmt → Eval Value
  | 0, _ => throw .timeUp
  | fuel + 1, stmt => do
    match stmt with
    | .expression (.call function arguments p) =>
      count s p
      call s level fuel function arguments p
    | .expression e =>
      count s e.position
      expression s level fuel e
    | .block body p =>
      count s p
      block s level fuel body
    | .declare name isConstant value p =>
      count s p
      let value ← match value with
        | some e => expression s level fuel e
        | none => do
          count s p
          pure .unit
      declare name value isConstant
      return .unit
    | .assign target compound value p =>
      count s p
      let value ← expression s level fuel value
      match target with
      | .name name q =>
        let entry ← find name q
        count s q
        if entry.isConstant then fail (.constantAssignment name) q
        let new ← lift (Assignment.apply ⟨compound, value, p⟩ s.limits entry.value)
        assign name new
      | .chain root links =>
        let _ ← chain s level fuel (some ⟨compound, value, p⟩) root links
      | _ => pure ()
      return .unit
    | .branch condition body otherwise p =>
      count s p
      if ← truth (← expression s level fuel condition) condition.position then
        block s level fuel body
      else match otherwise with
        | some (.block body _) => block s level fuel body
        | some stmt => statement s level fuel stmt
        | none => return .unit
    | .whileLoop condition body p =>
      count s p
      whileLoop s level fuel condition (effective body)
    | .loop body p brace =>
      count s p
      match effective body with
      | [] => idleLoop s brace fuel
      | body => loop s level fuel body
    | .doLoop body wanted condition p =>
      count s p
      doLoop s level fuel (effective body) wanted condition
    | .forLoop item counter source body p brace =>
      count s p
      let value ← expression s level fuel source
      match Source.ofValue value with
      | none => fail .notIterable source.start
      | some items =>
        inScope (forLoop s level fuel item counter (effective body) brace items 0)
    | .leave value p =>
      count s p
      let value ← match value with
        | some e => expression s level fuel e
        | none => pure .unit
      throw (.left value)
    | .again p =>
      count s p
      throw .again
    | .giveBack value p =>
      count s p
      let value ← match value with
        | some e => expression s level fuel e
        | none => pure .unit
      throw (.returned value)
    | .throwValue value p =>
      count s p
      let value ← match value with
        | some e => expression s level fuel e
        | none => pure .unit
      fail (.thrown value) p
    | .attempt body caught handler p =>
      count s p
      try block s level fuel body
      catch signal => match signal with
        | .failed e =>
          if e.fault.isLimit then throw signal
          else
            let guarded := inScope do
              match caught with
              | some name => declare name e.caught false
              | none => pure ()
              statements s level fuel (noticed handler) .unit
            try
              let _ ← guarded
              return .unit
            catch later => throw (rethrown e later)
        | signal => throw signal
    | .load path p =>
      count s p
      match ← expression s level fuel path with
      | .string name => fail (.moduleNotFound name) path.start
      | v => fail (.mismatch v.typeName "string") path.position

/-- The body of a loop; the answer is the value that the loop is left with. -/
def loopBody (s : Setting) (level : Nat) : Nat → List Stmt → Eval (Option Value)
  | 0, _ => throw .timeUp
  | fuel + 1, body => do
    try
      let _ ← inScope (statements s level fuel body .unit)
      return none
    catch signal => match signal with
      | .again => return none
      | .left v => return some v
      | signal => throw signal

def whileLoop (s : Setting) (level : Nat) : Nat → Expr → List Stmt → Eval Value
  | 0, _, _ => throw .timeUp
  | fuel + 1, condition, body => do
    if ← truth (← expression s level fuel condition) condition.position then
      match ← loopBody s level fuel body with
      | some v => return v
      | none => whileLoop s level fuel condition body
    else return .unit

def loop (s : Setting) (level : Nat) : Nat → List Stmt → Eval Value
  | 0, _ => throw .timeUp
  | fuel + 1, body => do
    match ← loopBody s level fuel body with
    | some v => return v
    | none => loop s level fuel body

/-- A loop without an end. -/
def idleLoop (s : Setting) (brace : Position) : Nat → Eval Value
  | 0 => throw .timeUp
  | fuel + 1 => do
    count s brace
    idleLoop s brace fuel

def doLoop (s : Setting) (level : Nat) : Nat → List Stmt → Bool → Expr → Eval Value
  | 0, _, _, _ => throw .timeUp
  | fuel + 1, body, wanted, condition => do
    match ← loopBody s level fuel body with
    | some v => return v
    | none =>
      if (← truth (← expression s level fuel condition) condition.position) == wanted then
        doLoop s level fuel body wanted condition
      else return .unit

def forLoop (s : Setting) (level : Nat) : Nat → String → Option String → List Stmt →
    Position → Source → Int → Eval Value
  | 0, _, _, _, _, _, _ => throw .timeUp
  | fuel + 1, item, counter, body, brace, source, n => do
    match source.next? with
    | none => return .unit
    | some (v, rest) =>
      let depth := (← get).scope.length
      match counter with
      | some name => declare name (.int n) false
      | none => pure ()
      declare item v false
      count s brace
      let outcome ← loopBody s level fuel body
      dropTo depth
      match outcome with
      | some v => return v
      | none => forLoop s level fuel item counter body brace rest (n + 1)

end

end Eval

/-- Runs the statements of a program from its variables; the answer is why it stopped early, if it
did, and the variables it leaves. -/
def Program.run (p : Program) (limits : Limits) (now : Int) (budget : Nat)
    (scope : List Entry) : Option Signal × List Entry :=
  let setting : Setting := ⟨p.functions, limits, now, budget⟩
  let fuel := 16 * budget + 4096
  let (outcome, machine) :=
    (Eval.statements setting 0 fuel (Eval.noticed p.body) .unit).run.run ⟨scope, 0, 0⟩
  match outcome with
  | .ok _ => (none, machine.scope)
  | .error (.returned _) => (none, machine.scope)
  | .error signal => (some signal, machine.scope)

end Workflow.Script
