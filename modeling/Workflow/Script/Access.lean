import Workflow.Script.Functions
import Workflow.Script.Limits
import Workflow.Script.Program

/-!
Accesses into values: reading and writing properties and items along a chain, and calling methods
in the middle of it. An access answers with its result and with the value it leaves behind, so a
change deep inside a value is put back into everything around it.
-/
namespace Workflow.Script

/-- One access with its keys and arguments evaluated. -/
inductive Access where
  | property (name : String) (position dot : Position)
  | index (key : Value) (position bracket : Position)
  | method (name : String) (arguments : List Value) (position dot : Position)

/-- What to put at the end of a chain: the operator of a compound assignment, the value on the
right, and the place of the assignment. -/
structure Assignment where
  compound : Option String
  value : Value
  position : Position

namespace Assignment

/-- The value that an assignment puts in place of an old one. -/
def apply (a : Assignment) (limits : Limits) (old : Value) : Except Error Value := do
  let new ← match a.compound with
    | none => pure a.value
    | some symbol =>
      match Value.compound symbol old a.value with
      | some v => pure v
      | none =>
        match Value.binary symbol old a.value with
        | some (.ok v) => pure v
        | some (.error f) => .error (.at f (some a.position))
        | none =>
          let signature := Value.signature symbol [old, a.value]
          .error (.at (.functionNotFound signature) (some a.position))
  limits.checkValue new a.position
  return new

end Assignment

namespace Access

def changing : List String :=
  ["push", "pop", "shift", "insert", "remove", "clear", "sort", "reverse", "append", "trim",
    "replace", "truncate", "set", "mixin"]

def failAt {α : Type} (f : Fault) (p : Position) : Except Error α := .error (.at f (some p))

/-- The item under a key, with the way to put another one in its place; a value that cannot be
changed in place has no such way. -/
def item (target key : Value) (position bracket : Position) :
    Except Error (Value × Option (Value → Value)) :=
  match target, key with
  | .array items, .int i =>
    match Function.wrapIndex? items.length i with
    | some n => .ok (items[n]?.getD .unit, some fun v => .array (items.set n v))
    | none => failAt (.arrayBounds items.length i) position
  | .array _, k => failAt (.mismatch k.typeName "i64") position
  | .map fields, .string key =>
    match Value.find? fields key with
    | some v => .ok (v, some fun v => .map (Value.insert fields key v))
    | none => .ok (.unit, none)
  | .map _, k => failAt (.mismatch k.typeName "string") position
  | .string s, .int i =>
    match Function.wrapIndex? s.length i with
    | some n => .ok (.char (s.toList[n]?.getD ' '), none)
    | none => failAt (.stringBounds s.length i) position
  | .string _, k => failAt (.mismatch k.typeName "i64") position
  | .int value, .int i =>
    match Function.wrapIndex? 64 i with
    | some n => .ok (.bool ((Value.bits value).getLsbD n), none)
    | none => failAt (.bitBounds i) position
  | .int _, k => failAt (.mismatch k.typeName "i64") position
  | t, k => failAt (.notIndexable s!"{t.typeName} [{k.typeName}]") bracket

def assignItem (limits : Limits) (target key : Value) (position bracket : Position)
    (a : Assignment) : Except Error Value := do
  match target, key with
  | .map fields, .string key =>
    let new ← a.apply limits ((Value.find? fields key).getD .unit)
    return .map (Value.insert fields key new)
  | .string s, .int i =>
    let (old, _) ← item target key position bracket
    match Function.wrapIndex? s.length i, ← a.apply limits old with
    | some n, .char c => return .string (String.ofList (s.toList.set n c))
    | _, v => failAt (.mismatch v.typeName "char") a.position
  | .int value, .int i =>
    let (old, _) ← item target key position bracket
    match Function.wrapIndex? 64 i, ← a.apply limits old with
    | some n, .bool b =>
      let mask := BitVec.twoPow 64 n
      let bits := Value.bits value
      return .ofBits (if b then bits ||| mask else bits &&& ~~~mask)
    | _, v => failAt (.mismatch v.typeName "bool") a.position
  | t, k =>
    match item t k position bracket with
    | .ok (old, some put) => return put (← a.apply limits old)
    | .ok (_, none) => failAt (.notIndexable s!"{t.typeName} [{k.typeName}]") bracket
    | .error (.at (.notIndexable description) p) =>
      .error (.at (.notIndexable s!"{description} = {a.value.typeName}") p)
    | .error e => .error e

def readProperty (target : Value) (name : String) (p : Position) : Except Error Value :=
  match target with
  | .map fields => .ok ((Value.find? fields name).getD .unit)
  | v =>
    match Function.property name v with
    | some r => .ok r
    | none => failAt (.noReader name v.typeName) p

def assignProperty (limits : Limits) (target : Value) (name : String) (p : Position)
    (a : Assignment) : Except Error Value := do
  match target with
  | .map fields =>
    let new ← a.apply limits ((Value.find? fields name).getD .unit)
    let changed := Value.map (Value.insert fields name new)
    limits.checkValue changed a.position
    return changed
  | v =>
    if a.compound.isSome then
      let _ ← readProperty v name p
    failAt (.noWriter name v.typeName a.value.typeName) p

def callMethod (now : Int) (isConstant : Bool) (target : Value) (name : String)
    (arguments : List Value) (p : Position) : Except Error Answer :=
  match Function.call now name (target :: arguments) with
  | none => failAt (.functionNotFound (Value.signature name (target :: arguments))) p
  | some (.error f) => failAt f p
  | some (.ok answer) =>
    if isConstant && name ∈ changing then failAt (.constantMethod name) p
    else .ok answer

/-- What is left of a value after an access. -/
structure Step where
  result : Except Error Value
  target : Value

/-- Follows a chain of accesses into a value and assigns at its end if there is something to
assign. -/
def follow (now : Int) (limits : Limits) (a : Option Assignment) :
    Bool → Value → List Access → Step
  | _, target, [] => ⟨.ok target, target⟩
  | isConstant, target, [last] =>
    match last, a with
    | .property name p _, some a =>
      match assignProperty limits target name p a with
      | .ok t => ⟨.ok .unit, t⟩
      | .error e => ⟨.error e, target⟩
    | .property name p _, none => ⟨readProperty target name p, target⟩
    | .index key p bracket, some a =>
      match assignItem limits target key p bracket a with
      | .ok t => ⟨.ok .unit, t⟩
      | .error e => ⟨.error e, target⟩
    | .index key p bracket, none => ⟨(item target key p bracket).map (·.1), target⟩
    | .method name arguments p _, _ =>
      match callMethod now isConstant target name arguments p with
      | .error e => ⟨.error e, target⟩
      | .ok answer =>
        let sizes := do
          limits.checkValue answer.receiver p
          limits.checkValue answer.result p
          return answer.result
        ⟨sizes, answer.receiver⟩
  | isConstant, target, first :: next :: rest =>
    match first with
    | .property name p _ =>
      match readProperty target name p with
      | .error e => ⟨.error e, target⟩
      | .ok inner =>
        let step := follow now limits a false inner (next :: rest)
        match target with
        | .map fields =>
          if (Value.find? fields name).isSome then
            ⟨step.result, .map (Value.insert fields name step.target)⟩
          else ⟨step.result, target⟩
        | _ => ⟨step.result, target⟩
    | .index key p bracket =>
      match item target key p bracket with
      | .error e => ⟨.error e, target⟩
      | .ok (inner, put) =>
        let step := follow now limits a false inner (next :: rest)
        ⟨step.result, match put with
          | some put => put step.target
          | none => target⟩
    | .method name arguments p _ =>
      match callMethod now isConstant target name arguments p with
      | .error e => ⟨.error e, target⟩
      | .ok answer =>
        match limits.checkValue answer.receiver p with
        | .error e => ⟨.error e, answer.receiver⟩
        | .ok () =>
          ⟨(follow now limits a false answer.result (next :: rest)).result, answer.receiver⟩

end Access

end Workflow.Script
