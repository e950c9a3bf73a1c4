import Workflow.Script.Value

/-!
What can go wrong with a script: faults of its text, which are found before it runs, and faults of
its run. A fault gets a place, and a fault of a run in a function also the calls around it.
-/
namespace Workflow.Script

/-- A place in a script, counted in characters; a line starts with position 1. -/
structure Position where
  line : Nat
  position : Nat
  deriving Repr, DecidableEq, Inhabited

def Position.text (p : Position) : String := s!"line {p.line}, position {p.position}"

/-! ## Faults of the text -/

inductive SyntaxFault where
  | unexpected (text : String)
  | badEscape (text : String)
  | badNumber (text : String)
  | badChar (text : String)
  | badName (text : String)
  | openString
  | longString (limit : Nat)
  /-- A symbol or word that may not be used, with advice. -/
  | advice (text : String)
  | incomplete
  | unknownOperator (text : String)
  | missing (token : String) (purpose : String)
  | duplicateProperty (name : String)
  | duplicateVariable (name : String)
  | mismatch (expected found : String)
  | expressionExpected (kind : String)
  | propertyExpected
  | variableExpected
  | nestedFunction
  | duplicateFunction (name : String) (parameters : Nat)
  | functionName
  | functionParameters (name : String)
  | functionBody (name : String)
  | duplicateParameter (function parameter : String)
  | assignToConstant (name : String)
  | badTarget
  | tooDeep
  | longLiteral (what : String) (limit : Nat)
  | reservedWord (word : String)
  | reservedSymbol (symbol : String)
  | strayBreak
  | badIndex (text : String)
  deriving Repr

def SyntaxFault.message : SyntaxFault → String
  | unexpected s => s!"Unexpected '{s}'"
  | badEscape s => s!"Invalid escape sequence: '{s}'"
  | badNumber s => s!"Invalid number: '{s}'"
  | badChar s => s!"Invalid character: '{s}'"
  | badName s => s!"Variable name is not proper: '{s}'"
  | openString => "Open string is not terminated"
  | longString limit => s!"Length of string exceeds the maximum limit ({limit})"
  | advice s => s
  | incomplete => "Script is incomplete"
  | unknownOperator s => s!"Unknown operator: '{s}'"
  | missing token purpose => s!"Expecting '{token}' {purpose}"
  | duplicateProperty s => s!"Duplicated property for object map literal: {s}"
  | duplicateVariable s => s!"Duplicated variable name: {s}"
  | mismatch expected found => s!"Expecting {expected}, not {found}"
  | expressionExpected kind => s!"Expecting {kind} expression"
  | propertyExpected => "Expecting name of a property"
  | variableExpected => "Expecting name of a variable"
  | nestedFunction =>
    "Function definitions must be at global level and cannot be inside a block or another function"
  | duplicateFunction name 0 => s!"Function {name} with no parameters already exists"
  | duplicateFunction name 1 => s!"Function {name} with 1 parameter already exists"
  | duplicateFunction name n => s!"Function {name} with {n} parameters already exists"
  | functionName => "Expecting function name in function declaration"
  | functionParameters name => s!"Expecting parameters for function {name}"
  | functionBody name => s!"Expecting body statement block for function {name}"
  | duplicateParameter function parameter =>
    s!"Duplicated parameter {parameter} for function {function}"
  | assignToConstant "" => "Cannot assign to a constant value"
  | assignToConstant name => s!"Cannot assign to constant: {name}"
  | badTarget => "Expression cannot be assigned to"
  | tooDeep => "Expression exceeds maximum complexity"
  | longLiteral what limit => s!"{what} exceeds the maximum limit ({limit})"
  | reservedWord word => s!"'{word}' is a reserved keyword"
  | reservedSymbol symbol => s!"'{symbol}' is a reserved symbol"
  | strayBreak => "Break statement should only be used inside a loop"
  | badIndex text => text

structure SyntaxError where
  fault : SyntaxFault
  position : Position
  deriving Repr

def SyntaxError.message (e : SyntaxError) : String :=
  s!"{e.fault.message} ({e.position.text})"

/-! ## Faults of a run -/

inductive Fault where
  | variableNotFound (name : String)
  | functionNotFound (signature : String)
  | moduleNotFound (name : String)
  | arrayBounds (length : Nat) (index : Int)
  | stringBounds (length : Nat) (index : Int)
  | bitBounds (index : Int)
  | notIterable
  | notIndexable (description : String)
  | noReader (property typeName : String)
  | noWriter (property typeName valueType : String)
  | mismatch (found expected : String)
  /-- A calculation without a result. -/
  | arithmetic (description : String)
  /-- A range that would never move on. -/
  | zeroStep
  | tooLarge (what : String)
  | tooManyOperations
  | stackOverflow
  | thrown (value : Value)
  | constantAssignment (name : String)
  | constantMethod (name : String)
  deriving Repr

def boundsText (what unit : String) (length : Nat) (index : Int) : String :=
  let holder := if what = "Array" then "array" else "string"
  match length with
  | 0 => s!"{what} index {index} out of bounds: {holder} is empty"
  | 1 => s!"{what} index {index} out of bounds: only 1 {unit} in {holder}"
  | n => s!"{what} index {index} out of bounds: only {n} {unit}s in {holder}"

def Fault.message : Fault → String
  | variableNotFound name => s!"Variable not found: {name}"
  | functionNotFound signature => s!"Function not found: {signature}"
  | moduleNotFound name => s!"Module not found: {name}"
  | arrayBounds length index => boundsText "Array" "element" length index
  | stringBounds length index => boundsText "String" "character" length index
  | bitBounds index => s!"Bit-field index {index} out of bounds: only 64 bits in bit-field"
  | notIterable => "For loop expects iterable type"
  | notIndexable description => s!"Indexer unavailable: {description}"
  | noReader property typeName =>
    s!"Unknown property '{property}' - a getter is not registered for type '{typeName}'"
  | noWriter property typeName valueType =>
    s!"No writable property '{property}' - a setter is not registered for type '{typeName}'"
      ++ s!" to handle '{valueType}'"
  | mismatch found expected => s!"Data type incorrect: {found} (expecting {expected})"
  | arithmetic description => description
  | zeroStep => "step value cannot be zero\nin call to function 'range'"
  | tooLarge what => s!"{what} too large"
  | tooManyOperations => "Too many operations"
  | stackOverflow => "Stack overflow"
  | thrown .unit | thrown (.string "") => "Runtime error"
  | thrown value => s!"Runtime error: {value.text}"
  | constantAssignment name => s!"Cannot modify constant: {name}"
  | constantMethod name => s!"Non-pure method '{name}' cannot be called on constant"

def Fault.kind : Fault → String
  | variableNotFound _ => "ErrorVariableNotFound"
  | functionNotFound _ => "ErrorFunctionNotFound"
  | moduleNotFound _ => "ErrorModuleNotFound"
  | arrayBounds _ _ => "ErrorArrayBounds"
  | stringBounds _ _ => "ErrorStringBounds"
  | bitBounds _ => "ErrorBitFieldBounds"
  | notIterable => "ErrorFor"
  | notIndexable _ => "ErrorIndexingType"
  | noReader _ _ => "ErrorDotExpr"
  | noWriter _ _ _ => "ErrorDotExpr"
  | mismatch _ _ => "ErrorMismatchDataType"
  | arithmetic _ => "ErrorArithmetic"
  | zeroStep => "ErrorInFunctionCall"
  | tooLarge _ => "ErrorDataTooLarge"
  | tooManyOperations => "ErrorTooManyOperations"
  | stackOverflow => "ErrorStackOverflow"
  | thrown _ => "ErrorRuntime"
  | constantAssignment _ => "ErrorAssignmentToConstant"
  | constantMethod _ => "ErrorNonPureMethodCallOnConstant"

/-- The further entries of the map by which a handler sees a fault. -/
def Fault.details : Fault → List (String × Value)
  | variableNotFound name => [("variable", .string name)]
  | functionNotFound signature => [("function", .string signature)]
  | moduleNotFound name => [("module", .string name)]
  | arrayBounds length index | stringBounds length index =>
    [("length", .int length), ("index", .int index)]
  | bitBounds index => [("length", .int 64), ("index", .int index)]
  | notIndexable description => [("type", .string description)]
  | f@(noReader _ _) | f@(noWriter _ _ _) => [("property", .string f.message)]
  | mismatch found expected => [("requested", .string expected), ("actual", .string found)]
  | tooLarge what => [("type", .string what)]
  | constantAssignment name => [("variable", .string name)]
  | constantMethod name => [("function", .string name)]
  | zeroStep => [("function", .string "range"), ("source", .string "")]
  | notIterable | arithmetic _ | tooManyOperations | stackOverflow | thrown _ => []

/-- Limits that a handler cannot catch and that end all calls at once. -/
def Fault.isLimit : Fault → Bool
  | tooLarge _ | tooManyOperations | stackOverflow => true
  | _ => false

/-- A fault of a run with its place, and the calls that it passed through. -/
inductive Error where
  | at (fault : Fault) (position : Option Position)
  | inCall (function : String) (inner : Error) (position : Option Position)
  deriving Repr

namespace Error

def position : Error → Option Position
  | .at _ p => p
  | inCall _ _ p => p

def placeText : Option Position → String
  | none => ""
  | some p => s!" ({p.text})"

def message : Error → String
  | .at fault p => fault.message ++ placeText p
  | inCall function inner p =>
    s!"{inner.message}\nin call to function '{function}'" ++ placeText p

/-- The text without the outermost place. -/
def bareMessage : Error → String
  | .at fault _ => fault.message
  | inCall function inner _ => s!"{inner.message}\nin call to function '{function}'"

/-- The fault itself, without the calls that it passed through. -/
def fault : Error → Fault
  | .at fault _ => fault
  | inCall _ inner _ => inner.fault

def withPlace (p : Option Position) : Error → Error
  | .at fault _ => .at fault p
  | inCall function inner _ => inCall function inner p

/-- The value by which a handler sees an error: what was thrown, or a map about the fault. -/
def caught (e : Error) : Value :=
  match e.fault with
  | .thrown value => value
  | fault =>
    let place := match e.position with
      | none => []
      | some p => [("line", Value.int p.line), ("position", Value.int p.position)]
    let outer := match e with
      | .at _ _ => ("error", Value.string fault.kind) :: fault.details
      | inCall function _ _ =>
        [("error", .string "ErrorInFunctionCall"), ("function", .string function),
          ("source", .string "")]
    .map ((("message", Value.string e.bareMessage) :: place ++ outer).foldl
      (fun m kv => Value.insert m kv.1 kv.2) [])

end Error

end Workflow.Script
