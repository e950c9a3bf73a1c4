import Workflow.Llm.Provider

/-!
The parameters of a command, and what is wrong with arguments that do not fit them. A flag stands
alone, an option is followed by a value, and a positional parameter is nothing but a value.
-/
namespace Workflow.CommandLine

inductive Kind where
  | text
  /-- A path is not empty. -/
  | path
  | provider
  deriving Repr, DecidableEq

inductive Form where
  | flag (letter : Option Char)
  /-- An option, with a name for its value. -/
  | option (value : String) (letter : Option Char)
  | positional (value : String)
  deriving Repr, DecidableEq

structure Parameter where
  name : String
  form : Form
  kind : Kind
  about : String
  /-- The variable of the environment that stands for it when it is not given. -/
  environment : Option String := none
  /-- The value that it has when nothing gives it one. -/
  fallback : Option String := none
  deriving Repr, DecidableEq

namespace Parameter

def isPositional (p : Parameter) : Bool :=
  match p.form with
  | .positional _ => true
  | .flag _ | .option _ _ => false

def letter? (p : Parameter) : Option Char :=
  match p.form with
  | .flag letter | .option _ letter => letter
  | .positional _ => none

/-- A parameter as messages show it. -/
def text (p : Parameter) : String :=
  match p.form with
  | .flag _ => s!"--{p.name}"
  | .option value _ => s!"--{p.name} <{value}>"
  | .positional value => s!"<{value}>"

end Parameter

inductive Fault where
  | unexpected (argument : String)
  | unknownCommand (name : String)
  | noCommand
  | missing (parameters : List Parameter)
  | valueMissing (parameter : Parameter)
  | valueInvalid (parameter : Parameter) (value reason : String)
  | valueUnwanted (parameter : Parameter) (value : String)
  | repeated (parameter : Parameter)
  | conflict (parameter other : Parameter)
  deriving Repr, DecidableEq

def program : String := "nodeflow"

def Fault.message : Fault → String
  | unexpected argument => s!"unexpected argument '{argument}' found"
  | unknownCommand name => s!"unrecognized subcommand '{name}'"
  | noCommand => s!"'{program}' requires a subcommand but one was not provided"
  | missing parameters =>
    "\n  ".intercalate
      ("the following required arguments were not provided:" :: parameters.map Parameter.text)
  | valueMissing p => s!"a value is required for '{p.text}' but none was supplied"
  | valueInvalid p value reason => s!"invalid value '{value}' for '{p.text}': {reason}"
  | valueUnwanted p value =>
    s!"unexpected value '{value}' for '{p.text}' found; no more were expected"
  | repeated p => s!"the argument '{p.text}' cannot be used multiple times"
  | conflict p other => s!"the argument '{p.text}' cannot be used with '{other.text}'"

def Parameter.refusal? (p : Parameter) (value : String) : Option Fault :=
  match p.kind with
  | .text => none
  | .path => if value.isEmpty then some (.valueMissing p) else none
  | .provider =>
    match Llm.Provider.ofName value with
    | .ok _ => none
    | .error name => some (.valueInvalid p value (Llm.Provider.unknownMessage name))

end Workflow.CommandLine
