import Workflow.CommandLine.Parameter

/-!
Arguments, and what they give to the parameters of a scope. An option has its value in the same
argument or in the next one; a value in the next one is looked at only when another parameter comes
or the arguments end, so what is wrong with a later argument can be found first. After `--` there
are only values of positional parameters.
-/
namespace Workflow.CommandLine

/-- The parameters that can be given in some place, and the commands that can follow. -/
structure Scope where
  parameters : List Parameter
  /-- Pairs of parameters, by name, of which only one can be given. -/
  conflicts : List (String × String) := []
  commands : List String := []

/-- What parameters were given, by their names in the order of the arguments. -/
abbrev Given := List (Parameter × String)

def Given.value? (g : Given) (name : String) : Option String :=
  (g.find? (·.1.name = name)).map Prod.snd

inductive Stop where
  | nothing
  /-- Help is wanted about a command, or about the program. -/
  | help (command : Option String)
  | fault (fault : Fault)

structure Progress where
  given : Given := []
  /-- A parameter that has not been looked at yet, and its value if that has come. -/
  waiting : Option (Parameter × Option String) := none
  free : List Parameter
  onlyValues : Bool := false

namespace Progress

/-- Whether the next argument can be the value of an option. -/
def awaitsValue (g : Progress) : Bool :=
  match g.waiting with
  | some (_, none) => true
  | _ => false

/-- Gives a value to a parameter; help is given at once. -/
def give (p : Parameter) (value : String) (g : Progress) : Except Stop Progress :=
  if p.name = "help" then .error (.help none)
  else if (g.given.value? p.name).isSome then .error (.fault (.repeated p))
  else
    match p.refusal? value with
    | some fault => .error (.fault fault)
    | none => .ok { g with given := g.given ++ [(p, value)] }

def settle (g : Progress) : Except Stop Progress :=
  match g.waiting with
  | none => .ok g
  | some (p, none) => .error (.fault (.valueMissing p))
  | some (p, some value) => { g with waiting := none }.give p value

/-- Gives a value to a parameter after looking at the one that waits. -/
def giveNow (g : Progress) (p : Parameter) (value : String) : Except Stop Progress := do
  (← g.settle).give p value

/-- Lets a parameter wait after looking at the one that waits. -/
def wait (g : Progress) (p : Parameter) (value : Option String) : Except Stop Progress := do
  return { (← g.settle) with waiting := some (p, value) }

end Progress

namespace Scope

def named? (s : Scope) (name : String) : Option Parameter :=
  s.parameters.find? fun p => !p.isPositional && p.name = name

def lettered? (s : Scope) (letter : Char) : Option Parameter :=
  s.parameters.find? fun p => p.letter? = some letter

def start (s : Scope) : Progress where
  free := s.parameters.filter Parameter.isPositional

def readName (s : Scope) (name : String) (value : Option String) (g : Progress) :
    Except Stop Progress :=
  match s.named? name with
  | none => .error (.fault (.unexpected s!"--{name}"))
  | some p =>
    match p.form, value with
    | .flag _, none => g.giveNow p ""
    | .flag _, some value => .error (.fault (.valueUnwanted p value))
    | _, some value => g.giveNow p value
    | _, none => g.wait p none

/-- Reads letters; those after the letter of an option are its value. -/
def readLetters (s : Scope) : List Char → Progress → Except Stop Progress
  | [], g => .ok g
  | c :: rest, g =>
    match s.lettered? c with
    | none => .error (.fault (.unexpected (String.ofList ['-', c])))
    | some p =>
      match p.form, rest with
      | .flag _, rest => do s.readLetters rest (← g.giveNow p "")
      | _, [] => g.wait p none
      | _, '=' :: value => g.giveNow p (String.ofList value)
      | _, value => g.giveNow p (String.ofList value)

def readValue (s : Scope) (value : String) (g : Progress) : Except Stop Progress :=
  match g.free with
  | p :: free => { g with free := free }.wait p (some value)
  | [] =>
    if s.commands.isEmpty || (g.onlyValues && value ∈ s.commands) then
      .error (.fault (.unexpected value))
    else .error (.fault (.unknownCommand value))

def read (s : Scope) (argument : String) (g : Progress) : Except Stop Progress :=
  if g.onlyValues then s.readValue argument g
  else
    match argument.toList with
    | ['-', '-'] => .ok { g with onlyValues := true }
    | '-' :: '-' :: rest =>
      let name := String.ofList (rest.takeWhile (· ≠ '='))
      match rest.dropWhile (· ≠ '=') with
      | [] => s.readName name none g
      | _ :: value => s.readName name (some (String.ofList value)) g
    | '-' :: c :: rest => s.readLetters (c :: rest) g
    | _ =>
      match g.waiting with
      | some (p, none) => .ok { g with waiting := some (p, some argument) }
      | _ => s.readValue argument g

/-- Reads arguments up to a command, and returns it with the arguments after it. -/
def readAll (s : Scope) : List String → Progress →
    Except Stop (Progress × Option (String × List String))
  | [], g => .ok (g, none)
  | argument :: rest, g =>
    if !g.onlyValues && !g.awaitsValue && argument ∈ s.commands then
      .ok (g, some (argument, rest))
    else do s.readAll rest (← s.read argument g)

/-- Gives the values of the environment to the parameters that were not given. -/
def readEnvironment (environment : String → Option String) (g : Progress) :
    List Parameter → Except Stop Progress
  | [] => .ok g
  | p :: rest =>
    match g.given.value? p.name, p.environment.bind environment with
    | none, some value => do readEnvironment environment (← g.give p value) rest
    | _, _ => readEnvironment environment g rest

/-- Looks at the last parameter, and then at the environment. -/
def finish (s : Scope) (environment : String → Option String) (g : Progress) :
    Except Stop Given := do
  return (← readEnvironment environment (← g.settle) s.parameters).given

def conflictOf? (s : Scope) (g : Given) (p : Parameter) : Option Parameter :=
  (g.map Prod.fst).find? fun q =>
    (p.name, q.name) ∈ s.conflicts || (q.name, p.name) ∈ s.conflicts

def check (s : Scope) (g : Given) : Except Stop Unit :=
  let conflict := g.findSome? fun (p, _) => (s.conflictOf? g p).map (Fault.conflict p)
  let missing := s.parameters.filter fun p => p.isPositional && (g.value? p.name).isNone
  match conflict with
  | some fault => .error (.fault fault)
  | none => if missing.isEmpty then .ok () else .error (.fault (.missing missing))

end Scope

end Workflow.CommandLine
