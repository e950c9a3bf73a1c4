import Workflow.CommandLine.Invocation

/-!
The help texts: what the program or a command does, how it is called, and tables of what it can be
given.
-/
namespace Workflow.CommandLine

def programAbout : String := "Run typed node-graph workflows from the command line"

def commandAbout (command : String) : String :=
  match command with
  | "validate" => "Check a workflow definition without running it"
  | "run" => "Execute a workflow and print the execution state"
  | "types" => "List registered node types"
  | "history" => "Show recorded runs of a workflow"
  | _ => "Print this message or the help of the given subcommand(s)"

/-- The rows of a table in two columns, below a title. -/
def tableLines (title : String) (rows : List (String × String)) : List String :=
  let width := (rows.map (·.1.length)).foldl max 0
  if rows.isEmpty then []
  else "" :: title :: rows.map fun (entry, about) =>
    let blanks := String.ofList (List.replicate (width - entry.length + 2) ' ')
    "  " ++ (if about.isEmpty then entry else entry ++ blanks ++ about)

def Parameter.row (p : Parameter) : String × String :=
  let entry := match p.letter? with
    | some letter => String.ofList ['-', letter] ++ ", " ++ p.text
    | none => if p.isPositional then p.text else "    " ++ p.text
  let environment := p.environment.map fun name => s!"[env: {name}]"
  let fallback := p.fallback.map fun value => s!"[default: {value}]"
  let notes := [some p.about, environment, fallback].filterMap id
  (entry, " ".intercalate (notes.filter (· ≠ "")))

def helpLines (command : Option String) : List String :=
  let scope := (command.map scopeOf).getD rootScope
  let values := scope.parameters.filter Parameter.isPositional
  let options := scope.parameters.filter fun p => !p.isPositional
  let words := [program] ++ command.toList ++ (if options.length ≤ 1 then [] else ["[OPTIONS]"])
    ++ values.map Parameter.text ++ (if scope.commands.isEmpty then [] else ["<COMMAND>"])
  [(command.map commandAbout).getD programAbout, "", "Usage: " ++ " ".intercalate words]
    ++ tableLines "Commands:" (scope.commands.map fun name => (name, commandAbout name))
    ++ tableLines "Arguments:" (values.map Parameter.row)
    ++ tableLines "Options:" (options.map Parameter.row)

end Workflow.CommandLine
