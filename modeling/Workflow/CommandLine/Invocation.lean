import Workflow.CommandLine.Arguments

/-!
The commands of the program, and what arguments and the environment ask it to do.
-/
namespace Workflow.CommandLine

/-- Where the input of a run comes from. -/
inductive Source where
  | empty
  | text (text : String)
  | file (path : String)
  deriving Repr, DecidableEq

inductive Command where
  | validate (file : String)
  | run (file : String) (input : Source) (isRecorded : Bool)
  | types
  | history (workflow : String)
  deriving Repr, DecidableEq

/-- Settings of the generator that win over those of the configuration. -/
structure Overrides where
  provider : Option Llm.Provider := none
  apiKey : Option String := none
  model : Option String := none
  baseUrl : Option String := none
  deriving Repr, DecidableEq

/-- A command, and what it works with. -/
structure Invocation where
  configFile : String
  dataDirectory : String
  overrides : Overrides
  command : Command
  deriving Repr, DecidableEq

/-! ## Scopes -/

def help : Parameter where
  name := "help"
  form := .flag (some 'h')
  kind := .text
  about := "Print help"

/-- The settings of the generator, which the environment can give, too. -/
def generatorOptions : List Parameter :=
  [⟨"llm-provider", .option "LLM_PROVIDER" none, .provider,
      "Generative-text provider: openai, gemini or none", some "NODEFLOW_LLM_PROVIDER", none⟩,
    ⟨"llm-api-key", .option "LLM_API_KEY" none, .text,
      "API key for the generative-text provider", some "NODEFLOW_LLM_API_KEY", none⟩,
    ⟨"llm-model", .option "LLM_MODEL" none, .text,
      "Default model for \x60llm\x60 nodes", some "NODEFLOW_LLM_MODEL", none⟩,
    ⟨"llm-base-url", .option "LLM_BASE_URL" none, .text,
      "Override the provider API root", some "NODEFLOW_LLM_BASE_URL", none⟩]

/-- What can be given before a command. -/
def rootScope : Scope where
  parameters :=
    [⟨"config", .option "CONFIG" (some 'c'), .path, "Path to configuration file",
        some "NODEFLOW_CONFIG", some "nodeflow.toml"⟩,
      ⟨"data-dir", .option "DATA_DIR" (some 'd'), .path, "Data directory for recorded results",
        some "NODEFLOW_DATA_DIR", some "./data"⟩]
      ++ generatorOptions
      ++ [⟨"log-json", .flag none, .text, "Emit logs as JSON", none, none⟩, help]
  commands := ["validate", "run", "types", "history", "help"]

def workflowFile : Parameter where
  name := "file"
  form := .positional "FILE"
  kind := .path
  about := "Workflow file (.json or .toml)"

/-- What can be given to a run: its input comes from one place. -/
def runScope : Scope where
  parameters :=
    [workflowFile,
      ⟨"input", .option "INPUT" none, .text, "Input data as a JSON object", none, none⟩,
      ⟨"input-file", .option "INPUT_FILE" none, .path, "Read input data from a JSON file",
        none, none⟩,
      ⟨"no-record", .flag none, .text, "Do not record the result under the data directory",
        none, none⟩,
      help]
  conflicts := [("input", "input-file")]

def workflowId : Parameter where
  name := "workflow"
  form := .positional "WORKFLOW_ID"
  kind := .text
  about := ""

def scopeOf (command : String) : Scope :=
  match command with
  | "validate" => ⟨[workflowFile, help], [], []⟩
  | "run" => runScope
  | "history" => ⟨[workflowId, help], [], []⟩
  | _ => ⟨[help], [], []⟩

/-! ## Reading -/

/-- The value of a parameter, its fallback if it was not given, or else nothing. -/
def Given.valueOf (g : Given) (s : Scope) (name : String) : String :=
  let fallback := (s.named? name).bind Parameter.fallback
  (g.value? name).getD (fallback.getD "")

def Overrides.ofGiven (g : Given) : Overrides where
  provider := (g.value? "llm-provider").bind fun name => (Llm.Provider.ofName name).toOption
  apiKey := g.value? "llm-api-key"
  model := g.value? "llm-model"
  baseUrl := g.value? "llm-base-url"

def Source.ofGiven (g : Given) : Source :=
  match g.value? "input", g.value? "input-file" with
  | some json, _ => .text json
  | none, some path => .file path
  | none, none => .empty

def Command.ofGiven (name : String) (g : Given) : Command :=
  let value (parameter : String) : String := (g.value? parameter).getD ""
  match name with
  | "validate" => .validate (value "file")
  | "run" => .run (value "file") (.ofGiven g) (g.value? "no-record").isNone
  | "history" => .history (value "workflow")
  | _ => .types

def Command.read (name : String) (arguments : List String) : Except Stop Command :=
  let s := scopeOf name
  let read := do
    let (progress, _) ← s.readAll arguments s.start
    let given ← s.finish (fun _ => none) progress
    s.check given
    return Command.ofGiven name given
  match read with
  | .error (.help _) => .error (.help (some name))
  | answer => answer

def helpTopic : List String → Stop
  | [] => .help none
  | name :: rest =>
    if name ∉ rootScope.commands then .fault (.unknownCommand name)
    else
      match rest with
      | [] => .help (some name)
      | other :: _ => .fault (.unknownCommand other)

/-- Reads arguments. The arguments of a command are read before the environment. -/
def Invocation.read (environment : String → Option String) (arguments : List String) :
    Except Stop Invocation := do
  let s := rootScope
  let (progress, command) ← s.readAll arguments s.start
  match command with
  | none =>
    let given ← s.finish environment progress
    throw (if given.isEmpty then .nothing else .fault .noCommand)
  | some ("help", topic) => throw (helpTopic topic)
  | some (name, rest) =>
    let command ← Command.read name rest
    let given ← s.finish environment progress
    return ⟨given.valueOf s "config", given.valueOf s "data-dir", .ofGiven given, command⟩

end Workflow.CommandLine
