import Workflow.CommandLine.Invocation
import Workflow.Config
import Workflow.Storage.Tree
import Workflow.Toml.Decode

/-!
The settings of the program: those of a file if it is there, with defaults for everything, and what
was given on the command line above them.
-/
namespace Workflow.CommandLine

open Json (Decoder)
open Json.Decoder (Shape)
open Storage (Tree)

structure Settings where
  engine : EngineConfig := {}
  /-- Where runs are recorded, from the data directory on. -/
  resultsDirectory : String := "results"

namespace Settings

def storageShape : Shape String String where
  name := "StorageConfig"
  fields := [.of "results_dir" .string (fun _ v => v) true]
  empty := "results"
  finish := .ok

def shape : Shape Settings Settings where
  name := "CliConfig"
  fields :=
    [.of "engine" EngineConfig.decoder (fun s v => { s with engine := v }) true,
      .of "storage" storageShape.decode (fun s v => { s with resultsDirectory := v }) true]
  empty := {}
  finish := .ok

def decoder : Decoder Settings := shape.decode

inductive Failure where
  | unreadable
  | invalid
  deriving Repr, DecidableEq

def Failure.message : Failure → String
  | unreadable => "Failed to read configuration file"
  | invalid => "Failed to parse configuration file"

/-- The settings of a file, or the defaults if there is none. -/
def load (files : Tree) (path : String) : Except Failure Settings :=
  if files.contains path then
    match files.readText? path with
    | none => .error .unreadable
    | some text =>
      match Toml.decode? decoder text with
      | some s => .ok s
      | none => .error .invalid
  else .ok {}

/-- Puts what was given on the command line in place of what the file says. -/
def override (o : Overrides) (s : Settings) : Settings :=
  let c := s.engine.llm
  let llm : LlmConfig :=
    { c with
      provider := o.provider.getD c.provider
      apiKey := o.apiKey <|> c.apiKey
      model := o.model <|> c.model
      baseUrl := o.baseUrl <|> c.baseUrl }
  { s with engine := { s.engine with llm } }

end Settings

end Workflow.CommandLine
