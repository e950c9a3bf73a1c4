import Workflow.Llm.Provider
import Workflow.Script.Limits
import Workflow.Time.Duration

/-!
The configuration of the engine. Every entry has a default, so the empty object is a configuration.
The key of a provider is read but never written.
-/
namespace Workflow

open Json (Decoder)
open Json.Decoder (Field Shape)
open Time (Duration)

/-- Where generated text comes from. -/
structure LlmConfig where
  provider : Llm.Provider := .openAi
  apiKey : Option String := none
  baseUrl : Option String := none
  model : Option String := none
  /-- Seconds after which a request is given up. -/
  requestTimeout : Float := 120.0

/-- The configuration of the engine; times are in seconds. -/
structure EngineConfig where
  workflowSeconds : Float := 3600.0
  maxIterations : Nat := 1000
  nodeSeconds : Float := 60.0
  retrySeconds : Float := 1.0
  llm : LlmConfig := {}
  script : Script.Limits := {}

namespace LlmConfig

def shape : Shape LlmConfig LlmConfig where
  name := "LlmConfig"
  fields :=
    [.of "provider" Llm.Provider.decoder (fun c v => { c with provider := v }) true,
      .of "api_key" (.optional .string) (fun c v => { c with apiKey := v }) true,
      .of "base_url" (.optional .string) (fun c v => { c with baseUrl := v }) true,
      .of "model" (.optional .string) (fun c v => { c with model := v }) true,
      .of "request_timeout" .double (fun c v => { c with requestTimeout := v }) true]
  empty := {}
  finish := .ok

def decoder : Decoder LlmConfig := shape.decode

def toJson (c : LlmConfig) : Json :=
  .object (Payload.ofList
    [("provider", .string c.provider.name), ("base_url", .ofText? c.baseUrl),
      ("model", .ofText? c.model), ("request_timeout", .ofFloat c.requestTimeout)])

/-- The model that is used where none is named. -/
def defaultModel (c : LlmConfig) : String := c.model.getD c.provider.defaultModel

def timeout (c : LlmConfig) : Duration := .ofSeconds c.requestTimeout

end LlmConfig

namespace Script.Limits

def shape : Shape Limits Limits where
  name := "ScriptConfig"
  fields :=
    [.of "max_operations" .word64 (fun l v => { l with operations := v }) true,
      .of "max_string_size" .size (fun l v => { l with stringSize := v }) true,
      .of "max_array_size" .size (fun l v => { l with arraySize := v }) true,
      .of "max_map_size" .size (fun l v => { l with mapSize := v }) true,
      .of "max_call_levels" .size (fun l v => { l with callLevels := v }) true,
      .of "max_expr_depth" .size (fun l v => { l with expressionDepth := v }) true]
  empty := {}
  finish := .ok

def toJson (l : Limits) : Json :=
  .object (Payload.ofList
    [("max_operations", .ofInt l.operations), ("max_string_size", .ofInt l.stringSize),
      ("max_array_size", .ofInt l.arraySize), ("max_map_size", .ofInt l.mapSize),
      ("max_call_levels", .ofInt l.callLevels), ("max_expr_depth", .ofInt l.expressionDepth)])

end Script.Limits

namespace EngineConfig

def shape : Shape EngineConfig EngineConfig where
  name := "EngineConfig"
  fields :=
    [.of "max_workflow_execution_time" .double (fun c v => { c with workflowSeconds := v }) true,
      .of "max_iterations" .size (fun c v => { c with maxIterations := v }) true,
      .of "default_node_timeout" .double (fun c v => { c with nodeSeconds := v }) true,
      .of "default_retry_delay" .double (fun c v => { c with retrySeconds := v }) true,
      .of "llm" LlmConfig.decoder (fun c v => { c with llm := v }) true,
      .of "script" Script.Limits.shape.decode (fun c v => { c with script := v }) true]
  empty := {}
  finish := .ok

def decoder : Decoder EngineConfig := shape.decode

def toJson (c : EngineConfig) : Json :=
  .object (Payload.ofList
    [("max_workflow_execution_time", .ofFloat c.workflowSeconds),
      ("max_iterations", .ofInt c.maxIterations),
      ("default_node_timeout", .ofFloat c.nodeSeconds),
      ("default_retry_delay", .ofFloat c.retrySeconds),
      ("llm", c.llm.toJson), ("script", c.script.toJson)])

/-- The longest time that a run may take. -/
def workflowTimeout (c : EngineConfig) : Duration := .ofSeconds c.workflowSeconds

/-- The longest time that an attempt of a node may take. -/
def nodeTimeout (c : EngineConfig) : Duration := .ofSeconds c.nodeSeconds

/-- The pause between two attempts. -/
def retryDelay (c : EngineConfig) : Duration := .ofSeconds c.retrySeconds

end EngineConfig

end Workflow
