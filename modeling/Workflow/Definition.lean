import Workflow.Json.Decode

/-!
Descriptions of workflows: nodes with their successors, and the node that a run starts with. In
JSON, what is optional and absent is left out, and what has a default is written out.
-/
namespace Workflow

open Json (Decoder)
open Json.Decoder (Field Shape require)

/-- A node of a workflow. -/
structure NodeDefinition where
  id : String
  name : String
  nodeType : String
  config : Payload := []
  nextNodes : List String := []
  /-- The node that takes over when this one fails. -/
  onError : Option String := none

/-- A workflow. -/
structure Definition where
  id : String
  name : String := ""
  description : Option String := none
  nodes : List NodeDefinition
  startNode : String
  triggerConfig : Option Json := none

namespace NodeDefinition

/-- A node as far as it has been read. -/
structure Parts where
  id : Option String := none
  name : Option String := none
  nodeType : Option String := none
  config : Payload := []
  nextNodes : List String := []
  onError : Option String := none

def Parts.finish (p : Parts) : Except Json.DecodeError NodeDefinition := do
  let id ← require "id" p.id
  let name ← require "name" p.name
  let nodeType ← require "type" p.nodeType
  return ⟨id, name, nodeType, p.config, p.nextNodes, p.onError⟩

def shape : Shape Parts NodeDefinition where
  name := "NodeDefinition"
  fields :=
    [.of "id" .string (fun p v => { p with id := some v }) false,
      .of "name" .string (fun p v => { p with name := some v }) false,
      .of "type" .string (fun p v => { p with nodeType := some v }) false,
      .of "config" .payload (fun p v => { p with config := v }) true,
      .of "next_nodes" (.list .string) (fun p v => { p with nextNodes := v }) true,
      .of "on_error" (.optional .string) (fun p v => { p with onError := v }) true]
  empty := {}
  finish := Parts.finish

def decoder : Decoder NodeDefinition := shape.decode

def toJson (n : NodeDefinition) : Json :=
  .object (Payload.ofList
    ([("id", .string n.id), ("name", .string n.name), ("type", .string n.nodeType),
      ("config", .object n.config), ("next_nodes", .ofTexts n.nextNodes)]
      ++ Json.optionalEntry "on_error" (n.onError.map .string)))

end NodeDefinition

namespace Definition

/-- A workflow as far as it has been read. -/
structure Parts where
  id : Option String := none
  name : String := ""
  description : Option String := none
  nodes : Option (List NodeDefinition) := none
  startNode : Option String := none
  triggerConfig : Option Json := none

def Parts.finish (p : Parts) : Except Json.DecodeError Definition := do
  let id ← require "id" p.id
  let nodes ← require "nodes" p.nodes
  let startNode ← require "start_node" p.startNode
  return ⟨id, p.name, p.description, nodes, startNode, p.triggerConfig⟩

def shape : Shape Parts Definition where
  name := "WorkflowDefinition"
  fields :=
    [.of "id" .string (fun p v => { p with id := some v }) false,
      .of "name" .string (fun p v => { p with name := v }) true,
      .of "description" (.optional .string) (fun p v => { p with description := v }) true,
      .of "nodes" (.list NodeDefinition.decoder) (fun p v => { p with nodes := some v }) false,
      .of "start_node" .string (fun p v => { p with startNode := some v }) false,
      .of "trigger_config" (.optional .value) (fun p v => { p with triggerConfig := v }) true]
  empty := {}
  finish := Parts.finish

def decoder : Decoder Definition := shape.decode

def toJson (d : Definition) : Json :=
  .object (Payload.ofList
    ([("id", .string d.id), ("name", .string d.name)]
      ++ Json.optionalEntry "description" (d.description.map .string)
      ++ [("nodes", .array (d.nodes.map NodeDefinition.toJson)),
        ("start_node", .string d.startNode)]
      ++ Json.optionalEntry "trigger_config" d.triggerConfig))

/-- The ids of the nodes, in their order. -/
def nodeIds (d : Definition) : List String := d.nodes.map (·.id)

end Definition

end Workflow
