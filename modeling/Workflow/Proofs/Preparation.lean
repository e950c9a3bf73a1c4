import Workflow.Proofs.Validity
import Workflow.Run.Engine

/-!
What is known of the nodes of a workflow that can run: they are made from the nodes of the
definition in their order, no two have one id, and whatever they refer to is among them.
-/
namespace Workflow

open Fallible (bind_eq_ok mapM_eq_ok exists_of_mem_mapM)

namespace Run

variable {σ : Type}

theorem Prepared.definition_of_ofDefinition {registry : Node.Registry σ} {config : EngineConfig}
    {n : NodeDefinition} {p : Prepared σ} (h : ofDefinition registry config n = .ok p) :
    p.definition = n := by
  obtain ⟨behavior, -, h⟩ := bind_eq_ok.1 h
  obtain ⟨policy, -, ⟨⟩⟩ := bind_eq_ok.1 h
  rfl

theorem Prepared.create_of_ofDefinition {registry : Node.Registry σ} {config : EngineConfig}
    {n : NodeDefinition} {p : Prepared σ} (h : ofDefinition registry config n = .ok p) :
    registry.create n.nodeType ⟨n.id, n.name, n.config⟩ = .ok p.behavior := by
  obtain ⟨behavior, hcreate, h⟩ := bind_eq_ok.1 h
  obtain ⟨policy, -, ⟨⟩⟩ := bind_eq_ok.1 h
  exact hcreate

theorem definitions_of_mapM {registry : Node.Registry σ} {config : EngineConfig}
    {definitions : List NodeDefinition} {nodes : List (Prepared σ)}
    (h : definitions.mapM (Prepared.ofDefinition registry config) = .ok nodes) :
    nodes.map Prepared.definition = definitions := by
  have hmade := mapM_eq_ok.1 h
  clear h
  induction hmade with
  | nil => rfl
  | cons hfirst _ ih => rw [List.map_cons, ih, Prepared.definition_of_ofDefinition hfirst]

namespace Engine

variable {e : Engine σ} {d : Definition} {nodes : List (Prepared σ)}

theorem prepare_eq_ok (h : e.prepare d = .ok nodes) :
    d.validate = .ok () ∧ d.nodes.mapM (Prepared.ofDefinition e.registry e.config) = .ok nodes := by
  rw [prepare] at h
  cases hvalid : d.validate with
  | error reason =>
    rw [hvalid] at h
    cases h
  | ok checked =>
    cases hmade : d.nodes.mapM (Prepared.ofDefinition e.registry e.config) with
    | error reason =>
      rw [hvalid, hmade] at h
      cases h
    | ok made =>
      rw [hvalid, hmade] at h
      cases h
      exact ⟨rfl, rfl⟩

/-- What keeps a workflow from being prepared: it is not valid, or one of its nodes cannot be
made. -/
theorem prepare_eq_error {reason : Failure} (h : e.prepare d = .error reason) :
    (∃ fault, d.validate = .error fault ∧ reason = .definition fault) ∨
      ∃ fault, d.validate = .ok () ∧
        d.nodes.mapM (Prepared.ofDefinition e.registry e.config) = .error fault ∧
        reason = .build fault := by
  rw [prepare] at h
  cases hvalid : d.validate with
  | error fault =>
    rw [hvalid] at h
    cases h
    exact Or.inl ⟨fault, rfl, rfl⟩
  | ok checked =>
    cases hmade : d.nodes.mapM (Prepared.ofDefinition e.registry e.config) with
    | error fault =>
      rw [hvalid, hmade] at h
      cases h
      exact Or.inr ⟨fault, rfl, rfl, rfl⟩
    | ok made =>
      rw [hvalid, hmade] at h
      cases h

/-- A node of a workflow is made from its definition. -/
theorem made_of_prepare (h : e.prepare d = .ok nodes) {n : Prepared σ} (hn : n ∈ nodes) :
    n.definition ∈ d.nodes ∧
      Prepared.ofDefinition e.registry e.config n.definition = .ok n := by
  obtain ⟨definition, hmem, hmade⟩ := exists_of_mem_mapM (prepare_eq_ok h).2 hn
  rw [Prepared.definition_of_ofDefinition hmade]
  exact ⟨hmem, hmade⟩

theorem sound_of_prepare (h : e.prepare d = .ok nodes) : d.Sound :=
  Definition.sound_of_validate (prepare_eq_ok h).1

theorem definitions_of_prepare (h : e.prepare d = .ok nodes) :
    nodes.map Prepared.definition = d.nodes :=
  definitions_of_mapM (prepare_eq_ok h).2

theorem ids_of_prepare (h : e.prepare d = .ok nodes) : nodes.map Prepared.id = d.nodeIds := by
  rw [Definition.nodeIds, ← definitions_of_prepare h, List.map_map]
  rfl

end Engine

end Run

end Workflow
