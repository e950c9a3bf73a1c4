import Workflow.Node.Registry
import Workflow.Proofs.Fallible

/-!
What the constructors of the built-in types accept and what they make of it: one statement for each
type, from which everything else about a node that could be made is drawn.
-/
namespace Workflow.Node

open Fallible (bind_eq_ok of_guard)

variable {σ : Type} {i : Init} {b : Behavior σ}

theorem Init.decode_of_read {α : Type} {decoder : Json.Decoder α} {a : α}
    (h : i.read decoder = .ok a) : Json.decode decoder (.object i.config) = .ok a := by
  rw [read] at h
  split at h
  · rename_i hdecode
    cases h
    exact hdecode
  · cases h

theorem HttpRequest.exists_of_construct {network : Http.Network σ}
    (h : construct network i = .ok b) :
    ∃ written c, i.read shape.decode = .ok written ∧ written.check i = .ok c ∧
      b = ⟨"http_request", none, false, execute network c⟩ := by
  obtain ⟨written, hread, h⟩ := bind_eq_ok.1 h
  obtain ⟨c, hcheck, ⟨⟩⟩ := bind_eq_ok.1 h
  exact ⟨written, c, hread, hcheck, rfl⟩

theorem Delay.exists_of_construct (h : construct i = .ok b) :
    ∃ value s, i.read shape.decode = .ok value ∧ seconds i value = .ok s ∧
      b = ⟨"delay", some (attemptTimeout s), false, execute i.id s⟩ := by
  obtain ⟨value, hread, h⟩ := bind_eq_ok.1 h
  obtain ⟨s, hseconds, ⟨⟩⟩ := bind_eq_ok.1 h
  exact ⟨value, s, hread, hseconds, rfl⟩

theorem Condition.exists_of_construct (h : construct i = .ok b) :
    ∃ c, i.read shape.decode = .ok c ∧ (Text.trimChars c.field.toList).isEmpty = false ∧
      b = ⟨NodeDefinition.conditionType, none, false, execute c⟩ := by
  obtain ⟨c, hread, h⟩ := bind_eq_ok.1 h
  split at h
  · cases h
  · rename_i hfield
    cases h
    exact ⟨c, hread, Bool.eq_false_iff.2 hfield, rfl⟩

theorem Code.exists_of_construct {workers : Script.Workers σ} {limits : Script.Limits} {now : Int}
    (h : construct workers limits now i = .ok b) :
    ∃ c program, i.read shape.decode = .ok c ∧ Script.Program.parse limits c.code = .ok program ∧
      c.timeout.isFinite ∧ 0.0 < c.timeout ∧
      b = behavior workers (.ofSeconds c.timeout)
        (program.execute limits now (.ofSeconds c.timeout)) := by
  obtain ⟨c, hread, h⟩ := bind_eq_ok.1 h
  obtain ⟨-, h⟩ := of_guard h
  obtain ⟨htimeout, h⟩ := of_guard h
  simp only [Bool.not_eq_true', Bool.not_eq_false, Bool.and_eq_true, decide_eq_true_eq]
    at htimeout
  dsimp only at h
  split at h
  · cases h
  · rename_i program hparse
    cases h
    exact ⟨c, program, hread, hparse, htimeout.1, htimeout.2, rfl⟩

theorem Generation.exists_of_construct {generator : Llm.Generator σ}
    (h : construct generator i = .ok b) :
    ∃ c, i.read shape.decode = .ok c ∧
      b = ⟨"llm", generator.requestTimeout.map (·.saturatingAdd slack), false,
        execute generator c⟩ := by
  obtain ⟨c, hread, h⟩ := bind_eq_ok.1 h
  obtain ⟨-, h⟩ := of_guard h
  obtain ⟨-, h⟩ := of_guard h
  obtain ⟨-, ⟨⟩⟩ := of_guard h
  exact ⟨c, hread, rfl⟩

end Workflow.Node
