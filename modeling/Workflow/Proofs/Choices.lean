import Workflow.Proofs.Branches
import Workflow.Proofs.Requests

/-!
The nodes that a behaviour may choose to come next. Of the built-in types only conditions choose,
and they choose among the branches that their nodes refer to.
-/
namespace Workflow.Node

open Run (Context)

variable {σ : Type}

/-- A behaviour that chooses among some ids, if it chooses. -/
def Behavior.ChoosesAmong (b : Behavior σ) (ids : List String) : Prop :=
  ∀ input c world output, (b.execute input c world).1.value.outcome = .ok output →
    ∀ x ∈ output.nextNodes.getD [], x ∈ ids

/-- What never chooses chooses among any ids. -/
theorem Behavior.ChoosesAmong.of_none {b : Behavior σ} {ids : List String}
    (h : ∀ input c world output, (b.execute input c world).1.value.outcome = .ok output →
      output.nextNodes = none) : b.ChoosesAmong ids := by
  intro input c world output houtput x hx
  rw [h input c world output houtput] at hx
  cases hx

section Types

variable {i : Init} {b : Behavior σ} {ids : List String}

theorem HttpRequest.choosesAmong {network : Http.Network σ} (h : construct network i = .ok b) :
    b.ChoosesAmong ids := by
  obtain ⟨written, c, -, -, rfl⟩ := exists_of_construct h
  refine .of_none fun input context world output houtput => ?_
  obtain ⟨reply, rfl⟩ := exists_reply_of_shown houtput
  rfl

theorem Delay.choosesAmong (h : construct i = .ok b) : b.ChoosesAmong ids := by
  obtain ⟨value, seconds, -, -, rfl⟩ := exists_of_construct h
  refine .of_none fun input context world output houtput => ?_
  simp only [execute] at houtput
  split at houtput
  · cases houtput
  · simp only [Time.Timed.within] at houtput
    split at houtput
    · cases houtput
    · cases houtput
      rfl

theorem Generation.choosesAmong {generator : Llm.Generator σ}
    (h : construct generator i = .ok b) : b.ChoosesAmong ids := by
  obtain ⟨c, -, rfl⟩ := exists_of_construct h
  refine .of_none fun input context world output houtput => ?_
  cases houtput
  rfl

/-- A node that runs a script, in which the script may come out in any way. -/
def Code.Runs (b : Behavior σ) : Prop :=
  ∀ input c world, ∃ outcome, (b.execute input c world).1.value = Code.attempt input c outcome

theorem Code.Runs.choosesAmong (h : Code.Runs b) : b.ChoosesAmong ids := by
  refine .of_none fun input context world output houtput => ?_
  obtain ⟨outcome, heq⟩ := h input context world
  rw [heq] at houtput
  cases outcome with
  | ok o =>
    cases houtput
    rfl
  | error e =>
    cases e with
    | compile fault =>
      cases houtput
      rfl
    | runtime reason =>
      cases houtput
      rfl
    | timeout limit =>
      cases houtput
      rfl
    | cancelled => cases houtput

theorem Code.runs {workers : Script.Workers σ} {limits : Script.Limits} {now : Int}
    (h : construct workers limits now i = .ok b) : Code.Runs b := by
  obtain ⟨c, program, -, -, -, -, rfl⟩ := exists_of_construct h
  exact fun input c world => ⟨_, rfl⟩

theorem Condition.choosesAmong {n : NodeDefinition}
    (htype : n.nodeType = NodeDefinition.conditionType)
    (h : construct ⟨n.id, n.name, n.config⟩ = .ok b) : b.ChoosesAmong n.branches := by
  obtain ⟨c, hread, -, rfl⟩ := exists_of_construct h
  intro input context world output houtput x hx
  cases houtput
  refine mem_branches_of_decode htype (Init.decode_of_read hread) ?_
  rw [Option.getD_some, Option.mem_toList, Config.branch] at hx
  split at hx
  · exact Or.inl hx
  · exact Or.inr hx

end Types

namespace Registry

/-- What makes a node of a type is the constructor of some entry for the type. -/
theorem mem_of_create {r : Registry σ} {nodeType : String} {i : Init} {b : Behavior σ}
    (h : r.create nodeType i = .ok b) : ∃ construct, (nodeType, construct) ∈ r ∧
      construct i = .ok b := by
  rw [create, constructor?] at h
  cases hfind : r.find? (·.1 = nodeType) with
  | none =>
    rw [hfind] at h
    cases h
  | some entry =>
    rw [hfind] at h
    obtain ⟨name, construct⟩ := entry
    obtain rfl : name = nodeType := by simpa using List.find?_some hfind
    exact ⟨construct, List.mem_of_find?_eq_some hfind, h⟩

/-- A registry that makes the nodes of the built-in types, with services of any kind; a script may
come out in any way. -/
def IsBuiltin (r : Registry σ) : Prop :=
  ∃ services, ∀ nodeType i b, r.create nodeType i = .ok b →
    (builtins services).create nodeType i = .ok b ∨ nodeType = "code" ∧ Code.Runs b

theorem isBuiltin_builtins (services : Services σ) : (builtins services).IsBuiltin :=
  ⟨services, fun _ _ _ h => Or.inl h⟩

/-- A node that a built-in type makes chooses among the branches that its definition refers to. -/
theorem IsBuiltin.choosesAmong {r : Registry σ} (hr : r.IsBuiltin) {n : NodeDefinition}
    {b : Behavior σ} (h : r.create n.nodeType ⟨n.id, n.name, n.config⟩ = .ok b) :
    b.ChoosesAmong n.branches := by
  obtain ⟨services, hbuiltin⟩ := hr
  rcases hbuiltin _ _ _ h with hmade | ⟨-, hruns⟩
  · obtain ⟨construct, hmem, hconstruct⟩ := mem_of_create hmade
    simp only [builtins, register, List.mem_cons, Prod.mk.injEq, List.not_mem_nil, or_false]
      at hmem
    rcases hmem with ⟨-, rfl⟩ | ⟨-, rfl⟩ | ⟨htype, rfl⟩ | ⟨-, rfl⟩ | ⟨-, rfl⟩
    · exact Generation.choosesAmong hconstruct
    · exact (Code.runs hconstruct).choosesAmong
    · exact Condition.choosesAmong htype hconstruct
    · exact Delay.choosesAmong hconstruct
    · exact HttpRequest.choosesAmong hconstruct
  · exact hruns.choosesAmong

end Registry

end Workflow.Node
