import Workflow.Node.Condition
import Workflow.Proofs.Values

/-!
The branches of a condition, as its configuration is written and as it is read. A branch that a
condition can take is the text that stands under the key of the branch.
-/
namespace Workflow

open Fallible (bind_eq_ok)

namespace Node.Condition

open Json.Decoder (Field Shape gives_optional_iff gives_string_iff)

/-! ## Conditions -/

/-- What is read as a configuration are the parts that its entries leave behind. -/
theorem parts_of_decode {config : Payload} {c : Config}
    (h : Json.decode shape.decode (.object config) = .ok c) :
    ∃ p, shape.readEntries (Json.Draft.ofFields config) [] {} = .ok p ∧
      c.trueBranch = p.trueBranch ∧ c.falseBranch = p.falseBranch := by
  obtain ⟨p, hread, h⟩ := bind_eq_ok.1 h
  obtain ⟨⟨⟩, -, hfinish⟩ := bind_eq_ok.1 h
  obtain ⟨field, -, hfinish⟩ := bind_eq_ok.1 hfinish
  obtain ⟨operator, -, ⟨⟩⟩ := bind_eq_ok.1 hfinish
  exact ⟨p, hread, rfl, rfl⟩

theorem reads_trueBranch : shape.Reads Parts.trueBranch "true_branch" (.optional .string) where
  mem := by simp [shape, Field.of]
  read := by
    simp only [shape, List.forall_mem_cons, Field.read_of_eq_ok]
    refine ⟨?_, ?_, ?_, ?_, ?_, nofun⟩ <;> rintro d b _ ⟨v, hv, rfl⟩
    · rfl
    · rfl
    · rfl
    · exact hv
    · rfl

theorem reads_falseBranch : shape.Reads Parts.falseBranch "false_branch" (.optional .string) where
  mem := by simp [shape, Field.of]
  read := by
    simp only [shape, List.forall_mem_cons, Field.read_of_eq_ok]
    refine ⟨?_, ?_, ?_, ?_, ?_, nofun⟩ <;> rintro d b _ ⟨v, hv, rfl⟩
    · rfl
    · rfl
    · rfl
    · rfl
    · exact hv

/-- A branch that is read stands as a text under its key. -/
theorem find?_of_reads {branch : Parts → Option String} {key : String}
    (hreads : shape.Reads branch key (.optional .string)) (hempty : branch {} = none)
    {config : Payload} {p : Parts}
    (h : shape.readEntries (Json.Draft.ofFields config) [] {} = .ok p) {x : String}
    (hx : branch p = some x) : Payload.find? config key = some (.string x) := by
  rcases hreads.part_eq h with ⟨-, hsame⟩ | ⟨-, d, hd, hdecoded⟩
  · rw [hsame, hempty] at hx
    cases hx
  · rw [Json.Draft.lookup_ofFields, Option.map_eq_some_iff] at hd
    obtain ⟨v, hv, rfl⟩ := hd
    rw [hx] at hdecoded
    rcases gives_optional_iff.1 hdecoded with ⟨-, ⟨⟩⟩ | ⟨-, _, ⟨⟩, hgives⟩
    rw [hv, gives_string_iff.1 hgives]

/-- The branches that a condition can take are those that its node refers to. -/
theorem mem_branches_of_decode {n : NodeDefinition}
    (htype : n.nodeType = NodeDefinition.conditionType)
    {c : Config} (h : Json.decode shape.decode (.object n.config) = .ok c) {x : String}
    (hx : c.trueBranch = some x ∨ c.falseBranch = some x) : x ∈ n.branches := by
  obtain ⟨p, hp, htrue, hfalse⟩ := parts_of_decode h
  have hbranch {key : String} (hkey : key ∈ ["true_branch", "false_branch"])
      (hfind : Payload.find? n.config key = some (.string x)) : x ∈ n.branches := by
    rw [NodeDefinition.branches, if_pos htype]
    refine List.mem_filterMap.2 ⟨key, hkey, ?_⟩
    rw [hfind]
    rfl
  rcases hx with hx | hx
  · rw [htrue] at hx
    exact hbranch List.mem_cons_self (find?_of_reads reads_trueBranch rfl hp hx)
  · rw [hfalse] at hx
    exact hbranch (List.mem_cons_of_mem _ List.mem_cons_self)
      (find?_of_reads reads_falseBranch rfl hp hx)

end Node.Condition

end Workflow
