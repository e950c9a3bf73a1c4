import Mathlib.Data.List.Nodup
import Workflow.Graph.Validation
import Workflow.Proofs.Fallible

/-!
Which definitions are valid, and what is reported of the others. A definition is valid just if it
has nodes, runs start at one of them, every reference leads to one, and no id is used twice. Of
several faults the first one is reported: what is wrong with the whole, then the first reference of
the first node that leads nowhere, then the first node whose id occurred before.
-/
namespace Workflow

open Fallible (bind_eq_ok bind_eq_error of_guard guard_eq_error)

theorem Json.text?_eq_some_iff {v : Json} {x : String} : v.text? = some x ↔ v = .string x := by
  cases v <;> simp [Json.text?]

/-! ## References -/

namespace NodeDefinition

variable {n : NodeDefinition} {x : String}

/-- A condition with the text of an id under the key of a branch. -/
def BranchesTo (n : NodeDefinition) (key x : String) : Prop :=
  n.nodeType = conditionType ∧ Payload.find? n.config key = some (.string x)

/-- A node refers to an id as one of its successors, as its error handler, or as the target of a
branch. -/
inductive RefersTo (n : NodeDefinition) (x : String) : Prop
  | successor (h : x ∈ n.nextNodes) : RefersTo n x
  | handler (h : n.onError = some x) : RefersTo n x
  | trueBranch (h : n.BranchesTo "true_branch" x) : RefersTo n x
  | falseBranch (h : n.BranchesTo "false_branch" x) : RefersTo n x

/-- The target of the branch under a key, if there is one. -/
def branch? (n : NodeDefinition) (key : String) : Option String :=
  if n.nodeType = conditionType then (Payload.find? n.config key).bind Json.text? else none

theorem branch?_eq_some_iff {key : String} : n.branch? key = some x ↔ n.BranchesTo key x := by
  unfold branch? BranchesTo
  by_cases htype : n.nodeType = conditionType
  · simp [htype, Option.bind_eq_some_iff, Json.text?_eq_some_iff]
  · simp [htype]

theorem branches_eq (n : NodeDefinition) :
    n.branches = (n.branch? "true_branch").toList ++ (n.branch? "false_branch").toList := by
  unfold branches branch?
  by_cases htype : n.nodeType = conditionType
  · simp only [if_pos htype, List.filterMap_cons, List.filterMap_nil]
    cases (Payload.find? n.config "true_branch").bind Json.text? <;>
      cases (Payload.find? n.config "false_branch").bind Json.text? <;> rfl
  · simp [htype]

theorem mem_references_iff : x ∈ n.references ↔ n.RefersTo x := by
  unfold references
  rw [branches_eq, List.mem_append, List.mem_append, List.mem_append, Option.mem_toList,
    Option.mem_toList, Option.mem_toList, branch?_eq_some_iff, branch?_eq_some_iff]
  constructor
  · rintro ((hnext | hhandler) | htrue | hfalse)
    · exact .successor hnext
    · exact .handler hhandler
    · exact .trueBranch htrue
    · exact .falseBranch hfalse
  · intro h
    cases h with
    | successor hnext => exact Or.inl (Or.inl hnext)
    | handler hhandler => exact Or.inl (Or.inr hhandler)
    | trueBranch htrue => exact Or.inr (Or.inl htrue)
    | falseBranch hfalse => exact Or.inr (Or.inr hfalse)

end NodeDefinition

namespace Definition

variable {ids : List String} {e : DefinitionError}

/-! ## The references of a node -/

section Targets

variable {targets : List String} {error : String → DefinitionError}

theorem checkTargets_eq_ok_iff :
    checkTargets ids error targets = .ok () ↔ ∀ x ∈ targets, x ∈ ids := by
  unfold checkTargets
  cases hfind : targets.find? (· ∉ ids) with
  | none => simpa using hfind
  | some y =>
    have hy := List.find?_some hfind
    simp only [reduceCtorEq, false_iff, not_forall]
    exact ⟨y, List.mem_of_find?_eq_some hfind, of_decide_eq_true hy⟩

/-- The first target that is missing is reported. -/
theorem checkTargets_eq_error_iff : checkTargets ids error targets = .error e ↔
    ∃ before x after, targets = before ++ x :: after ∧ (∀ y ∈ before, y ∈ ids) ∧ x ∉ ids ∧
      e = error x := by
  have hfirst (x : String) : targets.find? (· ∉ ids) = some x ↔
      ∃ before after, targets = before ++ x :: after ∧ (∀ y ∈ before, y ∈ ids) ∧ x ∉ ids := by
    rw [List.find?_eq_some_iff_append]
    simp only [decide_eq_true_eq, Bool.not_eq_true', decide_eq_false_iff_not, not_not]
    constructor
    · rintro ⟨hx, before, after, htargets, hbefore⟩
      exact ⟨before, after, htargets, hbefore, hx⟩
    · rintro ⟨before, after, htargets, hbefore, hx⟩
      exact ⟨hx, before, after, htargets, hbefore⟩
  unfold checkTargets
  constructor
  · intro h
    split at h
    · rename_i x hfind
      obtain ⟨before, after, htargets, hbefore, hx⟩ := (hfirst x).1 hfind
      cases h
      exact ⟨before, x, after, htargets, hbefore, hx, rfl⟩
    · cases h
  · rintro ⟨before, x, after, htargets, hbefore, hx, rfl⟩
    rw [(hfirst x).2 ⟨before, after, htargets, hbefore, hx⟩]

variable {target? : Option String}

theorem checkTarget_eq_ok_iff :
    checkTargets ids error target?.toList = .ok () ↔ ∀ x, target? = some x → x ∈ ids := by
  simp [checkTargets_eq_ok_iff, Option.mem_toList]

theorem checkTarget_eq_error_iff : checkTargets ids error target?.toList = .error e ↔
    ∃ x, target? = some x ∧ x ∉ ids ∧ e = error x := by
  cases target? with
  | none => simp [checkTargets]
  | some x =>
    by_cases hx : x ∈ ids
    · simp [checkTargets, hx]
    · simp [checkTargets, hx, eq_comm]

end Targets

section Nodes

variable {n : NodeDefinition} {nodes : List NodeDefinition}

/-- The first reference of a node that leads to none of some ids, as it is reported: successors come
first, in their order, then the error handler, then the branches. -/
inductive FirstDangling (ids : List String) (n : NodeDefinition) : DefinitionError → Prop
  | successor (before after : List String) (x : String) (hnext : n.nextNodes = before ++ x :: after)
      (hbefore : ∀ y ∈ before, y ∈ ids) (hx : x ∉ ids) :
      FirstDangling ids n (.unknownSuccessor n.id x)
  | handler (x : String) (hnext : ∀ y ∈ n.nextNodes, y ∈ ids) (h : n.onError = some x)
      (hx : x ∉ ids) : FirstDangling ids n (.unknownHandler n.id x)
  | trueBranch (x : String) (hnext : ∀ y ∈ n.nextNodes, y ∈ ids)
      (hhandler : ∀ y, n.onError = some y → y ∈ ids) (h : n.BranchesTo "true_branch" x)
      (hx : x ∉ ids) : FirstDangling ids n (.unknownBranch n.id x)
  | falseBranch (x : String) (hnext : ∀ y ∈ n.nextNodes, y ∈ ids)
      (hhandler : ∀ y, n.onError = some y → y ∈ ids)
      (htrue : ∀ y, n.BranchesTo "true_branch" y → y ∈ ids) (h : n.BranchesTo "false_branch" x)
      (hx : x ∉ ids) : FirstDangling ids n (.unknownBranch n.id x)

theorem checkNode_eq_ok_iff : checkNode ids n = .ok () ↔ ∀ x ∈ n.references, x ∈ ids := by
  unfold checkNode NodeDefinition.references
  simp only [List.mem_append, or_imp, forall_and]
  constructor
  · intro h
    obtain ⟨⟨⟩, hnext, h⟩ := bind_eq_ok.1 h
    obtain ⟨⟨⟩, hhandler, hbranches⟩ := bind_eq_ok.1 h
    exact ⟨⟨checkTargets_eq_ok_iff.1 hnext, checkTargets_eq_ok_iff.1 hhandler⟩,
      checkTargets_eq_ok_iff.1 hbranches⟩
  · rintro ⟨⟨hnext, hhandler⟩, hbranches⟩
    rw [checkTargets_eq_ok_iff.2 hnext, checkTargets_eq_ok_iff.2 hhandler,
      checkTargets_eq_ok_iff.2 hbranches]
    rfl

/-- The branches of a node are checked one after the other, each as a target of its own. -/
theorem checkBranches_eq (error : String → DefinitionError) :
    checkTargets ids error n.branches =
      (checkTargets ids error (n.branch? "true_branch").toList >>= fun _ =>
        checkTargets ids error (n.branch? "false_branch").toList) := by
  rw [NodeDefinition.branches_eq]
  unfold checkTargets
  rw [List.find?_append]
  cases (n.branch? "true_branch").toList.find? (· ∉ ids) <;> rfl

/-- What is reported is the first reference that is missing. -/
theorem FirstDangling.of_checkNode (h : checkNode ids n = .error e) : FirstDangling ids n e := by
  unfold checkNode at h
  rw [checkBranches_eq] at h
  rcases bind_eq_error.1 h with h | ⟨⟨⟩, hnext, h⟩
  · obtain ⟨before, x, after, htargets, hbefore, hx, rfl⟩ := checkTargets_eq_error_iff.1 h
    exact .successor before after x htargets hbefore hx
  have hnext := checkTargets_eq_ok_iff.1 hnext
  rcases bind_eq_error.1 h with h | ⟨⟨⟩, hhandler, h⟩
  · obtain ⟨x, hx, hmissing, rfl⟩ := checkTarget_eq_error_iff.1 h
    exact .handler x hnext hx hmissing
  have hhandler := checkTarget_eq_ok_iff.1 hhandler
  rcases bind_eq_error.1 h with h | ⟨⟨⟩, htrue, h⟩
  · obtain ⟨x, hx, hmissing, rfl⟩ := checkTarget_eq_error_iff.1 h
    exact .trueBranch x hnext hhandler (NodeDefinition.branch?_eq_some_iff.1 hx) hmissing
  · obtain ⟨x, hx, hmissing, rfl⟩ := checkTarget_eq_error_iff.1 h
    refine .falseBranch x hnext hhandler ?_ (NodeDefinition.branch?_eq_some_iff.1 hx) hmissing
    intro y hy
    exact checkTarget_eq_ok_iff.1 htrue y (NodeDefinition.branch?_eq_some_iff.2 hy)

/-- The checks in front of the first reference that is missing succeed, and its own fails. -/
theorem FirstDangling.checkNode_eq (h : FirstDangling ids n e) : checkNode ids n = .error e := by
  unfold checkNode
  rw [checkBranches_eq]
  cases h with
  | successor before after x hnext hbefore hx =>
    rw [checkTargets_eq_error_iff.2 ⟨before, x, after, hnext, hbefore, hx, rfl⟩]
    rfl
  | handler x hnext hhandler hx =>
    rw [checkTargets_eq_ok_iff.2 hnext, checkTarget_eq_error_iff.2 ⟨x, hhandler, hx, rfl⟩]
    rfl
  | trueBranch x hnext hhandler htrue hx =>
    have hbranch := NodeDefinition.branch?_eq_some_iff.2 htrue
    rw [checkTargets_eq_ok_iff.2 hnext, checkTarget_eq_ok_iff.2 hhandler,
      checkTarget_eq_error_iff.2 ⟨x, hbranch, hx, rfl⟩]
    rfl
  | falseBranch x hnext hhandler htrue hfalse hx =>
    have hbranch := NodeDefinition.branch?_eq_some_iff.2 hfalse
    have hknown : checkTargets ids (.unknownBranch n.id) (n.branch? "true_branch").toList =
        .ok () := by
      apply checkTarget_eq_ok_iff.2
      intro y hy
      exact htrue y (NodeDefinition.branch?_eq_some_iff.1 hy)
    rw [checkTargets_eq_ok_iff.2 hnext, checkTarget_eq_ok_iff.2 hhandler, hknown,
      checkTarget_eq_error_iff.2 ⟨x, hbranch, hx, rfl⟩]
    rfl

theorem checkNode_eq_error_iff : checkNode ids n = .error e ↔ FirstDangling ids n e :=
  ⟨FirstDangling.of_checkNode, FirstDangling.checkNode_eq⟩

theorem checkNodes_eq_ok_iff :
    checkNodes ids nodes = .ok () ↔ ∀ n ∈ nodes, ∀ x ∈ n.references, x ∈ ids := by
  induction nodes with
  | nil => simp [checkNodes]
  | cons first rest ih =>
    rw [checkNodes, List.forall_mem_cons, ← ih, ← checkNode_eq_ok_iff, bind_eq_ok]
    exact ⟨fun ⟨_, hfirst, hrest⟩ => ⟨hfirst, hrest⟩, fun ⟨hfirst, hrest⟩ => ⟨(), hfirst, hrest⟩⟩

/-- The first node with a reference that leads nowhere is reported. -/
theorem checkNodes_eq_error_iff : checkNodes ids nodes = .error e ↔
    ∃ before n after, nodes = before ++ n :: after ∧
      (∀ p ∈ before, ∀ x ∈ p.references, x ∈ ids) ∧ FirstDangling ids n e := by
  induction nodes with
  | nil => simp [checkNodes]
  | cons first rest ih =>
    rw [checkNodes, bind_eq_error, ih, checkNode_eq_error_iff]
    constructor
    · rintro (hfirst | ⟨⟨⟩, hfirst, before, n, after, rfl, hbefore, hn⟩)
      · exact ⟨[], first, rest, rfl, List.forall_mem_nil _, hfirst⟩
      · refine ⟨first :: before, n, after, rfl, ?_, hn⟩
        exact List.forall_mem_cons.2 ⟨checkNode_eq_ok_iff.1 hfirst, hbefore⟩
    · rintro ⟨before, n, after, hnodes, hbefore, hn⟩
      cases before with
      | nil =>
        obtain ⟨rfl, -⟩ := List.cons.inj hnodes
        exact Or.inl hn
      | cons p before =>
        obtain ⟨rfl, rfl⟩ := List.cons.inj hnodes
        obtain ⟨hfirst, hbefore⟩ := List.forall_mem_cons.1 hbefore
        exact Or.inr ⟨(), checkNode_eq_ok_iff.2 hfirst, before, n, after, rfl, hbefore, hn⟩

end Nodes

/-! ## Repeated ids -/

theorem firstRepeated_eq_none_iff {seen ids : List String} :
    firstRepeated seen ids = none ↔ ids.Nodup ∧ ∀ x ∈ ids, x ∉ seen := by
  induction ids generalizing seen with
  | nil => simp [firstRepeated]
  | cons id rest ih =>
    unfold firstRepeated
    by_cases hid : id ∈ seen
    · simp [hid]
    · rw [if_neg hid, ih, List.nodup_cons, List.forall_mem_cons]
      simp only [List.mem_cons, not_or, forall_and]
      constructor
      · rintro ⟨hrest, hne, hseen⟩
        exact ⟨⟨fun hmem => hne id hmem rfl, hrest⟩, hid, hseen⟩
      · rintro ⟨⟨hnew, hrest⟩, -, hseen⟩
        exact ⟨hrest, fun x hx heq => hnew (heq ▸ hx), hseen⟩

/-- The first id is found that was seen or occurred before. -/
theorem firstRepeated_eq_some_iff {seen ids : List String} {x : String} :
    firstRepeated seen ids = some x ↔
      ∃ before after, ids = before ++ x :: after ∧ firstRepeated seen before = none ∧
        (x ∈ before ∨ x ∈ seen) := by
  induction ids generalizing seen with
  | nil => simp [firstRepeated]
  | cons id rest ih =>
    rw [firstRepeated]
    by_cases hid : id ∈ seen
    · rw [if_pos hid, Option.some_inj]
      constructor
      · rintro rfl
        exact ⟨[], rest, rfl, rfl, Or.inr hid⟩
      · rintro ⟨before, after, hids, hnone, -⟩
        cases before with
        | nil => exact (List.cons.inj hids).1
        | cons y before =>
          obtain ⟨rfl, -⟩ := List.cons.inj hids
          rw [firstRepeated, if_pos hid] at hnone
          cases hnone
    · rw [if_neg hid, ih]
      constructor
      · rintro ⟨before, after, rfl, hnone, hx⟩
        refine ⟨id :: before, after, rfl, ?_, ?_⟩
        · rw [firstRepeated, if_neg hid, hnone]
        · rw [List.mem_cons] at hx ⊢
          tauto
      · rintro ⟨before, after, hids, hnone, hx⟩
        cases before with
        | nil =>
          obtain ⟨rfl, -⟩ := List.cons.inj hids
          exact absurd (hx.resolve_left List.not_mem_nil) hid
        | cons y before =>
          obtain ⟨rfl, rfl⟩ := List.cons.inj hids
          rw [firstRepeated, if_neg hid] at hnone
          refine ⟨before, after, rfl, hnone, ?_⟩
          rw [List.mem_cons] at hx ⊢
          tauto

/-! ## Validity -/

/-- A definition without faults: runs start at a node, no id is used twice, and every reference
leads to a node. -/
structure Sound (d : Definition) : Prop where
  start_mem : d.startNode ∈ d.nodeIds
  nodup : d.nodeIds.Nodup
  references_mem : ∀ n ∈ d.nodes, ∀ x ∈ n.references, x ∈ d.nodeIds

/-- What is reported of a definition with faults. -/
inductive FirstFault (d : Definition) : DefinitionError → Prop
  | emptyWorkflow (h : d.nodes = []) : FirstFault d (.emptyWorkflow d.id)
  | missingStartNode (hnodes : d.nodes ≠ []) (h : d.startNode ∉ d.nodeIds) :
      FirstFault d (.missingStartNode d.startNode)
  | dangling (hstart : d.startNode ∈ d.nodeIds) (before after : List NodeDefinition)
      (n : NodeDefinition) (hnodes : d.nodes = before ++ n :: after)
      (hbefore : ∀ p ∈ before, ∀ x, p.RefersTo x → x ∈ d.nodeIds) (e : DefinitionError)
      (h : FirstDangling d.nodeIds n e) : FirstFault d e
  | duplicateNode (hstart : d.startNode ∈ d.nodeIds)
      (hreferences : ∀ n ∈ d.nodes, ∀ x, n.RefersTo x → x ∈ d.nodeIds)
      (before after : List NodeDefinition) (n : NodeDefinition)
      (hnodes : d.nodes = before ++ n :: after) (hbefore : (before.map NodeDefinition.id).Nodup)
      (h : n.id ∈ before.map NodeDefinition.id) : FirstFault d (.duplicateNode n.id)

variable {d : Definition}

theorem sound_of_validate (h : d.validate = .ok ()) : d.Sound := by
  obtain ⟨-, h⟩ := of_guard h
  obtain ⟨hstart, h⟩ := of_guard h
  obtain ⟨⟨⟩, hchecked, h⟩ := bind_eq_ok.1 h
  split at h
  · cases h
  rename_i hrepeated
  exact ⟨not_not.1 hstart, (firstRepeated_eq_none_iff.1 hrepeated).1,
    checkNodes_eq_ok_iff.1 hchecked⟩

theorem Sound.nodes_ne_nil (h : d.Sound) : d.nodes ≠ [] := by
  intro hempty
  have hstart := h.start_mem
  rw [nodeIds, hempty] at hstart
  cases hstart

/-- A definition without faults is valid. -/
theorem validate_of_sound (h : d.Sound) : d.validate = .ok () := by
  have hrepeated : firstRepeated [] d.nodeIds = none :=
    firstRepeated_eq_none_iff.2 ⟨h.nodup, fun _ _ => List.not_mem_nil⟩
  unfold validate
  rw [if_neg (by simpa using h.nodes_ne_nil), if_neg (not_not.2 h.start_mem),
    checkNodes_eq_ok_iff.2 h.references_mem, hrepeated]
  rfl

theorem validate_of_firstFault (h : d.FirstFault e) : d.validate = .error e := by
  unfold validate
  cases h with
  | emptyWorkflow h =>
    rw [if_pos (by simpa using h)]
    rfl
  | missingStartNode hnodes h =>
    rw [if_neg (by simpa using hnodes), if_pos h]
    rfl
  | dangling hstart before after n hnodes hbefore e h =>
    have hsound : ∀ p ∈ before, ∀ x ∈ p.references, x ∈ d.nodeIds := by
      intro p hp x hx
      exact hbefore p hp x (NodeDefinition.mem_references_iff.1 hx)
    rw [if_neg (by simp [hnodes]), if_neg (not_not.2 hstart),
      checkNodes_eq_error_iff.2 ⟨before, n, after, hnodes, hsound, h⟩]
    rfl
  | duplicateNode hstart hreferences before after n hnodes hbefore h =>
    have hsound : ∀ n ∈ d.nodes, ∀ x ∈ n.references, x ∈ d.nodeIds := by
      intro n hn x hx
      exact hreferences n hn x (NodeDefinition.mem_references_iff.1 hx)
    have hids :
        d.nodeIds = before.map NodeDefinition.id ++ n.id :: after.map NodeDefinition.id := by
      rw [nodeIds, hnodes, List.map_append, List.map_cons]
    have hrepeated : firstRepeated [] d.nodeIds = some n.id := by
      apply firstRepeated_eq_some_iff.2
      refine ⟨_, _, hids, ?_, Or.inl h⟩
      exact firstRepeated_eq_none_iff.2 ⟨hbefore, fun _ _ => List.not_mem_nil⟩
    rw [if_neg (by simp [hnodes]), if_neg (not_not.2 hstart), checkNodes_eq_ok_iff.2 hsound,
      hrepeated]
    rfl

theorem firstFault_of_validate (h : d.validate = .error e) : d.FirstFault e := by
  rcases guard_eq_error.1 h with ⟨hempty, rfl⟩ | ⟨hnodes, h⟩
  · exact .emptyWorkflow (List.isEmpty_iff.1 hempty)
  rcases guard_eq_error.1 h with ⟨hstart, rfl⟩ | ⟨hstart, h⟩
  · exact .missingStartNode (by simpa using hnodes) hstart
  have hstart := not_not.1 hstart
  rcases bind_eq_error.1 h with h | ⟨⟨⟩, hchecked, h⟩
  · obtain ⟨before, n, after, hnodes, hbefore, hn⟩ := checkNodes_eq_error_iff.1 h
    refine .dangling hstart before after n hnodes ?_ e hn
    intro p hp x hx
    exact hbefore p hp x (NodeDefinition.mem_references_iff.2 hx)
  · split at h
    · rename_i id hrepeated
      cases h
      obtain ⟨before, after, hids, hnone, hid⟩ := firstRepeated_eq_some_iff.1 hrepeated
      obtain ⟨first, rest, hnodes, rfl, hrest⟩ := List.map_eq_append_iff.1 hids
      obtain ⟨n, after, rfl, rfl, rfl⟩ := List.map_eq_cons_iff.1 hrest
      refine .duplicateNode hstart ?_ first after n hnodes
        (firstRepeated_eq_none_iff.1 hnone).1 (hid.resolve_right List.not_mem_nil)
      intro p hp x hx
      exact checkNodes_eq_ok_iff.1 hchecked p hp x (NodeDefinition.mem_references_iff.2 hx)
    · cases h

/-- Which definitions are valid, and which fault of the others is reported: just the first one. -/
theorem validate_reports (d : Definition) :
    (d.validate = .ok () ↔
      d.nodes ≠ [] ∧ d.startNode ∈ d.nodeIds ∧
      (∀ n ∈ d.nodes, ∀ x, n.RefersTo x → x ∈ d.nodeIds) ∧ d.nodeIds.Nodup) ∧
    ∀ e, d.validate = .error e ↔ d.FirstFault e := by
  refine ⟨⟨fun h => ?_, fun ⟨_, hstart, hreferences, hnodup⟩ => ?_⟩, fun e => ?_⟩
  · have hsound := sound_of_validate h
    refine ⟨hsound.nodes_ne_nil, hsound.start_mem, ?_, hsound.nodup⟩
    intro n hn x hx
    exact hsound.references_mem n hn x (NodeDefinition.mem_references_iff.2 hx)
  · apply validate_of_sound
    refine ⟨hstart, hnodup, ?_⟩
    intro n hn x hx
    exact hreferences n hn x (NodeDefinition.mem_references_iff.1 hx)
  · exact ⟨firstFault_of_validate, validate_of_firstFault⟩

end Definition

end Workflow
