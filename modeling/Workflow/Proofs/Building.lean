import Workflow.Proofs.Endings

/-!
Building is all or nothing. A workflow that is not valid, or has a node whose behaviour or policy
cannot be made, fails before anything runs and for the first such reason; a workflow without such a
fault never fails for one.
-/
namespace Workflow

open Fallible (exists_bind_iff exists_mapM_iff exists_of_mapM_eq_error)

namespace Node.Policy

/-! ## Policies -/

/-- The entry under a key is missing, null or one of some values. -/
def Allows (config : Payload) (key : String) (values : Json → Prop) : Prop :=
  ∀ v, Payload.find? config key = some v → v = .null ∨ values v

/-- An integer of 32 bits that is not negative. -/
def IsCount (v : Json) : Prop := ∃ n : Nat, n < 2 ^ 32 ∧ v = .number (.integer n)

/-- A finite number that is not negative. -/
def IsSeconds (v : Json) : Prop :=
  ∃ n : Json.Number, v = .number n ∧ n.toFloat.isFinite = true ∧ 0.0 ≤ n.toFloat

/-- A configuration whose entries for the policy are in order. -/
structure Valid (config : Payload) : Prop where
  retries : Allows config "retries" IsCount
  retryDelay : Allows config "retry_delay" IsSeconds
  timeout : Allows config "timeout" IsSeconds

theorem isSome_retries?_iff {v : Json} : (retries? v).isSome ↔ IsCount v := by
  constructor
  · intro h
    obtain ⟨k, hk⟩ := Option.isSome_iff_exists.1 h
    cases v with
    | number n =>
      obtain ⟨m, hm, hsmall⟩ := Option.bind_eq_some_iff.1 hk
      cases n with
      | integer i =>
        rw [Json.Number.toNat?, Option.ite_none_right_eq_some] at hm
        obtain ⟨hi, ⟨⟩⟩ := hm
        rw [Option.ite_none_right_eq_some] at hsmall
        exact ⟨i.toNat, hsmall.1, by rw [Int.toNat_of_nonneg hi]⟩
      | float x => cases hm
    | null => cases hk
    | bool b => cases hk
    | string s => cases hk
    | array items => cases hk
    | object fields => cases hk
  · rintro ⟨n, hn, rfl⟩
    rw [retries?, Json.Number.toNat?, if_pos (Int.natCast_nonneg n), Option.bind_some,
      Int.toNat_natCast, if_pos hn]
    rfl

theorem isSome_seconds?_iff {v : Json} : (seconds? v).isSome ↔ IsSeconds v := by
  cases v with
  | number n =>
    simp [seconds?, IsSeconds]
  | null => simp [seconds?, IsSeconds]
  | bool b => simp [seconds?, IsSeconds]
  | string s => simp [seconds?, IsSeconds]
  | array items => simp [seconds?, IsSeconds]
  | object fields => simp [seconds?, IsSeconds]

section

variable {config : Payload} {key : String} {values : Json → Prop}

theorem allows_of_none (h : Payload.find? config key = none) : Allows config key values := by
  intro v hv
  rw [h] at hv
  cases hv

theorem allows_iff_of_some {v : Json} (h : Payload.find? config key = some v) :
    Allows config key values ↔ v = .null ∨ values v := by
  rw [Allows, h]
  exact ⟨fun hallows => hallows v rfl, by rintro hv _ ⟨⟩; exact hv⟩

end

/-- A duration can be read just if its entry is in order. -/
theorem exists_duration_iff {node key : String} {config : Payload} {default : Time.Duration} :
    (∃ x, duration node config key default = .ok x) ↔ Allows config key IsSeconds := by
  rw [duration]
  split
  · rename_i hfind
    exact iff_of_true ⟨default, rfl⟩ (allows_of_none hfind)
  · rename_i hfind
    exact iff_of_true ⟨default, rfl⟩ ((allows_iff_of_some hfind).2 (Or.inl rfl))
  · rename_i v hne hfind
    rw [allows_iff_of_some hfind, or_iff_right hne, ← isSome_seconds?_iff]
    cases seconds? v with
    | none => exact iff_of_false nofun nofun
    | some x => exact iff_of_true ⟨_, rfl⟩ rfl

/-- A policy can be made just if its entries are in order. -/
theorem exists_ofConfig_iff {node : String} {config : Payload} {engine : EngineConfig} :
    (∃ p, ofConfig node config engine = .ok p) ↔ Valid config := by
  have hdurations (retries : Nat) : (∃ p, (do
        let retryDelay ← duration node config "retry_delay" engine.retryDelay
        let timeout ← duration node config "timeout" engine.nodeTimeout
        return Policy.mk retries retryDelay timeout) = .ok p) ↔
      Allows config "retry_delay" IsSeconds ∧ Allows config "timeout" IsSeconds := by
    rw [exists_bind_iff, ← exists_duration_iff, ← exists_duration_iff, ← exists_and_right]
    exact exists_congr fun _ => and_congr_right fun _ =>
      exists_bind_iff.trans (exists_congr fun _ => and_iff_left ⟨_, rfl⟩)
  have hvalid (h : Allows config "retries" IsCount) : Valid config ↔
      Allows config "retry_delay" IsSeconds ∧ Allows config "timeout" IsSeconds :=
    ⟨fun hvalid => ⟨hvalid.retryDelay, hvalid.timeout⟩, fun hvalid => ⟨h, hvalid.1, hvalid.2⟩⟩
  rw [ofConfig]
  split
  · rename_i hfind
    rw [hvalid (allows_of_none hfind)]
    exact hdurations 0
  · rename_i hfind
    rw [hvalid ((allows_iff_of_some hfind).2 (Or.inl rfl))]
    exact hdurations 0
  · rename_i v hne hfind
    have hcount : Allows config "retries" IsCount ↔ (retries? v).isSome := by
      rw [allows_iff_of_some hfind, or_iff_right hne, isSome_retries?_iff]
    cases hretries : retries? v with
    | none =>
      rw [hretries] at hcount
      exact iff_of_false nofun fun h => nomatch hcount.1 h.retries
    | some n =>
      rw [hretries] at hcount
      rw [hvalid (hcount.2 rfl)]
      exact hdurations n

end Node.Policy

namespace Run

variable {σ : Type}

namespace Engine

/-! ## Nodes -/

/-- A node that can be built: its type makes it from its configuration, and its policy is in
order. -/
structure CanBuild (e : Engine σ) (n : NodeDefinition) : Prop where
  created : ∃ b, e.registry.create n.nodeType ⟨n.id, n.name, n.config⟩ = .ok b
  policy : Node.Policy.Valid n.config

/-- Why a node cannot be built; its type is asked first. -/
inductive Flaw (e : Engine σ) (n : NodeDefinition) : Node.Error → Prop
  | construction (fault : Node.Error)
      (h : e.registry.create n.nodeType ⟨n.id, n.name, n.config⟩ = .error fault) : Flaw e n fault
  | policy (fault : Node.Error)
      (hcreated : ∃ b, e.registry.create n.nodeType ⟨n.id, n.name, n.config⟩ = .ok b)
      (h : Node.Policy.ofConfig n.id n.config e.config = .error fault) : Flaw e n fault

variable {e : Engine σ} {n : NodeDefinition}

theorem exists_ofDefinition_iff :
    (∃ p, Prepared.ofDefinition e.registry e.config n = .ok p) ↔ e.CanBuild n := by
  rw [Prepared.ofDefinition, exists_bind_iff]
  constructor
  · rintro ⟨b, hcreate, hrest⟩
    obtain ⟨policy, hpolicy, -⟩ := exists_bind_iff.1 hrest
    exact ⟨⟨b, hcreate⟩, Node.Policy.exists_ofConfig_iff.1 ⟨policy, hpolicy⟩⟩
  · rintro ⟨⟨b, hcreate⟩, hvalid⟩
    obtain ⟨policy, hpolicy⟩ := Node.Policy.exists_ofConfig_iff.2 hvalid
    exact ⟨b, hcreate, exists_bind_iff.2 ⟨policy, hpolicy, _, rfl⟩⟩

theorem flaw_of_ofDefinition {fault : Node.Error}
    (h : Prepared.ofDefinition e.registry e.config n = .error fault) : e.Flaw n fault := by
  rw [Prepared.ofDefinition] at h
  cases hcreate : e.registry.create n.nodeType ⟨n.id, n.name, n.config⟩ with
  | error fault' =>
    rw [hcreate] at h
    cases h
    exact .construction fault hcreate
  | ok b =>
    cases hpolicy : Node.Policy.ofConfig n.id n.config e.config with
    | error fault' =>
      rw [hcreate, hpolicy] at h
      cases h
      exact .policy fault ⟨b, hcreate⟩ hpolicy
    | ok policy =>
      rw [hcreate, hpolicy] at h
      cases h

/-! ## Workflows -/

/-- A workflow that can be built: it is valid, and so are all of its nodes. -/
structure Builds (e : Engine σ) (d : Definition) : Prop where
  valid : ¬ ∃ fault, d.validate = .error fault
  nodes : ∀ n ∈ d.nodes, e.CanBuild n

/-- The error of a workflow that cannot be built: it is not valid, or it is and the node is the
first one in its order that cannot be built. -/
inductive Refuses (e : Engine σ) (d : Definition) : String → Prop
  | definition (fault : DefinitionError) (h : d.validate = .error fault) :
      Refuses e d ("Invalid workflow definition: " ++ fault.message)
  | node (hvalid : d.validate = .ok ()) (before after : List NodeDefinition) (n : NodeDefinition)
      (hnodes : d.nodes = before ++ n :: after) (hbefore : ∀ p ∈ before, e.CanBuild p)
      (fault : Node.Error) (hflaw : e.Flaw n fault) :
      Refuses e d ("Failed to build node graph: " ++ fault.message)

variable {d : Definition}

theorem refuses_of_prepare {reason : Failure} (h : e.prepare d = .error reason) :
    e.Refuses d reason.message := by
  rcases prepare_eq_error h with ⟨fault, hinvalid, rfl⟩ | ⟨fault, hvalid, hmade, rfl⟩
  · exact .definition fault hinvalid
  · obtain ⟨before, n, after, hnodes, hbefore, hfails⟩ := exists_of_mapM_eq_error hmade
    exact .node hvalid before after n hnodes
      (fun p hp => exists_ofDefinition_iff.1 (hbefore p hp)) fault (flaw_of_ofDefinition hfails)

theorem builds_of_prepare {nodes : List (Prepared σ)} (h : e.prepare d = .ok nodes) :
    e.Builds d := by
  obtain ⟨hvalid, hmade⟩ := prepare_eq_ok h
  refine ⟨?_, fun n hn => exists_ofDefinition_iff.1 (exists_mapM_iff.1 ⟨nodes, hmade⟩ n hn)⟩
  rintro ⟨fault, hinvalid⟩
  rw [hvalid] at hinvalid
  cases hinvalid

theorem exists_prepare_iff : (∃ nodes, e.prepare d = .ok nodes) ↔ e.Builds d := by
  refine ⟨fun ⟨nodes, h⟩ => builds_of_prepare h, fun h => ?_⟩
  cases hprepare : e.prepare d with
  | ok nodes => exact ⟨nodes, rfl⟩
  | error reason =>
    rcases prepare_eq_error hprepare with ⟨fault, hinvalid, -⟩ | ⟨fault, -, hmade, -⟩
    · exact absurd ⟨fault, hinvalid⟩ h.valid
    · obtain ⟨nodes, hok⟩ :=
        exists_mapM_iff.2 fun n hn => exists_ofDefinition_iff.2 (h.nodes n hn)
      rw [hok] at hmade
      cases hmade

end Engine

/-! ## Runs -/

variable (e : Engine σ) (d : Definition) (input : Payload) (cancellation : Cancellation)
  (id : Id) (start : Time.Timestamp) (world : σ)

/-- A run of a workflow that can be built does not fail for building. -/
theorem error_ne_of_prepare {e : Engine σ} {d : Definition} {nodes : List (Prepared σ)}
    (h : e.prepare d = .ok nodes) {reason : Failure}
    (hkind : reason.kind = .definition ∨ reason.kind = .build) :
    (e.execute d input cancellation id start world).state.error ≠ some reason.message := by
  intro herror
  have hends := endsWell_execute e d input cancellation id start world
  obtain ⟨actual, hactual, hexplained⟩ := hends.explained
    (hends.coherent.failed_iff.2 (by rw [herror]; rfl))
  rw [hactual.error_eq, Option.some_inj] at herror
  rw [← Failure.kind_eq_of_message_eq herror] at hkind
  rcases hexplained with hnode | hobstacle
  · rw [hnode] at hkind
    rcases hkind with hkind | hkind <;> cases hkind
  · cases hobstacle with
    | definition fault hinvalid =>
      exact (Engine.builds_of_prepare h).valid ⟨fault, hinvalid⟩
    | build fault hvalid hmade =>
      rw [(Engine.prepare_eq_ok h).2] at hmade
      cases hmade
    | iterationLimit nodes _ => rcases hkind with hkind | hkind <;> cases hkind
    | timeLimit nodes _ => rcases hkind with hkind | hkind <;> cases hkind

/-- What is in the shared store when a run begins. -/
theorem globalState_opening : (opening d input id start).globalState =
    [("execution_id", id.toJson), ("start_time", .string start.offsetText),
      ("workflow_id", .string d.id)] := by
  simp only [opening, State.new, Payload.ofList, Payload.insertAll, List.foldl_cons, List.foldl_nil,
    Payload.insert, String.reduceEq, String.reduceLT, if_true, if_false]

/-- Building is all or nothing, also for a run that is cancelled already. When the workflow is not
valid or one of its nodes cannot be built, the run fails for the first such reason; nothing has run
and nothing waits, the world is as it was, and the shared store holds what a run starts with. In
every other case the error of the run, if it has one, is not one of building. -/
theorem execute_builds :
    let run := e.execute d input cancellation id start world
    (¬ e.Builds d →
      run.state.status = .failed ∧
      (∃ message, run.state.error = some message ∧ e.Refuses d message) ∧
      run.state.results = [] ∧ run.state.executed = [] ∧ run.state.pending = [] ∧
      run.state.output = none ∧
      run.state.globalState =
        [("execution_id", id.toJson), ("start_time", .string start.offsetText),
          ("workflow_id", .string d.id)] ∧
      run.world = world ∧ run.ticks = 0) ∧
    (e.Builds d → ∀ reason : Failure, reason.kind = .definition ∨ reason.kind = .build →
      run.state.error ≠ some reason.message) := by
  intro run
  rw [← Engine.exists_prepare_iff]
  refine ⟨fun hfails => ?_, fun ⟨nodes, h⟩ reason hkind =>
    error_ne_of_prepare input cancellation id start world h hkind⟩
  cases hprepare : e.prepare d with
  | ok nodes => exact absurd ⟨nodes, hprepare⟩ hfails
  | error reason =>
    have hrun : run = _ :=
      Engine.execute_of_prepare_eq_error input id start world hprepare cancellation
    rw [hrun]
    exact ⟨rfl, ⟨reason.message, rfl, Engine.refuses_of_prepare hprepare⟩, rfl, rfl, rfl, rfl,
      globalState_opening d input id start, rfl, rfl⟩

/-- A workflow whose second node has a number of retries that is none. -/
def lastRetry : Definition where
  id := "last-retry"
  startNode := "fetch"
  nodes :=
    [{ id := "fetch", name := "Fetch", nodeType := "constant", nextNodes := ["store"] },
      { id := "store", name := "Store", nodeType := "constant",
        config := [("retries", .number (.integer (-1)))] }]

def lastRetryEngine : Engine Unit where
  config := {}
  registry := [("constant", fun _ => .ok (.constant (.ok ⟨[], none⟩) .zero))]

theorem execute_builds_lastRetry :
    ¬ lastRetryEngine.Builds lastRetry ∧
      let run := lastRetryEngine.execute lastRetry [] .already ⟨[]⟩ ⟨0, 0⟩ ()
      run.state.status = .failed ∧
      (∃ message, run.state.error = some message ∧ lastRetryEngine.Refuses lastRetry message) ∧
      run.state.error = some ("Failed to build node graph: Invalid configuration for node 'store': "
        ++ "'retries' must be a non-negative integer") := by
  have hfails : ¬ lastRetryEngine.Builds lastRetry := by
    intro h
    have hretries := (h.nodes _ (List.mem_cons_of_mem _ List.mem_cons_self)).policy.retries
      (.number (.integer (-1))) rfl
    rcases hretries with hnull | ⟨n, -, hn⟩
    · cases hnull
    · injection hn with hn
      injection hn with hn
      omega
  obtain ⟨hstatus, herror, -⟩ :=
    (execute_builds lastRetryEngine lastRetry [] .already ⟨[]⟩ ⟨0, 0⟩ ()).1 hfails
  exact ⟨hfails, hstatus, herror, by decide +kernel⟩

end Run

end Workflow
