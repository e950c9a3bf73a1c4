import Workflow.Proofs.Endings
import Workflow.Proofs.Reachability
import Workflow.Proofs.Schedule

/-!
The limit on the ids that a run takes. A traversal meets the limit just if it can take that many
steps and something still waits; otherwise any larger limit gives the same traversal. A step with a
known id is a turn of a node that did not run before, so where nothing unknown is named there are
no more steps than nodes, and a limit that no workflow of its size can meet does nothing.
-/
namespace Workflow.Run

variable {σ : Type}

/-! ## Traversals -/

section Traversals

variable {nodes : List (Prepared σ)} {deadline : Option Deadline} {limit left : Nat} {s : State}
  {m : Moment σ}

/-- A traversal meets its limit just if something waits after as many steps as it may take. -/
theorem exit_traverse_eq_iff :
    (traverse nodes deadline limit left s m).exit = .failed (.iterationLimit limit) ↔
      ∃ s' m', Steps nodes deadline left s m s' m' ∧ s'.pending ≠ [] := by
  constructor
  · intro h
    obtain ⟨k, s', m', hk, hsteps, hhalts⟩ := traverse_halts nodes deadline limit left s m
    generalize traverse nodes deadline limit left s m = t at h hhalts
    generalize hrest : left - k = rest at hhalts
    cases hhalts with
    | drained _ _ _ _ => cases h
    | exhausted _ _ hwaits =>
      obtain rfl : left = k := by omega
      exact ⟨s', m', hsteps, hwaits⟩
    | interrupted _ _ _ n rest m'' _ => cases h
    | failed _ _ _ n rest c r m'' _ _ => cases h
  · rintro ⟨s', m', hsteps, hwaits⟩
    have heq := hsteps.traverse_eq limit 0
    rw [Nat.zero_add, traverse_zero_of_ne_nil hwaits] at heq
    rw [heq]

theorem traverse_of_le
    (h : (traverse nodes deadline limit left s m).exit ≠ .failed (.iterationLimit limit))
    {left' : Nat} (hle : left ≤ left') (limit' : Nat) :
    traverse nodes deadline limit' left' s m = traverse nodes deadline limit left s m := by
  obtain ⟨k, s', m', hk, hsteps, hhalts⟩ := traverse_halts nodes deadline limit left s m
  obtain ⟨more, rfl⟩ : ∃ more, left' = left - k + more + k := ⟨left' - left, by omega⟩
  rw [hsteps.traverse_eq]
  generalize traverse nodes deadline limit left s m = t at h hhalts ⊢
  generalize left - k = rest at hhalts
  cases hhalts with
  | drained _ _ _ hempty => exact traverse_of_nil _ hempty
  | exhausted _ _ _ => exact absurd rfl h
  | interrupted _ _ _ n rest m'' hbroken =>
    rw [Nat.add_right_comm]
    exact traverse_of_brokenOff hbroken
  | failed _ _ _ n rest c r m'' hturn hstops =>
    rw [Nat.add_right_comm, traverse_of_turn hturn, hstops]
    rfl

end Traversals

/-! ## Known ids -/

section Known

variable {nodes : List (Prepared σ)} {ids : List String} {deadline : Option Deadline} {k : Nat}
  {s s' : State} {m m' : Moment σ}

theorem Steps.results_subset (h : Steps nodes deadline k s m s' m') : s.results ⊆ s'.results := by
  refine h.preserve (I := fun s' _ => s.results ⊆ s'.results) ?_ (List.Subset.refl _)
  intro s₁ m₁ s₂ m₂ hstep hsubset
  cases hstep with
  | skip id rest _ _ => exact hsubset
  | turn n rest c r _ _ _ =>
    rw [State.addPending_results, State.settle_results]
    exact List.Subset.trans hsubset (List.subset_append_left _ _)

/-- As long as only known ids are named, every step lets one more node run. -/
theorem Steps.length_executed {start : String} (hsteps : Steps nodes deadline k s m s' m')
    (hids : nodes.map Prepared.id = ids) (hs : Scheduled start ids s) (hwithin : s.Within ids)
    (hnamed : ∀ r ∈ s'.results, ∀ x ∈ r.nextNodes, x ∈ ids) :
    s'.Within ids ∧ s'.executed.length = s.executed.length + k := by
  induction hsteps with
  | nil s m => exact ⟨hwithin, rfl⟩
  | cons hfirst hrest ih =>
    have hs' := hs.step hids hfirst
    cases hfirst with
    | skip id rest hwaits hnone =>
      rw [find?_id_eq_none, hids] at hnone
      exact absurd (hwithin.mem_of_waits hwaits) hnone
    | turn n rest c r m₁ hturn hgoes =>
      have hr := hrest.results_subset
      rw [State.addPending_results, State.settle_results] at hr
      have hnext := hnamed r (hr (List.mem_append_right _ List.mem_cons_self))
      obtain ⟨hlater, hlength⟩ := ih hs' ((hturn.within hwithin).addPending hnext) hnamed
      refine ⟨hlater, ?_⟩
      rw [hlength, State.addPending_executed, hs.settle_eq (hturn.nodeId_eq ▸ hturn.waits),
        List.length_append, List.length_singleton]
      omega

/-- Where only known ids are named, something waits only after fewer steps than there are nodes. -/
theorem Steps.lt_length {start : String} (hsteps : Steps nodes deadline k s m s' m')
    (hids : nodes.map Prepared.id = ids) (hs : Scheduled start ids s) (hwithin : s.Within ids)
    (hnamed : ∀ r ∈ s'.results, ∀ x ∈ r.nextNodes, x ∈ ids) (hwaits : s'.pending ≠ []) :
    k < ids.length := by
  obtain ⟨hwithin', hlength⟩ := hsteps.length_executed hids hs hwithin hnamed
  have hle := (hs.steps hids hsteps).nodup.length_le_of_subset hwithin'
  have hpos := List.length_pos_of_ne_nil hwaits
  rw [List.length_append] at hle
  omega

end Known

/-! ## Engines -/

namespace Engine

def withLimit (e : Engine σ) (limit : Nat) : Engine σ :=
  { e with config := { e.config with maxIterations := limit } }

variable {e : Engine σ} {d : Definition} {nodes : List (Prepared σ)}

theorem prepare_withLimit (e : Engine σ) (limit : Nat) (d : Definition) :
    (e.withLimit limit).prepare d = e.prepare d := rfl

/-- The error of a run says that it met the limit just if its traversal did. -/
theorem error_execute_eq_iff (h : e.prepare d = .ok nodes) (input : Payload)
    {cancellation : Cancellation} (hc : cancellation ≠ .already) (id : Id)
    (start : Time.Timestamp) (world : σ) :
    (e.execute d input cancellation id start world).state.error =
        some (Failure.iterationLimit e.config.maxIterations).message ↔
      (traverse nodes (some (e.deadline cancellation)) e.config.maxIterations
        e.config.maxIterations (opening d input id start) ⟨world, 0⟩).exit =
          .failed (.iterationLimit e.config.maxIterations) := by
  -- No other failure has the message of the limit.
  have hother {reason : Failure} (hkind : reason.kind ≠ .iterationLimit) :
      some reason.message ≠ some (Failure.iterationLimit e.config.maxIterations).message :=
    fun heq => hkind (Failure.kind_eq_of_message_eq (Option.some_inj.1 heq))
  rw [execute_of_ne_already input id start world h hc]
  obtain ⟨k, s, m, -, hsteps, hhalts⟩ := traverse_halts nodes (some (e.deadline cancellation))
    e.config.maxIterations e.config.maxIterations (opening d input id start) ⟨world, 0⟩
  have hrunning : s.status = .running := hsteps.sameRun.status
  have hnone : s.error = none := hsteps.sameRun.error
  generalize traverse nodes (some (e.deadline cancellation)) e.config.maxIterations
    e.config.maxIterations (opening d input id start) ⟨world, 0⟩ = t at hhalts ⊢
  generalize e.config.maxIterations - k = left at hhalts
  dsimp only
  cases hhalts with
  | drained _ _ _ _ =>
    rw [e.conclude_finished _ _ hrunning]
    exact iff_of_false (by rw [hnone]; nofun) nofun
  | exhausted _ _ _ =>
    rw [e.conclude_failed _ _ hrunning]
    exact iff_of_true rfl rfl
  | interrupted _ _ _ n rest m' _ =>
    have htaken : (s.taken rest).status = .running := hrunning
    cases (e.cancelDeadline cancellation).isSome with
    | false =>
      rw [e.conclude_timedOut _ htaken]
      exact iff_of_false (hother nofun) nofun
    | true =>
      rw [e.conclude_cancelled _ htaken]
      exact iff_of_false (by rw [show (s.taken rest).error = none from hnone]; nofun) nofun
  | failed _ _ _ n rest c r m' _ _ =>
    have hsettled : (s.settle rest c r).status = .running := hrunning
    rw [e.conclude_failed _ _ hsettled]
    exact iff_of_false (hother nofun) nofun

theorem error_execute_already (h : e.prepare d = .ok nodes) (input : Payload) (id : Id)
    (start : Time.Timestamp) (world : σ) :
    (e.execute d input .already id start world).state.error = none := by
  rw [execute_already input id start world h]
  rfl

end Engine

/-! ## Runs -/

section Runs

variable {e : Engine σ} {d : Definition} {nodes : List (Prepared σ)}
  (h : e.prepare d = .ok nodes) (input : Payload) (cancellation : Cancellation) (id : Id)
  (start : Time.Timestamp) (world : σ)
include h

/-- A run fails at its limit just if something waits after as many steps as it may take. -/
theorem error_execute_iff :
    (e.execute d input cancellation id start world).state.error =
        some (Failure.iterationLimit e.config.maxIterations).message ↔
      cancellation ≠ .already ∧ ∃ s m,
        Steps nodes (some (e.deadline cancellation)) e.config.maxIterations
          (opening d input id start) ⟨world, 0⟩ s m ∧ s.pending ≠ [] := by
  by_cases hc : cancellation = .already
  · subst hc
    rw [Engine.error_execute_already h]
    exact iff_of_false nofun fun hne => hne.1 rfl
  · rw [Engine.error_execute_eq_iff h input hc, exit_traverse_eq_iff]
    exact (and_iff_right hc).symm

/-- A run that takes as many steps as it may has the results of these steps. -/
theorem results_execute_of_steps (hc : cancellation ≠ .already) {s : State} {m : Moment σ}
    (hsteps : Steps nodes (some (e.deadline cancellation)) e.config.maxIterations
      (opening d input id start) ⟨world, 0⟩ s m) (hwaits : s.pending ≠ []) :
    (e.execute d input cancellation id start world).state.results = s.results := by
  have heq := hsteps.traverse_eq e.config.maxIterations 0
  rw [Nat.zero_add, traverse_zero_of_ne_nil hwaits] at heq
  have hrunning : s.status = .running := hsteps.sameRun.status
  rw [Engine.execute_of_ne_already input id start world h hc, heq]
  dsimp only
  rw [e.conclude_failed _ _ hrunning]

/-- A run that does not fail at its limit is the same under any larger one. -/
theorem execute_withLimit
    (hnot : (e.execute d input cancellation id start world).state.error ≠
      some (Failure.iterationLimit e.config.maxIterations).message) {limit : Nat}
    (hle : e.config.maxIterations ≤ limit) :
    (e.withLimit limit).execute d input cancellation id start world =
      e.execute d input cancellation id start world := by
  have hsame : (e.withLimit limit).prepare d = .ok nodes := (e.prepare_withLimit limit d).trans h
  by_cases hc : cancellation = .already
  · subst hc
    rw [Engine.execute_already input id start world h,
      Engine.execute_already input id start world hsame]
  · rw [Ne, Engine.error_execute_eq_iff h input hc] at hnot
    have heq := traverse_of_le hnot hle limit
    rw [Engine.execute_of_ne_already input id start world hsame hc,
      Engine.execute_of_ne_already input id start world h hc, ← heq]
    rfl

theorem nextNodes_mem_of_isBuiltin (hbuiltin : e.registry.IsBuiltin) {k : Nat} {s : State}
    {m : Moment σ} {deadline : Option Deadline}
    (hsteps : Steps nodes deadline k (opening d input id start) ⟨world, 0⟩ s m) :
    ∀ r ∈ s.results, ∀ x ∈ r.nextNodes, x ∈ d.nodeIds := by
  have hstart := Graph.startNode_mem_reachable (Engine.sound_of_prepare h).start_mem
  have hnamed := hsteps.nextNodes_mem (confines_reachable hbuiltin h)
    (within_opening hstart input id start) (List.forall_mem_nil _)
  exact fun r hr x hx => Graph.mem_nodeIds_of_mem_reachable (hnamed r hr x hx)

end Runs

/-- The limit on the ids that a run takes is exact and only a safety net. A run takes no more ids
than its limit, counting the one of the turn in which it may end, and fails at the limit just if
something still waits after that many steps. A run that does not fail at its limit is the same
under any larger one. Where nothing unknown is named, as with nodes of the built-in types, a limit
as large as the number of nodes is never met. -/
theorem execute_iterationCap {e : Engine σ} {d : Definition} {nodes : List (Prepared σ)}
    (h : e.prepare d = .ok nodes) (input : Payload) (cancellation : Cancellation) (id : Id)
    (start : Time.Timestamp) (world : σ) :
    let limit := e.config.maxIterations
    let run := e.execute d input cancellation id start world
    let capped := run.state.error = some (Failure.iterationLimit limit).message
    let Reaches (k : Nat) (s : State) (m : Moment σ) : Prop :=
      Steps nodes (some (e.deadline cancellation)) k (opening d input id start) ⟨world, 0⟩ s m
    (∃ k s m, Reaches k s m ∧ Finish e nodes cancellation start s m run ∧
      k ≤ limit ∧ (run.state.pending ≠ s.pending → k + 1 ≤ limit)) ∧
    (capped ↔ cancellation ≠ .already ∧ ∃ s m, Reaches limit s m ∧ s.pending ≠ []) ∧
    (¬ capped → ∀ larger, limit ≤ larger →
      (e.withLimit larger).execute d input cancellation id start world = run) ∧
    (d.nodes.length ≤ limit →
      (∀ r ∈ run.state.results, ∀ x ∈ r.nextNodes, x ∈ d.nodeIds) ∨ e.registry.IsBuiltin →
      ¬ capped) := by
  intro limit run capped Reaches
  refine ⟨execute_finishes_within h input cancellation id start world,
    error_execute_iff h input cancellation id start world,
    fun hnot larger hle => execute_withLimit h input cancellation id start world hnot hle, ?_⟩
  intro hlength hnamed hcapped
  obtain ⟨hc, s, m, hsteps, hwaits⟩ :=
    (error_execute_iff h input cancellation id start world).1 hcapped
  have hnamed : ∀ r ∈ s.results, ∀ x ∈ r.nextNodes, x ∈ d.nodeIds := by
    rcases hnamed with hnamed | hbuiltin
    · rwa [show run.state.results = s.results from
        results_execute_of_steps h input cancellation id start world hc hsteps hwaits] at hnamed
    · exact nextNodes_mem_of_isBuiltin h input id start world hbuiltin hsteps
  have hstart := within_opening (Engine.sound_of_prepare h).start_mem input id start
  have hlt := hsteps.lt_length (Engine.ids_of_prepare h) (.opening d input id start) hstart hnamed
    hwaits
  rw [Definition.nodeIds, List.length_map] at hlt
  exact Nat.not_lt.2 hlength hlt

/-- Two nodes that lead to each other. -/
def pair : Definition where
  id := "pair"
  startNode := "first"
  nodes :=
    [{ id := "first", name := "First", nodeType := "condition",
       config := [("field", .string "ready"), ("operator", .string "=="),
         ("true_branch", .string "second")] },
      { id := "second", name := "Second", nodeType := "condition",
        config := [("field", .string "ready"), ("operator", .string "=="),
          ("true_branch", .string "first")] }]

theorem execute_iterationCap_pair :
    ∃ nodes, (choiceEngine.withLimit 2).prepare pair = .ok nodes ∧
      ((choiceEngine.withLimit 2).execute pair [] .never ⟨[]⟩ ⟨0, 0⟩ ()).state.error ≠
        some (Failure.iterationLimit 2).message ∧
      ((choiceEngine.withLimit 1).execute pair [] .never ⟨[]⟩ ⟨0, 0⟩ ()).state.error =
        some (Failure.iterationLimit 1).message := by
  obtain ⟨nodes, h⟩ : ∃ nodes, (choiceEngine.withLimit 2).prepare pair = .ok nodes := ⟨_, rfl⟩
  have hcap := execute_iterationCap h [] .never ⟨[]⟩ ⟨0, 0⟩ ()
  refine ⟨nodes, h, ?_, by decide +kernel⟩
  exact hcap.2.2.2 (by decide) (Or.inr (Node.Registry.isBuiltin_builtins _))

end Workflow.Run
