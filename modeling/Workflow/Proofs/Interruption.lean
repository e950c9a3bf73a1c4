import Workflow.Proofs.Results

/-!
Interruption. A traversal under a deadline is compared with the one that has all the time it needs:
if the latter is in time the two are the same, and otherwise the first one stops where the other one
was after the last result that came in time. The node in flight leaves no trace.
-/
namespace Workflow.Run

variable {σ : Type} {nodes : List (Prepared σ)} {due : Deadline} {limit left t : Nat} {s : State}
  {m m' : Moment σ} {n : Prepared σ} {rest : List String} {c : Conclusion} {r : Result}

/-! ## Turns -/

theorem not_brokenOff_none : ¬ BrokenOff nodes none s m n rest m' := by
  intro hbroken
  have hsome := n.attempts_none_isSome s.latestOutput s.context (n.maxAttempts - 1) 0 m
  rw [hbroken.open_ended] at hsome
  cases hsome

theorem taken_cases_none (nodes : List (Prepared σ)) (m : Moment σ) {id : String}
    (h : s.pending = id :: rest) :
    nodes.find? (·.id = id) = none ∨ ∃ n c r m', Turn nodes none s m n rest c r m' := by
  rcases taken_cases nodes none m h with hnone | hturn | ⟨n, m', hbroken⟩
  · exact Or.inl hnone
  · exact Or.inr hturn
  · exact absurd hbroken not_brokenOff_none

namespace Turn

theorem clock_le {deadline : Option Deadline} (h : Turn nodes deadline s m n rest c r m') :
    m.clock ≤ m'.clock := by
  have hle := n.clock_le_attempts s.latestOutput s.context deadline (n.maxAttempts - 1) 0 m
  rwa [h.concluded] at hle

theorem find?_nodeId {deadline : Option Deadline} (h : Turn nodes deadline s m n rest c r m') :
    nodes.find? (·.id = r.nodeId) = some n := by
  rw [h.nodeId_eq]
  exact h.found

theorem in_time (h : Turn nodes none s m n rest c r m')
    (ht : n.isOver (some due) m'.clock = false) : Turn nodes (some due) s m n rest c r m' where
  waits := h.waits
  found := h.found
  concluded := by
    rw [← h.concluded]
    exact Prepared.attempts_of_not_isOver (by rwa [h.concluded])
  result := h.result

theorem broken_off (h : Turn nodes none s m n rest c r m')
    (ht : n.isOver (some due) m'.clock = true) :
    ∃ m'', BrokenOff nodes (some due) s m n rest m'' := by
  have hnone : (n.attempts s.latestOutput s.context (some due) (n.maxAttempts - 1) 0 m).1 = none :=
    Prepared.attempts_of_isOver (by rwa [h.concluded])
  exact ⟨_, h.waits, h.found, Prod.ext hnone rfl⟩

end Turn

/-! ## Traversals without a deadline -/

theorem Step.grows {s' : State} (h : Step nodes none s m s' m') :
    m.clock ≤ m'.clock ∧ s.results <+: s'.results := by
  cases h with
  | skip => exact ⟨Nat.le_refl _, List.prefix_rfl⟩
  | turn n rest c r _ hturn _ =>
    refine ⟨hturn.clock_le, ?_⟩
    rw [State.addPending_results, State.settle_results]
    exact List.prefix_append _ _

theorem traverse_grows (nodes : List (Prepared σ)) (limit left : Nat) (s : State) (m : Moment σ) :
    m.clock ≤ (traverse nodes none limit left s m).moment.clock ∧
      s.results <+: (traverse nodes none limit left s m).state.results := by
  obtain ⟨k, s', m', _, hsteps, hhalts⟩ := traverse_halts nodes none limit left s m
  have hgrows : m.clock ≤ m'.clock ∧ s.results <+: s'.results := by
    refine hsteps.preserve (I := fun s₁ m₁ => m.clock ≤ m₁.clock ∧ s.results <+: s₁.results) ?_
      ⟨Nat.le_refl _, List.prefix_rfl⟩
    intro s₁ m₁ s₂ m₂ hstep hgrown
    exact ⟨Nat.le_trans hgrown.1 hstep.grows.1, hgrown.2.trans hstep.grows.2⟩
  generalize traverse nodes none limit left s m = ended at hhalts ⊢
  generalize left - k = remaining at hhalts
  cases hhalts with
  | drained _ _ _ _ => exact hgrows
  | exhausted _ _ _ => exact hgrows
  | interrupted _ _ _ n rest m'' hbroken =>
    exact absurd hbroken not_brokenOff_none
  | failed _ _ _ n rest c r m'' hturn _ =>
    exact ⟨Nat.le_trans hgrows.1 hturn.clock_le, hgrows.2.trans (List.prefix_append _ _)⟩

theorem Turn.traverse_grows (h : Turn nodes none s m n rest c r m') (limit left : Nat) :
    m'.clock ≤ (traverse nodes none limit (left + 1) s m).moment.clock ∧
      s.results ++ [r] <+: (traverse nodes none limit (left + 1) s m).state.results := by
  rw [traverse_of_turn h]
  split
  · have hgrows := Run.traverse_grows nodes limit left
      ((s.settle rest c r).addPending r.nextNodes) m'
    rwa [State.addPending_results] at hgrows
  · exact ⟨Nat.le_refl _, List.prefix_rfl⟩

/-- A traversal that goes on longer keeps the results of one that stops earlier, and ends no
earlier. -/
theorem traverse_mono (nodes : List (Prepared σ)) (limit : Nat) {j k : Nat} (h : j ≤ k)
    (s : State) (m : Moment σ) :
    (traverse nodes none limit j s m).moment.clock ≤
        (traverse nodes none limit k s m).moment.clock ∧
      (traverse nodes none limit j s m).state.results <+:
        (traverse nodes none limit k s m).state.results := by
  induction j generalizing k s m with
  | zero => exact Run.traverse_grows nodes limit k s m
  | succ j ih =>
    obtain ⟨k, rfl⟩ : ∃ k', k = k' + 1 := ⟨k - 1, by omega⟩
    replace h := Nat.succ_le_succ_iff.1 h
    cases hpending : s.pending with
    | nil =>
      rw [traverse_of_nil _ hpending, traverse_of_nil _ hpending]
      exact ⟨Nat.le_refl _, List.prefix_rfl⟩
    | cons id rest =>
      rcases taken_cases_none nodes m hpending with hnone | ⟨n, c, r, m', hturn⟩
      · rw [traverse_of_skip hpending hnone, traverse_of_skip hpending hnone]
        exact ih h _ _
      · rw [traverse_of_turn hturn, traverse_of_turn hturn]
        split
        · exact ih h _ _
        · exact ⟨Nat.le_refl _, List.prefix_rfl⟩

/-! ## Traversals under a deadline -/

/-- A traversal is in time, given what it is when it has taken so many ids: it is over by the
deadline, and the deadline admits the nodes whose results come at its very tick. -/
structure InTime (nodes : List (Prepared σ)) (due : Deadline) (u : Nat → Traversal σ)
    (limit : Nat) : Prop where
  clock : (u limit).moment.clock ≤ due.tick
  admits : ∀ j < limit, ∀ n r, nodes.find? (·.id = r.nodeId) = some n →
    (u (j + 1)).state.results = (u j).state.results ++ [r] →
    (u (j + 1)).moment.clock = due.tick → due.Admits n.id n.behavior.handsOver

theorem inTime_of_lt (h : (traverse nodes none limit left s m).moment.clock < due.tick) :
    InTime nodes due (fun j => traverse nodes none limit j s m) left where
  clock := Nat.le_of_lt h
  admits j hj n r _ _ htick := by
    have hclock := (traverse_mono nodes limit (Nat.succ_le_of_lt hj) s m).1
    rw [htick] at hclock
    omega

/-- Whether a traversal is in time, by its first result and by what comes after. -/
theorem inTime_succ_iff {u : Nat → Traversal σ} : InTime nodes due u (left + 1) ↔
    (∀ n r, nodes.find? (·.id = r.nodeId) = some n →
      (u 1).state.results = (u 0).state.results ++ [r] →
      (u 1).moment.clock = due.tick → due.Admits n.id n.behavior.handsOver) ∧
    InTime nodes due (fun j => u (j + 1)) left := by
  constructor
  · intro h
    exact ⟨h.admits 0 (Nat.succ_pos left), h.clock,
      fun j hj => h.admits (j + 1) (Nat.succ_lt_succ hj)⟩
  · rintro ⟨hfirst, hrest⟩
    refine ⟨hrest.clock, ?_⟩
    intro j hj
    cases j with
    | zero => exact hfirst
    | succ j => exact hrest.admits j (Nat.lt_of_succ_lt_succ hj)

theorem inTime_of_same {u : Nat → Traversal σ}
    (hsame : ∀ j, (u (j + 1)).state.results = (u j).state.results) :
    InTime nodes due u left ↔ (u left).moment.clock ≤ due.tick := by
  refine ⟨InTime.clock, fun hclock => ⟨hclock, ?_⟩⟩
  intro j _ n r _ hresults
  rw [hsame j] at hresults
  simp at hresults

theorem inTime_of_nil (h : s.pending = []) :
    InTime nodes due (fun j => traverse nodes none limit j s m) left ↔ m.clock ≤ due.tick := by
  rw [inTime_of_same]
  · rw [traverse_of_nil _ h]
  · intro j
    rw [traverse_of_nil _ h, traverse_of_nil _ h]

theorem inTime_of_skip {id : String} (hwaits : s.pending = id :: rest)
    (hnone : nodes.find? (·.id = id) = none) :
    InTime nodes due (fun j => traverse nodes none limit j s m) (left + 1) ↔
      InTime nodes due (fun j => traverse nodes none limit j (s.taken rest) m) left := by
  rw [inTime_succ_iff]
  simp only [traverse_of_skip hwaits hnone]
  refine and_iff_right ?_
  intro n r _ hresults
  simp [traverse] at hresults

theorem inTime_of_first {u : Nat → Traversal σ}
    (hfirst : (u 1).state.results = (u 0).state.results ++ [r])
    (hfound : nodes.find? (·.id = r.nodeId) = some n) : InTime nodes due u (left + 1) ↔
      ((u 1).moment.clock = due.tick → due.Admits n.id n.behavior.handsOver) ∧
        InTime nodes due (fun j => u (j + 1)) left := by
  rw [inTime_succ_iff]
  refine and_congr_left' ⟨fun h => h n r hfound hfirst, ?_⟩
  intro hadmits n' r' hfound' hresults htick
  rw [hfirst] at hresults
  obtain rfl : r = r' := by simpa using hresults
  rw [hfound] at hfound'
  cases hfound'
  exact hadmits htick

theorem inTime_of_turn (hturn : Turn nodes none s m n rest c r m') (hgoes : r.goesOn = true) :
    InTime nodes due (fun j => traverse nodes none limit j s m) (left + 1) ↔
      n.isOver (some due) m'.clock = false ∧ InTime nodes due (fun j =>
        traverse nodes none limit j ((s.settle rest c r).addPending r.nextNodes) m') left := by
  have hgo (j : Nat) : traverse nodes none limit (j + 1) s m =
      traverse nodes none limit j ((s.settle rest c r).addPending r.nextNodes) m' := by
    rw [traverse_of_turn hturn, hgoes, if_pos rfl]
  rw [inTime_of_first (by simp only [hgo]; simp [traverse]) hturn.find?_nodeId,
    n.isOver_eq_false_iff]
  simp only [hgo]
  refine and_congr_left fun hrest => ⟨fun hfirst => ⟨?_, hfirst⟩, And.right⟩
  have hclock := (traverse_grows nodes limit left
    ((s.settle rest c r).addPending r.nextNodes) m').1
  exact Nat.le_trans hclock hrest.clock

theorem inTime_of_last_turn (hturn : Turn nodes none s m n rest c r m')
    (hstops : r.goesOn = false) :
    InTime nodes due (fun j => traverse nodes none limit j s m) (left + 1) ↔
      n.isOver (some due) m'.clock = false := by
  have hstop (j : Nat) : traverse nodes none limit (j + 1) s m =
      ⟨.failed (.node r.nodeId (r.error.getD "")), s.settle rest c r, m'⟩ := by
    rw [traverse_of_turn hturn, hstops]
    rfl
  rw [inTime_of_first (by simp only [hstop]; simp [traverse]) hturn.find?_nodeId,
    n.isOver_eq_false_iff, and_comm]
  simp only [hstop]
  rw [inTime_of_same fun _ => rfl]

theorem traverse_in_time (h : InTime nodes due (fun j => traverse nodes none limit j s m) left) :
    traverse nodes (some due) limit left s m = traverse nodes none limit left s m := by
  induction left generalizing s m with
  | zero => rfl
  | succ left ih =>
    cases hpending : s.pending with
    | nil => rw [traverse_of_nil _ hpending, traverse_of_nil _ hpending]
    | cons id rest =>
      rcases taken_cases_none nodes m hpending with hnone | ⟨n, c, r, m', hturn⟩
      · rw [traverse_of_skip hpending hnone, traverse_of_skip hpending hnone]
        exact ih ((inTime_of_skip hpending hnone).1 h)
      · cases hgoes : r.goesOn with
        | true =>
          obtain ⟨ht, hrest⟩ := (inTime_of_turn hturn hgoes).1 h
          rw [traverse_of_turn hturn, traverse_of_turn (hturn.in_time ht), hgoes, if_pos rfl,
            if_pos rfl]
          exact ih hrest
        | false =>
          have ht := (inTime_of_last_turn hturn hgoes).1 h
          rw [traverse_of_turn hturn, traverse_of_turn (hturn.in_time ht), hgoes]
          rfl

/-- Where a traversal can be cut at a tick, given what it is when it has taken so many ids: just
after some result, or at the very beginning. All that is in front came by the tick, and all that is
behind does not come before it. -/
structure CutAt (u : Nat → Traversal σ) (t i : Nat) : Prop where
  just_after : i = 0 ∨ (u (i - 1)).state.results.length < (u i).state.results.length
  in_time : ∀ j, (u j).state.results.length ≤ (u i).state.results.length →
    (u j).moment.clock ≤ t
  late : ∀ j, (u i).state.results.length < (u j).state.results.length → t ≤ (u j).moment.clock

/-- What an interruption leaves of a state: all of it but the node in flight and the unknown ids
that were skipped on the way to that node. -/
structure LeftBehind (ids : List String) (s s' : State) : Prop where
  results : s'.results = s.results
  executed : s'.executed = s.executed
  globalState : s'.globalState = s.globalState
  pending : ∃ skipped inFlight, s.pending = skipped ++ inFlight :: s'.pending ∧
    (∀ x ∈ skipped, x ∉ ids) ∧ inFlight ∈ ids

theorem LeftBehind.of_taken {ids : List String} {s' : State} {id : String}
    (h : LeftBehind ids (s.taken rest) s') (hwaits : s.pending = id :: rest) (hunknown : id ∉ ids) :
    LeftBehind ids s s' where
  results := h.results
  executed := h.executed
  globalState := h.globalState
  pending := by
    obtain ⟨skipped, inFlight, hpending, hskipped, hknown⟩ := h.pending
    rw [State.taken_pending] at hpending
    refine ⟨id :: skipped, inFlight, by rw [hwaits, hpending, List.cons_append], ?_, hknown⟩
    simpa using ⟨hunknown, hskipped⟩

namespace CutAt

variable {u : Nat → Traversal σ} {i : Nat} (hclock : (u 0).moment.clock ≤ t)
include hclock

theorem succ (h : CutAt (fun j => u (j + 1)) t i)
    (hfirst : i = 0 → (u 0).state.results.length < (u 1).state.results.length)
    (hgrows : (u 0).state.results.length ≤ (u (i + 1)).state.results.length) :
    CutAt u t (i + 1) where
  just_after := by
    refine Or.inr ?_
    cases i with
    | zero => exact hfirst rfl
    | succ i => exact h.just_after.resolve_left (Nat.succ_ne_zero i)
  in_time j hj := by
    cases j with
    | zero => exact hclock
    | succ j => exact h.in_time j hj
  late j hj := by
    cases j with
    | zero => exact absurd hj (Nat.not_lt.2 hgrows)
    | succ j => exact h.late j hj

theorem zero (h : CutAt (fun j => u (j + 1)) t 0)
    (hsame : (u 1).state.results = (u 0).state.results) : CutAt u t 0 where
  just_after := Or.inl rfl
  in_time j hj := by
    cases j with
    | zero => exact hclock
    | succ j => exact h.in_time j (by simpa [hsame] using hj)
  late j hj := by
    cases j with
    | zero => exact absurd hj (Nat.lt_irrefl _)
    | succ j => exact h.late j (by simpa [hsame] using hj)

/-- When the first result is late, the cut is at the very beginning. -/
theorem of_late (hlate : ∀ j, (u 0).state.results.length < (u (j + 1)).state.results.length ∧
    t ≤ (u (j + 1)).moment.clock) : CutAt u t 0 where
  just_after := Or.inl rfl
  in_time j hj := by
    cases j with
    | zero => exact hclock
    | succ j => exact absurd (hlate j).1 (Nat.not_lt.2 hj)
  late j hj := by
    cases j with
    | zero => exact absurd hj (Nat.lt_irrefl _)
    | succ j => exact (hlate j).2

end CutAt

/-- A traversal under a deadline is interrupted, and it stops where the one without a deadline is
just after the last result that comes in time. -/
structure StopsAtCut (nodes : List (Prepared σ)) (due : Deadline) (limit left : Nat)
    (s : State) (m : Moment σ) : Prop where
  exit : (traverse nodes (some due) limit left s m).exit = .interrupted
  cut : ∃ i ≤ left, CutAt (fun j => traverse nodes none limit j s m) due.tick i ∧
    LeftBehind (nodes.map Prepared.id) (traverse nodes none limit i s m).state
      (traverse nodes (some due) limit left s m).state

namespace StopsAtCut

/-- An unknown id in front moves the cut by one, unless the cut is before any result: then the id
is skipped on the way to the node in flight. -/
theorem of_skip {id : String} (h : StopsAtCut nodes due limit left (s.taken rest) m)
    (hstart : m.clock ≤ due.tick) (hwaits : s.pending = id :: rest)
    (hnone : nodes.find? (·.id = id) = none) :
    StopsAtCut nodes due limit (left + 1) s m where
  exit := by
    rw [traverse_of_skip hwaits hnone]
    exact h.exit
  cut := by
    obtain ⟨i, hi, hcut, hleft⟩ := h.cut
    have hskip (j : Nat) : traverse nodes none limit (j + 1) s m =
        traverse nodes none limit j (s.taken rest) m := traverse_of_skip hwaits hnone
    rw [traverse_of_skip hwaits hnone]
    simp only [← hskip] at hcut hleft
    cases i with
    | zero =>
      rw [hskip, traverse] at hleft
      refine ⟨0, Nat.zero_le _, hcut.zero hstart (by rw [hskip]; rfl), ?_⟩
      exact hleft.of_taken hwaits (find?_id_eq_none.1 hnone)
    | succ i =>
      have hfirst : i + 1 = 0 → (traverse nodes none limit 0 s m).state.results.length <
          (traverse nodes none limit 1 s m).state.results.length :=
        fun hzero => absurd hzero (Nat.succ_ne_zero i)
      have hgrows := (traverse_grows nodes limit (i + 2) s m).2.length_le
      exact ⟨i + 2, Nat.succ_le_succ hi, hcut.succ hstart hfirst hgrows, hleft⟩

/-- A turn that is over in time moves the cut by one: it adds a result before the deadline. -/
theorem of_turn
    (h : StopsAtCut nodes due limit left ((s.settle rest c r).addPending r.nextNodes) m')
    (hstart : m.clock ≤ due.tick) (hturn : Turn nodes none s m n rest c r m')
    (hgoes : r.goesOn = true) (ht : n.isOver (some due) m'.clock = false) :
    StopsAtCut nodes due limit (left + 1) s m where
  exit := by
    rw [traverse_of_turn (hturn.in_time ht), hgoes, if_pos rfl]
    exact h.exit
  cut := by
    obtain ⟨i, hi, hcut, hleft⟩ := h.cut
    have hgo (j : Nat) : traverse nodes none limit (j + 1) s m =
        traverse nodes none limit j ((s.settle rest c r).addPending r.nextNodes) m' := by
      rw [traverse_of_turn hturn, hgoes, if_pos rfl]
    rw [traverse_of_turn (hturn.in_time ht), hgoes, if_pos rfl]
    simp only [← hgo] at hcut hleft
    refine ⟨i + 1, Nat.succ_le_succ hi, hcut.succ hstart ?_ ?_, hleft⟩
    · intro _
      have hgrows := (hturn.traverse_grows limit 0).2.length_le
      rwa [List.length_append] at hgrows
    · exact (traverse_grows nodes limit (i + 1) s m).2.length_le

/-- A turn that is not over in time is broken off, and the cut is in front of it. -/
theorem of_late_turn (hstart : m.clock ≤ due.tick) (hturn : Turn nodes none s m n rest c r m')
    (hlate : n.isOver (some due) m'.clock = true) : StopsAtCut nodes due limit (left + 1) s m := by
  obtain ⟨m'', hbroken⟩ := hturn.broken_off hlate
  have hstops : traverse nodes (some due) limit (left + 1) s m =
      ⟨.interrupted, s.taken rest, m''⟩ := traverse_of_brokenOff hbroken
  have hcut : CutAt (fun j => traverse nodes none limit j s m) due.tick 0 := by
    refine CutAt.of_late hstart fun j => ?_
    obtain ⟨hclock, hresults⟩ := hturn.traverse_grows limit j
    have hlength := hresults.length_le
    rw [List.length_append] at hlength
    exact ⟨hlength, Nat.le_trans (Prepared.tick_le_of_isOver hlate) hclock⟩
  have hinFlight : ∃ skipped inFlight, s.pending = skipped ++ inFlight :: rest ∧
      (∀ x ∈ skipped, x ∉ nodes.map Prepared.id) ∧ inFlight ∈ nodes.map Prepared.id :=
    ⟨[], n.id, hturn.waits, List.forall_mem_nil _, List.mem_map_of_mem hturn.mem⟩
  refine ⟨by rw [hstops], 0, Nat.zero_le _, hcut, ?_⟩
  rw [hstops]
  exact ⟨rfl, rfl, rfl, hinFlight⟩

end StopsAtCut

/-- A traversal that is not in time stops just after some result that came in time, without the
node in flight. -/
theorem traverse_interrupted (hstart : m.clock ≤ due.tick)
    (h : ¬ InTime nodes due (fun j => traverse nodes none limit j s m) left) :
    StopsAtCut nodes due limit left s m := by
  induction left generalizing s m with
  | zero => exact absurd ⟨hstart, nofun⟩ h
  | succ left ih =>
    cases hpending : s.pending with
    | nil => exact absurd ((inTime_of_nil hpending).2 hstart) h
    | cons id rest =>
      rcases taken_cases_none nodes m hpending with hnone | ⟨n, c, r, m', hturn⟩
      · rw [inTime_of_skip hpending hnone] at h
        exact (ih hstart h).of_skip hstart hpending hnone
      · cases hlate : n.isOver (some due) m'.clock with
        | true => exact .of_late_turn hstart hturn hlate
        | false =>
          cases hgoes : r.goesOn with
          | false => exact absurd ((inTime_of_last_turn hturn hgoes).2 hlate) h
          | true =>
            rw [inTime_of_turn hturn hgoes, not_and] at h
            have hnext := (n.isOver_eq_false_iff.1 hlate).1
            exact (ih hnext (h hlate)).of_turn hstart hturn hgoes hlate

/-! ## Runs -/

theorem exit_traverse_ne_interrupted :
    (traverse nodes none limit left s m).exit ≠ .interrupted := by
  obtain ⟨k, s', m', _, -, hhalts⟩ := traverse_halts nodes none limit left s m
  generalize traverse nodes none limit left s m = ended at hhalts ⊢
  generalize left - k = remaining at hhalts
  cases hhalts with
  | drained _ _ _ _ => nofun
  | exhausted _ _ _ => nofun
  | interrupted _ _ _ n rest m'' hbroken => exact absurd hbroken not_brokenOff_none
  | failed _ _ _ n rest c r m'' _ _ => nofun

theorem Engine.conclude_of_ne_interrupted (e : Engine σ) {exit : Exit} (h : exit ≠ .interrupted)
    (cancelled : Bool) (s : State) (now : Time.Timestamp) :
    e.conclude cancelled exit s now = e.conclude false exit s now := by
  cases exit with
  | finished => rfl
  | failed reason => rfl
  | interrupted => exact absurd rfl h

/-- A run against the traversal that has all the time it needs. When the traversal is in time the
run ends as it does. A run that is cancelled before it begins has nothing but its start node
waiting. Any other run that is broken off is left as the traversal was just after some result that
came in time, and all later ones do not come before the deadline: the results, the nodes that ran
and the shared store are the same, and of what waited only the node in flight and unknown ids in
front of it are gone. -/
theorem execute_interruption {e : Engine σ} {d : Definition} {nodes : List (Prepared σ)}
    (h : e.prepare d = .ok nodes) (input : Payload) (cancellation : Cancellation) (id : Id)
    (start : Time.Timestamp) (world : σ) :
    let limit := e.config.maxIterations
    let u (taken : Nat) := traverse nodes none limit taken (opening d input id start) ⟨world, 0⟩
    let total := (u limit).moment.clock
    let due := e.deadline cancellation
    let run := e.execute d input cancellation id start world
    (cancellation ≠ .already → InTime nodes due u limit →
      run = ⟨e.conclude false (u limit).exit (u limit).state (start.later total),
        (u limit).moment.world, total⟩) ∧
    (cancellation = .already →
      run.state = { (u 0).state with status := .cancelled, endTime := some start }) ∧
    (cancellation ≠ .already → ¬ InTime nodes due u limit → due.tick ≤ total ∧
      ∃ i ≤ limit, CutAt u due.tick i ∧ (u i).state.results <+: (u limit).state.results ∧
        LeftBehind d.nodeIds (u i).state run.state ∧ run.state.output = none ∧
        if (e.cancelDeadline cancellation).isSome then
          run.state.status = .cancelled ∧ run.state.error = none
        else
          run.state.status = .failed ∧
            run.state.error = some (Failure.timeLimit e.config.workflowSeconds).message) := by
  intro limit u total due run
  refine ⟨fun hc htime => ?_, fun hc => ?_, fun hc hlate => ⟨?_, ?_⟩⟩
  · have htraversal : traverse nodes (some due) limit limit (opening d input id start)
        ⟨world, 0⟩ = u limit := traverse_in_time htime
    have hexit : (u limit).exit ≠ .interrupted := exit_traverse_ne_interrupted
    simp only [run, Engine.execute_of_ne_already input id start world h hc]
    rw [htraversal, e.conclude_of_ne_interrupted hexit, Nat.min_eq_left htime.clock]
  · subst hc
    simp only [run, Engine.execute_already input id start world h]
    rfl
  · by_contra hlt
    exact hlate (inTime_of_lt (Nat.not_le.1 hlt))
  · obtain ⟨hexit, i, hi, hcut, hleft⟩ := traverse_interrupted (Nat.zero_le due.tick) hlate
    rw [Engine.ids_of_prepare h] at hleft
    refine ⟨i, hi, hcut, (traverse_mono nodes limit hi _ _).2, ?_⟩
    have hsame := sameRun_traverse nodes (some due) limit limit (opening d input id start)
      ⟨world, 0⟩
    simp only [run, Engine.execute_of_ne_already input id start world h hc]
    rw [hexit]
    cases hdeadline : e.cancelDeadline cancellation with
    | none =>
      rw [Option.isSome_none, e.conclude_timedOut _ hsame.status]
      exact ⟨⟨hleft.results, hleft.executed, hleft.globalState, hleft.pending⟩, hsame.output, rfl,
        rfl⟩
    | some _ =>
      rw [Option.isSome_some, e.conclude_cancelled _ hsame.status]
      exact ⟨⟨hleft.results, hleft.executed, hleft.globalState, hleft.pending⟩, hsame.output, rfl,
        hsame.error⟩

def latecomer : Definition where
  id := "latecomer"
  startNode := "quick"
  nodes :=
    [{ id := "quick", name := "Quick", nodeType := "fork" },
      { id := "slow", name := "Slow", nodeType := "sleep", nextNodes := ["quick"] }]

def latecomerEngine : Engine Unit where
  config := { workflowSeconds := 1.0, maxIterations := 4 }
  registry :=
    [("fork", fun _ => .ok (.constant (.ok ⟨[], some ["ghost", "slow"]⟩) .zero)),
      ("sleep", fun _ => .ok (.constant (.ok ⟨[], none⟩) (.ofWholeSeconds 5)))]

theorem execute_interruption_latecomer :
    ∃ nodes, latecomerEngine.prepare latecomer = .ok nodes ∧
      let u (taken : Nat) :=
        traverse nodes none 4 taken (opening latecomer [] ⟨[]⟩ ⟨0, 0⟩) ⟨(), 0⟩
      let run := latecomerEngine.execute latecomer [] .never ⟨[]⟩ ⟨0, 0⟩ ()
      1000 < (u 4).moment.clock ∧
      (∃ i ≤ 4, CutAt u 1000 i ∧ (u i).state.results <+: (u 4).state.results ∧
        LeftBehind latecomer.nodeIds (u i).state run.state) ∧
      run.state.status = .failed ∧ run.state.executed = ["quick"] := by
  obtain ⟨nodes, h, hclock⟩ : ∃ nodes, latecomerEngine.prepare latecomer = .ok nodes ∧
      (latecomerEngine.deadline .never).tick <
        (traverse nodes none latecomerEngine.config.maxIterations
          latecomerEngine.config.maxIterations
          (opening latecomer [] ⟨[]⟩ ⟨0, 0⟩) ⟨(), 0⟩).moment.clock :=
    ⟨_, rfl, by decide +kernel⟩
  obtain ⟨-, -, hbroken⟩ := execute_interruption h [] .never ⟨[]⟩ ⟨0, 0⟩ ()
  obtain ⟨-, i, hi, hcut, hresults, hleft, -⟩ :=
    hbroken nofun fun htime => absurd htime.clock (Nat.not_le.2 hclock)
  have hdeadline : (latecomerEngine.deadline .never).tick = 1000 := by decide +kernel
  rw [hdeadline] at hclock hcut
  exact ⟨nodes, h, hclock, ⟨i, hi, hcut, hresults, hleft⟩, by decide +kernel, by decide +kernel⟩

/-- A workflow whose script has its turn just when the time of the run is up. -/
def photoFinish : Definition where
  id := "photo-finish"
  startNode := "slow"
  nodes :=
    [{ id := "slow", name := "Slow", nodeType := "sleep", nextNodes := ["script"] },
      { id := "script", name := "Script", nodeType := "code", config := [("code", .string "1")] }]

def photoFinishEngine : Engine Nat where
  config := { workflowSeconds := 1.0, maxIterations := 4 }
  registry :=
    [("sleep", fun _ => .ok (.constant (.ok ⟨[], none⟩) (.ofWholeSeconds 1))),
      ("code", Node.Code.construct
        (fun count => (⟨count, .zero, fun _ => 1⟩, count + 1)) {} 0)]

/-- Two ways in which an interruption is not quite what one might expect. The unknown id that waits
before the node in flight is gone as well. And a run whose last node is a script is broken off at
the time limit, although all is done at this very tick. -/
theorem execute_interruption_skips :
    (∃ nodes, latecomerEngine.prepare latecomer = .ok nodes ∧
      let u (taken : Nat) :=
        traverse nodes none 4 taken (opening latecomer [] ⟨[]⟩ ⟨0, 0⟩) ⟨(), 0⟩
      let s := (latecomerEngine.execute latecomer [] .never ⟨[]⟩ ⟨0, 0⟩ ()).state
      s.status = .failed ∧ (u 0).state.results.length = 0 ∧ (u 1).state.results.length = 1 ∧
        s.results.length = 1 ∧ (u 1).state.pending = ["ghost", "slow"] ∧ s.pending = [] ∧
        ∀ inFlight, s.pending ≠ (u 1).state.pending.erase inFlight) ∧
    ∃ nodes, photoFinishEngine.prepare photoFinish = .ok nodes ∧
      let u := traverse nodes none 4 4 (opening photoFinish [] ⟨[]⟩ ⟨0, 0⟩) ⟨0, 0⟩
      let s := (photoFinishEngine.execute photoFinish [] .never ⟨[]⟩ ⟨0, 0⟩ 0).state
      u.moment.clock = 1000 ∧ photoFinishEngine.timeLimit = 1000 ∧
        u.state.executed = ["slow", "script"] ∧ u.state.hasPending = false ∧
        s.executed = ["slow"] ∧ s.status = .failed := by
  refine ⟨⟨_, rfl, ?_⟩, ?_⟩
  · intro u s
    have hqueue : (u 1).state.pending = ["ghost", "slow"] := by decide +kernel
    have hpending : s.pending = [] := by decide +kernel
    refine ⟨by decide +kernel, by decide +kernel, by decide +kernel, by decide +kernel, hqueue,
      hpending, fun inFlight heq => ?_⟩
    rw [hpending, hqueue] at heq
    have hlength := congrArg List.length heq
    rw [List.length_erase] at hlength
    split at hlength
    · cases hlength
    · cases hlength
  · have hevaluated : (photoFinishEngine.prepare photoFinish).toOption.map (fun nodes =>
        let u := traverse nodes none 4 4 (opening photoFinish [] ⟨[]⟩ ⟨0, 0⟩) ⟨0, 0⟩
        (u.moment.clock, u.state.executed, u.state.hasPending)) =
        some (1000, ["slow", "script"], false) := by decide +kernel
    cases hprepare : photoFinishEngine.prepare photoFinish with
    | error reason =>
      rw [hprepare] at hevaluated
      cases hevaluated
    | ok nodes =>
      rw [hprepare] at hevaluated
      simp only [Except.toOption, Option.map_some, Option.some.injEq, Prod.mk.injEq] at hevaluated
      obtain ⟨hclock, hexecuted, hpending⟩ := hevaluated
      exact ⟨nodes, rfl, hclock, by decide +kernel, hexecuted, hpending, by decide +kernel,
        by decide +kernel⟩

end Workflow.Run
