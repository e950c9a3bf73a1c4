import Mathlib.Algebra.BigOperators.Group.Finset.Basic
import Workflow.Proofs.Clock
import Workflow.Proofs.Isolation

/-!
How often a node is tried. Attempts follow one another until one of them succeeds, fails for a
reason that does not pass, or is the last that the policy allows. That one decides the result, and
the time of the node is that of its attempts, none longer than the limit, and of a pause between any
two of them.
-/
namespace Workflow.Run

open Finset (range)
open Time (Timed)

variable {σ : Type}

/-- An outcome with which a node is done, however often it may be tried. -/
def Settles (outcome : Except Node.Error Node.Output) : Prop :=
  ∀ reason, outcome = .error reason → reason.isRetryable = false

theorem invitesRetry_eq_false_iff {a : Node.Attempt} :
    Prepared.invitesRetry a = false ↔ Settles a.outcome := by
  unfold Prepared.invitesRetry Settles
  cases a.outcome with
  | ok output => simp
  | error reason => simp

/-- Of the steps up to a last one, there is a first with some property, or none but perhaps the last
one has it. -/
theorem exists_first (P : Nat → Prop) (last : Nat) :
    ∃ j ≤ last, (∀ i < j, ¬ P i) ∧ (P j ∨ j = last) := by
  induction last with
  | zero => exact ⟨0, Nat.le_refl 0, by omega, Or.inr rfl⟩
  | succ last ih =>
    obtain ⟨j, hj, hearlier, hlast⟩ := ih
    by_cases hp : P j
    · exact ⟨j, by omega, hearlier, Or.inl hp⟩
    · have hend : j = last := by
        rcases hlast with hp' | hend
        · exact absurd hp' hp
        · exact hend
      refine ⟨last + 1, Nat.le_refl _, ?_, Or.inr rfl⟩
      intro i hi
      by_cases heq : i = j
      · rw [heq]
        exact hp
      · apply hearlier
        omega

namespace Prepared

variable (n : Prepared σ) (input : Payload) (c : Context)

/-! ## Attempts by number -/

/-- The world after some calls of the behaviour, each on what the one before left. -/
def worldAfter (world : σ) (count : Nat) : σ :=
  (fun w => (n.behavior.execute input c w).2)^[count] world

/-- What the behaviour does when it is called after `i` other calls. -/
def work (world : σ) (i : Nat) : Timed Node.Attempt :=
  (n.behavior.execute input c (n.worldAfter input c world i)).1

/-- How the attempt after `i` others counts. One that takes longer than the limit counts as an error
that tells the limit, and any other one has the outcome of its work. -/
def outcomeAt (world : σ) (i : Nat) : Except Node.Error Node.Output :=
  if n.attemptTimeout.ticks < (n.work input c world i).duration.ticks then
    .error (.timeout n.id n.attemptTimeout.seconds)
  else (n.work input c world i).value.outcome

def ticksAt (world : σ) (i : Nat) : Nat :=
  min (n.work input c world i).duration.ticks n.attemptTimeout.ticks

/-- The moment after some attempts, with a pause between any two of them. -/
def momentAfter (m : Moment σ) (count : Nat) : Moment σ :=
  ⟨n.worldAfter input c m.world count,
    m.clock + (∑ i ∈ range count, n.ticksAt input c m.world i
      + (count - 1) * n.policy.retryDelay.ticks)⟩

/-- The number of the attempt that is the last one: no attempt before has settled the matter, and
this one does or is the last that the policy allows. -/
structure EndsAfter (world : σ) (count : Nat) : Prop where
  pos : 0 < count
  le : count ≤ min (n.policy.retries + 1) (2 ^ 32 - 1)
  earlier : ∀ i, i + 1 < count → ¬ Settles (n.outcomeAt input c world i)
  last : Settles (n.outcomeAt input c world (count - 1)) ∨
    count = min (n.policy.retries + 1) (2 ^ 32 - 1)

/-- A result that reports an outcome after some attempts. -/
structure Reports (outcome : Except Node.Error Node.Output) (count : Nat) (r : Result) : Prop where
  attempts : r.attempts = count
  success : ∀ output, outcome = .ok output → r.status = .success ∧ r.output = some output.data ∧
    r.error = none ∧ r.nextNodes = output.nextNodes.getD n.definition.nextNodes
  failure : ∀ reason, outcome = .error reason → r.status = .error ∧ r.output = none ∧
    r.error = some reason.message ∧ r.nextNodes = n.definition.onError.toList

theorem attempt_worldAfter (world : σ) (i : Nat) :
    n.attempt input c (n.worldAfter input c world i) =
      ((n.work input c world i).within n.attemptTimeout (n.late c),
        (n.behavior.execute input c (n.worldAfter input c world i)).2) := rfl

variable {n input c}

theorem outcome_attempt (world : σ) (i : Nat) :
    (n.attempt input c (n.worldAfter input c world i)).1.value.outcome =
      n.outcomeAt input c world i := by
  rw [attempt_worldAfter]
  unfold outcomeAt
  by_cases hlate : n.attemptTimeout.ticks < (n.work input c world i).duration.ticks
  · rw [if_pos hlate, Timed.within_of_lt hlate]
    rfl
  · rw [if_neg hlate, Timed.within_of_le (Nat.not_lt.1 hlate)]

/-- What counts after an attempt and a pause is what counts later from the start. -/
theorem outcomeAt_afterPause (m : Moment σ) (i : Nat) :
    n.outcomeAt input c (n.afterPause (n.momentAfter input c m 1)).world i =
      n.outcomeAt input c m.world (i + 1) := rfl

theorem isLast_attempt_iff {world : σ} {left : Nat} :
    IsLast (n.attempt input c world).1.value left ↔
      Settles (n.outcomeAt input c world 0) ∨ left = 0 := by
  unfold IsLast
  rw [invitesRetry_eq_false_iff, ← outcome_attempt world 0]
  rfl

theorem afterAttempt_eq (m : Moment σ) :
    n.afterAttempt input c m = n.momentAfter input c m 1 := by
  have hattempt := n.attempt_worldAfter input c m.world 0
  unfold afterAttempt momentAfter
  rw [show n.attempt input c m.world = _ from hattempt, Timed.ticks_within]
  simp [ticksAt, worldAfter]

/-- The moment after an attempt, a pause and some further attempts. -/
theorem momentAfter_afterPause (m : Moment σ) (count : Nat) :
    n.momentAfter input c (n.afterPause (n.momentAfter input c m 1)) (count + 1) =
      n.momentAfter input c m (count + 2) := by
  have hsum := Finset.sum_range_succ' (n.ticksAt input c m.world) (count + 1)
  have hrest : ∑ i ∈ range (count + 1), n.ticksAt input c (n.worldAfter input c m.world 1) i =
      ∑ i ∈ range (count + 1), n.ticksAt input c m.world (i + 1) := rfl
  unfold momentAfter afterPause
  simp only [Moment.mk.injEq]
  constructor
  · rfl
  · rw [hrest, hsum]
    simp only [Finset.sum_range_one, Nat.add_sub_cancel]
    have hpauses : (count + 2 - 1) * n.policy.retryDelay.ticks =
        count * n.policy.retryDelay.ticks + n.policy.retryDelay.ticks := by
      rw [← Nat.succ_mul]
      rfl
    rw [hpauses]
    omega

/-- Without a deadline the attempts end with the first that settles the matter, or the last. -/
theorem attempts_of_first {left made j : Nat} {m : Moment σ} (hj : j ≤ left)
    (hearlier : ∀ i < j, ¬ Settles (n.outcomeAt input c m.world i))
    (hlast : Settles (n.outcomeAt input c m.world j) ∨ j = left) :
    n.attempts input c none left made m =
      (some ⟨(n.attempt input c (n.worldAfter input c m.world j)).1.value, made + (j + 1)⟩,
        n.momentAfter input c m (j + 1)) := by
  induction j generalizing left made m with
  | zero =>
    have hend : IsLast (n.attempt input c m.world).1.value left := by
      rw [isLast_attempt_iff, eq_comm]
      exact hlast
    rw [attempts_of_isLast _ _ _ none _ rfl hend, afterAttempt_eq]
    rfl
  | succ j ih =>
    obtain ⟨left, rfl⟩ : ∃ rest, left = rest + 1 := ⟨left - 1, by omega⟩
    have hgoes : ¬ IsLast (n.attempt input c m.world).1.value (left + 1) := by
      rw [isLast_attempt_iff]
      intro hend
      rcases hend with hsettles | hzero
      · exact hearlier 0 (by omega) hsettles
      · omega
    rw [attempts_of_not_isLast _ _ _ none _ rfl hgoes, if_neg (by simp), afterAttempt_eq]
    have hlater : Settles (n.outcomeAt input c m.world (j + 1)) ∨ j = left := by
      rcases hlast with hsettles | hend
      · exact Or.inl hsettles
      · exact Or.inr (by omega)
    have hrest := @ih left (made + 1) (n.afterPause (n.momentAfter input c m 1)) (by omega)
    simp only [outcomeAt_afterPause, momentAfter_afterPause] at hrest
    rw [hrest (fun i hi => hearlier (i + 1) (by omega)) hlater, Nat.add_assoc, Nat.add_comm 1]
    rfl

variable (n input c)

theorem exists_endsAfter (m : Moment σ) :
    ∃ count last, n.EndsAfter input c m.world count ∧
      last.outcome = n.outcomeAt input c m.world (count - 1) ∧
      n.attempts input c none (n.maxAttempts - 1) 0 m =
        (some ⟨last, count⟩, n.momentAfter input c m count) := by
  have hmax : n.maxAttempts = min (n.policy.retries + 1) (2 ^ 32 - 1) := rfl
  obtain ⟨j, hj, hearlier, hlast⟩ :=
    exists_first (fun i => Settles (n.outcomeAt input c m.world i)) (n.maxAttempts - 1)
  refine ⟨j + 1, (n.attempt input c (n.worldAfter input c m.world j)).1.value, ⟨by omega, by omega,
    fun i hi => hearlier i (by omega), ?_⟩, outcome_attempt m.world j, ?_⟩
  · rcases hlast with hsettles | hend
    · exact Or.inl hsettles
    · exact Or.inr (by omega)
  · rw [attempts_of_first hj hearlier hlast, Nat.zero_add]

theorem reports_result (conclusion : Conclusion) (ticks : Nat) :
    n.Reports conclusion.last.outcome conclusion.count (n.result conclusion ticks) where
  attempts := n.result_attempts ticks conclusion
  success output h := by
    rw [n.result_of_ok ticks h]
    exact ⟨rfl, rfl, rfl, rfl⟩
  failure reason h := by
    rw [n.result_of_error ticks h]
    exact ⟨rfl, rfl, rfl, rfl⟩

theorem exists_run (s : State) (m : Moment σ) :
    ∃ count r s', n.EndsAfter input s.context m.world count ∧
      n.Reports (n.outcomeAt input s.context m.world (count - 1)) count r ∧
      n.run input none s m = (some (r, s'), n.momentAfter input s.context m count) := by
  obtain ⟨count, last, hends, hlast, hattempts⟩ := n.exists_endsAfter input s.context m
  have hrun : n.run input none s m =
      (some (n.concluded s ⟨last, count⟩
          ((n.momentAfter input s.context m count).clock - m.clock)),
        n.momentAfter input s.context m count) := by
    rw [run_eq, hattempts]
    rfl
  refine ⟨count, _, _, hends, ?_, hrun⟩
  rw [← hlast]
  exact n.reports_result ⟨last, count⟩ _

/-- A node that succeeds at once, and not too late, concludes with this attempt. -/
theorem run_of_ok {s : State} {m : Moment σ} {t : Timed Node.Attempt} {world : σ}
    {output : Node.Output} (hexecute : n.behavior.execute input s.context m.world = (t, world))
    (houtcome : t.value.outcome = .ok output) (htime : t.duration.ticks ≤ n.attemptTimeout.ticks) :
    n.run input none s m =
      (some (n.concluded s ⟨t.value, 1⟩ t.duration.ticks),
        ⟨world, m.clock + t.duration.ticks⟩) := by
  have hattempt : n.attempt input s.context m.world = (t, world) := by
    unfold attempt
    rw [hexecute]
    exact Prod.ext (Timed.within_of_le htime) rfl
  have hlast : IsLast (n.attempt input s.context m.world).1.value (n.maxAttempts - 1) := by
    rw [hattempt]
    unfold IsLast invitesRetry
    rw [houtcome]
    exact Or.inl rfl
  rw [run_eq, n.attempts_of_isLast input s.context none 0 rfl hlast]
  unfold afterAttempt
  rw [hattempt, Option.map_some, Nat.add_sub_cancel_left]

theorem exists_run_of_ok {s : State} {m : Moment σ} {t : Timed Node.Attempt} {world : σ}
    {output : Node.Output} (hexecute : n.behavior.execute input s.context m.world = (t, world))
    (houtcome : t.value.outcome = .ok output) (htime : t.duration.ticks ≤ n.attemptTimeout.ticks) :
    ∃ r s', n.Reports (.ok output) 1 r ∧
      n.run input none s m = (some (r, s'), ⟨world, m.clock + t.duration.ticks⟩) := by
  refine ⟨_, _, ?_, n.run_of_ok input hexecute houtcome htime⟩
  rw [← houtcome]
  exact n.reports_result ⟨t.value, 1⟩ t.duration.ticks

/-- A deadline that is passed lets no result out, and any other one changes nothing. -/
theorem run_deadline (deadline : Option Deadline) (s : State) (m : Moment σ) :
    (n.run input deadline s m).1 =
      if n.isOver deadline (n.run input none s m).2.clock then none
      else (n.run input none s m).1 := by
  rw [run_eq, run_eq]
  cases hover : n.isOver deadline
      (n.attempts input s.context none (n.maxAttempts - 1) 0 m).2.clock with
  | false => rw [attempts_of_not_isOver hover, if_neg Bool.false_ne_true]
  | true => rw [attempts_of_isOver hover, if_pos rfl, Option.map_none]

/-- How a node is tried. Its attempts are numbered from 1 on, and the number of the last one is the
count that the result tells; it fits in 32 bits. The result reports how the last attempt counts. The
behaviour is called once for each attempt, and the clock goes forward by the ticks of the attempts
and of the pauses between them. A deadline lets no result out if it is passed by then, and otherwise
it changes nothing. -/
theorem run_retries (s : State) (m : Moment σ) :
    ∃ count r, n.EndsAfter input s.context m.world count ∧ count < 2 ^ 32 ∧
      n.Reports (n.outcomeAt input s.context m.world (count - 1)) count r ∧
      (n.run input none s m).2 = ⟨n.worldAfter input s.context m.world count,
        m.clock + (∑ i ∈ range count, n.ticksAt input s.context m.world i
          + (count - 1) * n.policy.retryDelay.ticks)⟩ ∧
      ∀ deadline, (n.run input deadline s m).1.map Prod.fst =
        if n.isOver deadline (n.run input none s m).2.clock then none else some r := by
  obtain ⟨count, r, s', hends, hreports, hrun⟩ := n.exists_run input s m
  have hcount := hends.le
  refine ⟨count, r, hends, by omega, hreports, ?_, ?_⟩
  · rw [hrun]
    rfl
  · intro deadline
    rw [run_deadline, apply_ite (Option.map Prod.fst), hrun]
    rfl

def limited (timeout : Float) : NodeDefinition where
  id := "n"
  name := "N"
  nodeType := "sleep"
  config := [("timeout", .number (.float timeout))]

def sleepers (duration : Time.Duration) : Node.Registry Unit :=
  [("sleep", fun _ => .ok (.constant (.ok ⟨[], none⟩) duration))]

/-- Durations are counted on the clock. Work of a thousand million seconds is done after thirty
years, though its limit leaves it more time. Work of half a millisecond is in time for a limit of a
fifth of one, because both end at the next tick. -/
theorem run_counts_ticks :
    ∃ patient hasty,
      ofDefinition (sleepers (.ofWholeSeconds (10 ^ 9))) {} (limited 1e19) = .ok patient ∧
      ofDefinition (sleepers ⟨500000⟩) {} (limited 0.0002) = .ok hasty ∧
      let s := State.new ⟨[]⟩ "wait" []
      let duration := fun n : Prepared Unit => (n.work [] s.context () 0).duration
      let run := fun n : Prepared Unit => n.run [] none s ⟨(), 0⟩
      let reported := fun n => (run n).1.map fun done => (done.1.status, done.1.error)
      (duration patient).milliseconds = 10 ^ 12 ∧ duration patient ≤ patient.attemptTimeout ∧
        hasty.attemptTimeout < duration hasty ∧
        reported patient = some (.success, none) ∧
        (run patient).2.clock = 30 * 365 * 86400 * 1000 ∧
        reported hasty = some (.success, none) ∧ (run hasty).2.clock = 1 := by
  refine ⟨_, _, rfl, rfl, ?_⟩
  intro s duration run reported
  exact ⟨by decide +kernel, by decide +kernel, by decide +kernel, by decide +kernel,
    by decide +kernel, by decide +kernel, by decide +kernel⟩

end Prepared

end Workflow.Run
