import Workflow.Run.Attempts

/-!
The attempts of a node against a deadline. Time only goes forward, without a deadline the attempts
come to a conclusion, and a deadline either changes nothing or lets no conclusion out.
-/
namespace Workflow.Run

open Node (Attempt)

/-- What ends at the very tick of a deadline is in time. -/
def Deadline.Admits (d : Deadline) (id : String) (handedOver : Bool) : Prop :=
  d.admits id = true ∧ (handedOver = true → d.waitsFor id = true)

theorem Deadline.isPast_iff {d : Deadline} {id : String} {handedOver : Bool} {clock : Nat} :
    d.isPast id handedOver clock = true ↔
      d.tick < clock ∨ (d.tick = clock ∧ ¬ d.Admits id handedOver) := by
  unfold isPast Admits
  cases handedOver with
  | false => simp
  | true => cases d.admits id <;> simp

namespace Prepared

variable {σ : Type} (n : Prepared σ) (input : Payload) (c : Context)

@[simp]
theorem isPauseOver_none (clock : Nat) : n.isPauseOver none clock = false := rfl

theorem isOver_some_iff {d : Deadline} {clock : Nat} : n.isOver (some d) clock = true ↔
    d.tick < clock ∨ (d.tick = clock ∧ ¬ d.Admits n.id n.behavior.handsOver) := d.isPast_iff

theorem isPauseOver_some_iff {d : Deadline} {clock : Nat} : n.isPauseOver (some d) clock = true ↔
    d.tick < clock ∨ (d.tick = clock ∧ ¬ d.Admits n.id false) := d.isPast_iff

theorem isOver_eq_false_iff {d : Deadline} {clock : Nat} : n.isOver (some d) clock = false ↔
    clock ≤ d.tick ∧ (clock = d.tick → d.Admits n.id n.behavior.handsOver) := by
  rw [← Bool.not_eq_true, isOver_some_iff]
  constructor
  · intro hnot
    rw [not_or, not_and, Classical.not_not, Nat.not_lt] at hnot
    exact ⟨hnot.1, fun htick => hnot.2 htick.symm⟩
  · rintro ⟨hle, hadmits⟩ (hlate | ⟨htick, hnot⟩)
    · omega
    · exact hnot (hadmits htick.symm)

variable {n}

/-- What comes later than something that is late is late. -/
theorem isOver_mono {deadline : Option Deadline} {clock clock' : Nat} (hle : clock ≤ clock')
    (h : n.isOver deadline clock = true) : n.isOver deadline clock' = true := by
  cases deadline with
  | none => exact h
  | some d =>
    rw [isOver_some_iff] at h ⊢
    rcases Nat.lt_or_ge d.tick clock' with hlt | hge
    · exact Or.inl hlt
    · rcases h with hlate | ⟨htick, hnot⟩
      · omega
      · exact Or.inr ⟨by omega, hnot⟩

/-- An attempt after a pause that leaves no time for it is late. -/
theorem isOver_of_isPauseOver {deadline : Option Deadline} {clock : Nat}
    (h : n.isPauseOver deadline clock = true) : n.isOver deadline clock = true := by
  cases deadline with
  | none => exact h
  | some d =>
    rw [isPauseOver_some_iff] at h
    rw [isOver_some_iff]
    refine h.imp_right ?_
    rintro ⟨htick, hnot⟩
    exact ⟨htick, fun hadmits => hnot ⟨hadmits.1, nofun⟩⟩

theorem tick_le_of_isOver {d : Deadline} {clock : Nat} (h : n.isOver (some d) clock = true) :
    d.tick ≤ clock := by
  rw [isOver_some_iff] at h
  omega

variable (n)

/-- The moment at which one attempt is over. -/
def afterAttempt (m : Moment σ) : Moment σ :=
  ⟨(n.attempt input c m.world).2, m.clock + (n.attempt input c m.world).1.duration.ticks⟩

/-- The moment at which the pause before another attempt is over. -/
def afterPause (m : Moment σ) : Moment σ := { m with clock := m.clock + n.policy.retryDelay.ticks }

theorem clock_le_afterAttempt (m : Moment σ) : m.clock ≤ (n.afterAttempt input c m).clock :=
  Nat.le_add_right _ _

theorem clock_le_afterPause (m : Moment σ) : m.clock ≤ (n.afterPause m).clock :=
  Nat.le_add_right _ _

/-- Whether there is no attempt after one that ended like this, with `left` more to be made. -/
def IsLast (a : Attempt) (left : Nat) : Prop := invitesRetry a = false ∨ left = 0

theorem attempts_of_over (deadline : Option Deadline) (left made : Nat) {m : Moment σ}
    (h : n.isOver deadline (n.afterAttempt input c m).clock = true) :
    n.attempts input c deadline left made m = (none, n.afterAttempt input c m) := by
  rw [attempts]
  exact if_pos h

theorem attempts_of_isLast (deadline : Option Deadline) {left : Nat} (made : Nat) {m : Moment σ}
    (h : n.isOver deadline (n.afterAttempt input c m).clock = false)
    (hlast : IsLast (n.attempt input c m.world).1.value left) :
    n.attempts input c deadline left made m =
      (some ⟨(n.attempt input c m.world).1.value, made + 1⟩, n.afterAttempt input c m) := by
  rw [attempts]
  refine (if_neg (Bool.eq_false_iff.1 h)).trans ?_
  rcases hlast with hretry | rfl
  · refine if_pos (show (!invitesRetry (n.attempt input c m.world).1.value) = true from ?_)
    rw [hretry]
    rfl
  · exact ite_self _

theorem attempts_of_not_isLast (deadline : Option Deadline) {left : Nat} (made : Nat) {m : Moment σ}
    (h : n.isOver deadline (n.afterAttempt input c m).clock = false)
    (hlast : ¬ IsLast (n.attempt input c m.world).1.value (left + 1)) :
    n.attempts input c deadline (left + 1) made m =
      if n.isPauseOver deadline (n.afterPause (n.afterAttempt input c m)).clock then
        (none, n.afterPause (n.afterAttempt input c m))
      else
        n.attempts input c deadline left (made + 1) (n.afterPause (n.afterAttempt input c m)) := by
  rw [attempts]
  refine (if_neg (Bool.eq_false_iff.1 h)).trans ?_
  refine (if_neg (show ¬ (!invitesRetry (n.attempt input c m.world).1.value) = true from ?_)).trans
    rfl
  intro hretry
  exact hlast (Or.inl (by simpa using hretry))

theorem clock_le_attempts (deadline : Option Deadline) (left made : Nat) (m : Moment σ) :
    m.clock ≤ (n.attempts input c deadline left made m).2.clock := by
  induction left generalizing made m with
  | zero =>
    have hattempt := n.clock_le_afterAttempt input c m
    cases hover : n.isOver deadline (n.afterAttempt input c m).clock with
    | true => rwa [attempts_of_over _ _ _ _ _ _ hover]
    | false => rwa [attempts_of_isLast _ _ _ _ _ hover (Or.inr rfl)]
  | succ left ih =>
    have hattempt := n.clock_le_afterAttempt input c m
    have hpause := n.clock_le_afterPause (n.afterAttempt input c m)
    have hrest := ih (made + 1) (n.afterPause (n.afterAttempt input c m))
    cases hover : n.isOver deadline (n.afterAttempt input c m).clock with
    | true => rwa [attempts_of_over _ _ _ _ _ _ hover]
    | false =>
      by_cases hlast : IsLast (n.attempt input c m.world).1.value (left + 1)
      · rwa [attempts_of_isLast _ _ _ _ _ hover hlast]
      · rw [attempts_of_not_isLast _ _ _ _ _ hover hlast]
        split
        · exact Nat.le_trans hattempt hpause
        · omega

theorem attempts_none_isSome (left made : Nat) (m : Moment σ) :
    (n.attempts input c none left made m).1.isSome := by
  induction left generalizing made m with
  | zero => rw [attempts_of_isLast _ _ _ none _ rfl (Or.inr rfl)]; rfl
  | succ left ih =>
    by_cases hlast : IsLast (n.attempt input c m.world).1.value (left + 1)
    · rw [attempts_of_isLast _ _ _ none _ rfl hlast]
      rfl
    · rw [attempts_of_not_isLast _ _ _ none _ rfl hlast]
      exact ih _ _

variable {n input c}

/-- A deadline that leaves time for all attempts changes nothing. -/
theorem attempts_of_not_isOver {deadline : Option Deadline} {left made : Nat} {m : Moment σ}
    (h : n.isOver deadline (n.attempts input c none left made m).2.clock = false) :
    n.attempts input c deadline left made m = n.attempts input c none left made m := by
  induction left generalizing made m with
  | zero =>
    rw [attempts_of_isLast _ _ _ none _ rfl (Or.inr rfl)] at h ⊢
    exact n.attempts_of_isLast input c deadline made h (Or.inr rfl)
  | succ left ih =>
    by_cases hlast : IsLast (n.attempt input c m.world).1.value (left + 1)
    · rw [attempts_of_isLast _ _ _ none _ rfl hlast] at h ⊢
      exact n.attempts_of_isLast input c deadline made h hlast
    · rw [attempts_of_not_isLast _ _ _ none _ rfl hlast] at h ⊢
      simp only [isPauseOver_none, Bool.false_eq_true, if_false] at h ⊢
      have hpause := n.clock_le_afterPause (n.afterAttempt input c m)
      have hrest := n.clock_le_attempts input c none left (made + 1)
        (n.afterPause (n.afterAttempt input c m))
      -- What is late would make the end late, which is behind it.
      have hattempt : n.isOver deadline (n.afterAttempt input c m).clock = false := by
        rw [← Bool.not_eq_true] at h ⊢
        exact fun hover => h (isOver_mono (Nat.le_trans hpause hrest) hover)
      have hpaused :
          ¬ n.isPauseOver deadline (n.afterPause (n.afterAttempt input c m)).clock = true := by
        rw [← Bool.not_eq_true] at h
        exact fun hover => h (isOver_mono hrest (isOver_of_isPauseOver hover))
      rw [attempts_of_not_isLast _ _ _ _ _ hattempt hlast, if_neg hpaused]
      exact ih h

/-- A deadline that does not leave time for all attempts lets no conclusion out. -/
theorem attempts_of_isOver {deadline : Option Deadline} {left made : Nat} {m : Moment σ}
    (h : n.isOver deadline (n.attempts input c none left made m).2.clock = true) :
    (n.attempts input c deadline left made m).1 = none := by
  induction left generalizing made m with
  | zero =>
    rw [attempts_of_isLast _ _ _ none _ rfl (Or.inr rfl)] at h
    rw [attempts_of_over _ _ _ _ _ _ h]
  | succ left ih =>
    cases hover : n.isOver deadline (n.afterAttempt input c m).clock with
    | true => rw [attempts_of_over _ _ _ _ _ _ hover]
    | false =>
      by_cases hlast : IsLast (n.attempt input c m.world).1.value (left + 1)
      · rw [attempts_of_isLast _ _ _ none _ rfl hlast] at h
        rw [h] at hover
        cases hover
      · rw [attempts_of_not_isLast _ _ _ none _ rfl hlast] at h
        rw [attempts_of_not_isLast _ _ _ _ _ hover hlast]
        split
        · rfl
        · exact ih h

/-- Attempts without a conclusion are given up no earlier than the deadline. -/
theorem tick_le_of_attempts_none {d : Deadline} {left made : Nat} {m : Moment σ}
    (h : (n.attempts input c (some d) left made m).1 = none) :
    d.tick ≤ (n.attempts input c (some d) left made m).2.clock := by
  induction left generalizing made m with
  | zero =>
    cases hover : n.isOver (some d) (n.afterAttempt input c m).clock with
    | true =>
      rw [attempts_of_over _ _ _ _ _ _ hover]
      exact tick_le_of_isOver hover
    | false =>
      rw [attempts_of_isLast _ _ _ _ _ hover (Or.inr rfl)] at h
      cases h
  | succ left ih =>
    cases hover : n.isOver (some d) (n.afterAttempt input c m).clock with
    | true =>
      rw [attempts_of_over _ _ _ _ _ _ hover]
      exact tick_le_of_isOver hover
    | false =>
      by_cases hlast : IsLast (n.attempt input c m.world).1.value (left + 1)
      · rw [attempts_of_isLast _ _ _ _ _ hover hlast] at h
        cases h
      · rw [attempts_of_not_isLast _ _ _ _ _ hover hlast] at h ⊢
        split at h
        · rename_i hpause
          rw [if_pos hpause]
          exact tick_le_of_isOver (isOver_of_isPauseOver hpause)
        · rename_i hpause
          rw [if_neg hpause]
          exact ih h

/-- A conclusion in time is the conclusion without a deadline. -/
theorem attempts_none_of_some {deadline : Option Deadline} {left made : Nat} {m m' : Moment σ}
    {k : Conclusion} (h : n.attempts input c deadline left made m = (some k, m')) :
    n.attempts input c none left made m = (some k, m') := by
  cases hover : n.isOver deadline (n.attempts input c none left made m).2.clock with
  | false => rw [← attempts_of_not_isOver hover, h]
  | true =>
    have hnone := attempts_of_isOver hover
    rw [h] at hnone
    cases hnone

variable (n input c)

/-- Some attempts conclude with the way in which one of them ended. -/
theorem exists_attempt_of_some {deadline : Option Deadline} {left made : Nat} {m m' : Moment σ}
    {k : Conclusion} (h : n.attempts input c deadline left made m = (some k, m')) :
    ∃ world, k.last = (n.attempt input c world).1.value := by
  induction left generalizing made m with
  | zero =>
    cases hover : n.isOver deadline (n.afterAttempt input c m).clock with
    | true =>
      rw [attempts_of_over _ _ _ _ _ _ hover] at h
      cases h
    | false =>
      rw [attempts_of_isLast _ _ _ _ _ hover (Or.inr rfl)] at h
      cases h
      exact ⟨m.world, rfl⟩
  | succ left ih =>
    cases hover : n.isOver deadline (n.afterAttempt input c m).clock with
    | true =>
      rw [attempts_of_over _ _ _ _ _ _ hover] at h
      cases h
    | false =>
      by_cases hlast : IsLast (n.attempt input c m.world).1.value (left + 1)
      · rw [attempts_of_isLast _ _ _ _ _ hover hlast] at h
        cases h
        exact ⟨m.world, rfl⟩
      · rw [attempts_of_not_isLast _ _ _ _ _ hover hlast] at h
        split at h
        · cases h
        · exact ih h

/-- Only the behaviour of a node lets an attempt succeed. -/
theorem outcome_execute_of_attempt {world : σ} {output : Node.Output}
    (h : (n.attempt input c world).1.value.outcome = .ok output) :
    (n.behavior.execute input c world).1.value.outcome = .ok output := by
  simp only [attempt, Time.Timed.within] at h
  split at h
  · cases h
  · exact h

end Prepared

end Workflow.Run
