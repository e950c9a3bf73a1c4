import Workflow.Time.Timed

/-!
Durations and their sums on the clock. The ticks of durations are in the order of the durations, and
none has more than those of thirty years. Work under a limit takes the ticks of the work or those of
the limit, whichever are fewer.
-/
namespace Workflow.Time

namespace Duration

theorem ticks_zero : zero.ticks = 0 := by decide

theorem ticks_longest : longest.ticks = farFuture := by decide

theorem ticks_le_farFuture (d : Duration) : d.ticks ≤ farFuture := Nat.min_le_right _ _

theorem ticks_of_milliseconds_le {d : Duration} (h : d.milliseconds ≤ farFuture) :
    d.ticks = d.milliseconds := Nat.min_eq_left h

/-- A longer duration takes no fewer ticks. -/
theorem ticks_mono {a b : Duration} (h : a ≤ b) : a.ticks ≤ b.ticks := by
  have hnanoseconds : a.nanoseconds ≤ b.nanoseconds := h
  have hmilliseconds : a.milliseconds ≤ b.milliseconds := by
    unfold milliseconds
    grind
  unfold ticks
  omega

/-! ## Sums -/

theorem le_add (a b : Duration) : a ≤ a + b := Nat.le_add_right a.nanoseconds b.nanoseconds

theorem add?_eq_some_iff {a b c : Duration} : a.add? b = some c ↔ a + b ≤ longest ∧ a + b = c := by
  unfold add?
  by_cases h : a + b ≤ longest
  · simp [h]
  · simp [h]

theorem le_saturatingAdd {a : Duration} (ha : a ≤ longest) (b : Duration) :
    a ≤ a.saturatingAdd b := by
  unfold saturatingAdd
  by_cases h : a + b ≤ longest
  · rw [if_pos h]
    exact le_add a b
  · rw [if_neg h]
    exact ha

theorem saturatingAdd_le_longest (a b : Duration) : a.saturatingAdd b ≤ longest := by
  unfold saturatingAdd
  by_cases h : a + b ≤ longest
  · rw [if_pos h]
    exact h
  · rw [if_neg h]
    exact Nat.le_refl _

/-- A limit that saturates is over no earlier than the summand. -/
theorem ticks_le_saturatingAdd (a b : Duration) : a.ticks ≤ (a.saturatingAdd b).ticks := by
  unfold saturatingAdd
  by_cases h : a + b ≤ longest
  · rw [if_pos h]
    exact ticks_mono (le_add a b)
  · rw [if_neg h, ticks_longest]
    exact a.ticks_le_farFuture

end Duration

namespace Timed

variable {α : Type} {t : Timed α} {limit : Duration} {late : α}

theorem within_of_le (h : t.duration.ticks ≤ limit.ticks) : t.within limit late = t := by
  unfold within
  rw [if_neg (Nat.not_lt.2 h)]

theorem within_of_lt (h : limit.ticks < t.duration.ticks) :
    t.within limit late = ⟨late, limit⟩ := by
  unfold within
  rw [if_pos h]

theorem ticks_within :
    (t.within limit late).duration.ticks = min t.duration.ticks limit.ticks := by
  by_cases h : t.duration.ticks ≤ limit.ticks
  · rw [within_of_le h, Nat.min_eq_left h]
  · have hlt := Nat.not_le.1 h
    rw [within_of_lt hlt, Nat.min_eq_right (Nat.le_of_lt hlt)]

end Timed

end Workflow.Time
