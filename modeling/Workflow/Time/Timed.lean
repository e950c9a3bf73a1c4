import Workflow.Time.Duration

/-!
Work that takes time. The clock counts whole milliseconds, for thirty years at most: whatever takes
time ends at the first tick that is not too early, what takes longer than thirty years ends with
them, and work that ends at the very tick of its limit is in time.
-/
namespace Workflow.Time

/-- The ticks of thirty years: no duration counts for more. -/
def farFuture : Nat := 30 * 365 * 86400 * 1000

/-- The ticks after which a duration is over. -/
def Duration.ticks (d : Duration) : Nat := min d.milliseconds farFuture

def Duration.ofTicks (ticks : Nat) : Duration := ⟨ticks * 1000000⟩

/-- A value and the time that it takes to get it. -/
structure Timed (α : Type) where
  value : α
  duration : Duration

namespace Timed

def now {α : Type} (value : α) : Timed α := ⟨value, .zero⟩

def map {α β : Type} (f : α → β) (t : Timed α) : Timed β := ⟨f t.value, t.duration⟩

/-- Work under a time limit: when it takes longer, there is another value at the limit. -/
def within {α : Type} (t : Timed α) (limit : Duration) (late : α) : Timed α :=
  if limit.ticks < t.duration.ticks then ⟨late, limit⟩ else t

end Timed

end Workflow.Time
