import Mathlib.Data.List.Perm.Basic
import Workflow.Storage.RunLog

/-!
The order in which runs are listed. Runs are sorted by their start, and those that start together
stay in the order in which they came; this says all there is to say about the list.
-/
namespace Workflow.Storage.RunLog

open Run (State)
open Time (Timestamp)

theorem before_iff {x y : Timestamp} : x.before y = true ↔
    x.seconds < y.seconds ∨ x.seconds = y.seconds ∧ x.nanoseconds < y.nanoseconds := by
  simp [Timestamp.before]

/-- A run without a start comes first, and of two starts the earlier one. -/
theorem startsBy_iff {a b : State} : startsBy a b = true ↔
    ∀ x, a.startTime = some x → ∃ y, b.startTime = some y ∧ ¬ y.before x = true := by
  rw [startsBy]
  cases a.startTime with
  | none => simp
  | some x =>
    cases b.startTime with
    | none => simp
    | some y => simp

theorem startsBy_trans (a b c : State) (hab : startsBy a b = true) (hbc : startsBy b c = true) :
    startsBy a c = true := by
  rw [startsBy_iff] at hab hbc ⊢
  intro x hx
  obtain ⟨y, hy, hxy⟩ := hab x hx
  obtain ⟨z, hz, hyz⟩ := hbc y hy
  rw [before_iff] at hxy hyz
  refine ⟨z, hz, ?_⟩
  rw [before_iff]
  omega

theorem startsBy_total (a b : State) : (startsBy a b || startsBy b a) = true := by
  rw [Bool.or_eq_true, startsBy_iff, startsBy_iff]
  cases a.startTime with
  | none => exact Or.inl nofun
  | some x =>
    cases b.startTime with
    | none => exact Or.inr nofun
    | some y =>
      simp only [Option.some.injEq, forall_eq', exists_eq_left', before_iff]
      omega

/-- Runs of which neither starts before the other one start together. -/
theorem startTime_eq_of_startsBy {a b : State} (hab : startsBy a b = true)
    (hba : startsBy b a = true) : a.startTime = b.startTime := by
  rw [startsBy_iff] at hab hba
  cases ha : a.startTime with
  | none =>
    cases hb : b.startTime with
    | none => rfl
    | some y =>
      obtain ⟨x, hx, -⟩ := hba y hb
      rw [ha] at hx
      cases hx
  | some x =>
    obtain ⟨y, hy, hxy⟩ := hab x ha
    obtain ⟨x', hx', hyx⟩ := hba y hy
    rw [ha, Option.some_inj] at hx'
    subst hx'
    rw [before_iff] at hxy hyx
    obtain ⟨xs, xn⟩ := x
    obtain ⟨ys, yn⟩ := y
    rw [hy, Option.some_inj, Timestamp.mk.injEq]
    dsimp only at hxy hyx
    omega

theorem startsBy_of_eq {a b : State} (h : a.startTime = b.startTime) : startsBy a b = true := by
  rw [startsBy_iff]
  intro x hx
  refine ⟨x, h ▸ hx, ?_⟩
  rw [before_iff]
  omega

/-- Runs from the oldest to the latest, without a start before all others; those that start
together stay in the order in which they were recorded. -/
structure Chronicle (recorded runs : List State) : Prop where
  sorted : runs.Pairwise fun a b => startsBy a b = true
  ties : ∀ start, runs.filter (·.startTime = start) = recorded.filter (·.startTime = start)

namespace Chronicle

variable {recorded runs runs' : List State}

/-- Lists that agree on the runs with every start have the same runs. -/
theorem perm_of_filter_eq
    (h : ∀ start, runs.filter (·.startTime = start) = runs'.filter (·.startTime = start)) :
    runs.Perm runs' := by
  classical
  rw [List.perm_iff_count]
  intro s
  have hcount := congrArg (List.count s) (h s.startTime)
  rwa [List.count_filter (by simp), List.count_filter (by simp)] at hcount

/-- The list has each run as often as it was recorded. -/
theorem perm (h : Chronicle recorded runs) : runs.Perm recorded := perm_of_filter_eq h.ties

/-- Sorted runs are determined by those that start together. -/
theorem eq_of_filter_eq (h : runs.Pairwise fun a b => startsBy a b = true)
    (h' : runs'.Pairwise fun a b => startsBy a b = true)
    (hties : ∀ start, runs.filter (·.startTime = start) = runs'.filter (·.startTime = start)) :
    runs = runs' := by
  have hperm := perm_of_filter_eq hties
  induction runs generalizing runs' with
  | nil =>
    exact (List.nil_perm.1 hperm).symm
  | cons a as ih =>
    cases runs' with
    | nil => exact List.perm_nil.1 hperm
    | cons b bs =>
      obtain ⟨ha, has⟩ := List.pairwise_cons.1 h
      obtain ⟨hb, hbs⟩ := List.pairwise_cons.1 h'
      -- Each of the two first runs is in the other list, so they start together.
      have hab : startsBy a b = true := by
        rcases List.mem_cons.1 (hperm.mem_iff.2 List.mem_cons_self) with heq | hin
        · exact startsBy_of_eq (congrArg _ heq.symm)
        · exact ha b hin
      have hba : startsBy b a = true := by
        rcases List.mem_cons.1 (hperm.mem_iff.1 List.mem_cons_self) with heq | hin
        · exact startsBy_of_eq (congrArg _ heq.symm)
        · exact hb a hin
      have hstart : a.startTime = b.startTime := startTime_eq_of_startsBy hab hba
      have hfirst := hties a.startTime
      rw [List.filter_cons_of_pos (by simp), List.filter_cons_of_pos (by simp [hstart])] at hfirst
      obtain ⟨rfl, -⟩ := List.cons.inj hfirst
      refine congrArg _ (ih has hbs (fun start => ?_) hperm.cons_inv)
      have htail := hties start
      by_cases heq : a.startTime = start
      · rw [List.filter_cons_of_pos (by simpa using heq),
          List.filter_cons_of_pos (by simpa using heq)] at htail
        exact (List.cons.inj htail).2
      · rwa [List.filter_cons_of_neg (by simpa using heq),
          List.filter_cons_of_neg (by simpa using heq)] at htail

theorem unique (h : Chronicle recorded runs) (h' : Chronicle recorded runs') : runs = runs' :=
  eq_of_filter_eq h.sorted h'.sorted fun start => (h.ties start).trans (h'.ties start).symm

/-- Sorting keeps runs that start together in their order. -/
theorem mergeSort (h : ∀ start, runs.filter (·.startTime = start) =
    recorded.filter (·.startTime = start)) : Chronicle recorded (runs.mergeSort startsBy) := by
  refine ⟨List.pairwise_mergeSort startsBy_trans startsBy_total runs, fun start => ?_⟩
  rw [← h start]
  have htogether : (runs.filter (·.startTime = start)).Pairwise
      fun a b => startsBy a b = true := by
    rw [List.pairwise_filter]
    refine List.pairwise_of_forall fun a b ha hb => startsBy_of_eq ?_
    rw [of_decide_eq_true ha, of_decide_eq_true hb]
  have hsub := (List.sublist_mergeSort startsBy_trans startsBy_total htogether
    List.filter_sublist).filter (·.startTime = start)
  rw [List.filter_filter] at hsub
  simp only [Bool.and_self] at hsub
  refine (hsub.eq_of_length ?_).symm
  exact ((List.mergeSort_perm runs startsBy).filter _).length_eq.symm

end Chronicle

end Workflow.Storage.RunLog
