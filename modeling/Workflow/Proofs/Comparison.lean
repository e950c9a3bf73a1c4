import Mathlib
import Workflow.Condition.Operator
import Workflow.Proofs.Nearest

/-!
Comparing integers. The operators of a condition take two integers as doubles, so that an integer
can be compared with a float; they find two integers equal that have the same nearest double, and
compare all others exactly. Up to `2 ^ 53` every integer is its own nearest double.
-/
namespace Workflow.Condition

open Decimal (HasValue gap hasValue_roundInt nearest)

section

variable {a b : Float} {v w : ℚ}

theorem lt_iff_compare (a b : Float) :
    a < b ↔ a.toModel.unpack.compare b.toModel.unpack = some .lt := by
  change a.lt b = true ↔ _
  rw [Float.lt, decide_eq_true_eq]
  exact beq_iff_eq

theorem beq_of_hasValue (ha : HasValue a.toModel.unpack v) (hb : HasValue b.toModel.unpack w) :
    (a == b) = decide (v = w) := by
  change (a.toModel.unpack.compare b.toModel.unpack == some .eq) = _
  rw [ha.compare_eq hb, Bool.eq_iff_iff, beq_iff_eq, decide_eq_true_eq, Option.some_inj,
    compare_eq_iff_eq]

theorem lt_iff_of_hasValue (ha : HasValue a.toModel.unpack v) (hb : HasValue b.toModel.unpack w) :
    a < b ↔ v < w := by
  rw [lt_iff_compare, ha.compare_eq hb, Option.some_inj, compare_lt_iff_lt]

/-- Doubles that have values are ordered by them. -/
theorem orderFloats_of_hasValue (ha : HasValue a.toModel.unpack v)
    (hb : HasValue b.toModel.unpack w) : orderFloats a b = some (compare v w) := by
  rw [orderFloats, beq_of_hasValue ha hb]
  simp only [lt_iff_of_hasValue ha hb, lt_iff_of_hasValue hb ha, decide_eq_true_eq]
  rcases lt_trichotomy v w with h | rfl | h
  · rw [if_pos h, compare_lt_iff_lt.2 h]
  · rw [if_neg (lt_irrefl v), if_pos rfl, compare_eq_iff_eq.2 rfl]
  · rw [if_neg h.not_gt, if_neg h.ne', if_pos h, compare_gt_iff_gt.2 h]

end

section

variable {x y : Int}

theorem looselyEqual_ofInt (hx : (Json.Number.integer x).Proper)
    (hy : (Json.Number.integer y).Proper) :
    looselyEqual (.ofInt x) (.ofInt y) = decide (nearest x = nearest y) := by
  change (Json.Number.roundInt x == Json.Number.roundInt y) = _
  rw [beq_of_hasValue (hasValue_roundInt hx) (hasValue_roundInt hy)]
  exact decide_eq_decide.2 Int.cast_inj

theorem order_ofInt (hx : (Json.Number.integer x).Proper) (hy : (Json.Number.integer y).Proper) :
    order (.ofInt x) (.ofInt y) = .ok (compare (nearest x) (nearest y)) := by
  rw [Json.ofInt, Json.ofInt, order, Json.Number.toFloat, Json.Number.toFloat,
    orderFloats_of_hasValue (hasValue_roundInt hx) (hasValue_roundInt hy)]
  have hcast : StrictMono ((↑) : Int → ℚ) := Int.cast_strictMono
  rw [← cmp_eq_compare, ← cmp_eq_compare, hcast.cmp_map_eq]

end

/-- What a comparison says of two integers; the operators of containment say nothing of them. -/
def Operator.relation? : Operator → Option (Int → Int → Bool)
  | .eq => some fun x y => x = y
  | .ne => some fun x y => x ≠ y
  | .gt => some fun x y => x > y
  | .lt => some fun x y => x < y
  | .ge => some fun x y => x ≥ y
  | .le => some fun x y => x ≤ y
  | .contains | .isIn => none

section

variable {x y : Int} {operator : Operator} {relation : Int → Int → Bool}

/-- A comparison depends on the order of two integers only. -/
theorem relation_eq_of_compare (h : operator.relation? = some relation) {x' y' : Int}
    (hcompare : compare x y = compare x' y') : relation x y = relation x' y' := by
  have hlt : x < y ↔ x' < y' := by rw [← compare_lt_iff_lt, hcompare, compare_lt_iff_lt]
  have heq : x = y ↔ x' = y' := by rw [← compare_eq_iff_eq, hcompare, compare_eq_iff_eq]
  cases operator with
  | contains => cases h
  | isIn => cases h
  | _ =>
    cases h
    apply decide_eq_decide.2
    omega

theorem evaluate_ofInt (hx : (Json.Number.integer x).Proper)
    (hy : (Json.Number.integer y).Proper) (h : operator.relation? = some relation) :
    operator.evaluate (.ofInt x) (.ofInt y) = .ok (relation (nearest x) (nearest y)) := by
  have hequal := looselyEqual_ofInt hx hy
  have horder := order_ofInt hx hy
  generalize nearest x = v at *
  generalize nearest y = w at *
  cases operator with
  | eq =>
    cases h
    rw [Operator.evaluate, hequal]
  | ne =>
    cases h
    rw [Operator.evaluate, hequal, ← decide_not]
  | contains => cases h
  | isIn => cases h
  | _ =>
    cases h
    rw [Operator.evaluate, horder]
    refine congrArg Except.ok (Bool.eq_iff_iff.2 ?_)
    simp [compare_gt_iff_gt, compare_lt_iff_lt]

/-- A comparison is exact just if it does not matter that integers with the same nearest double
are taken to be equal. -/
theorem evaluate_ofInt_eq_iff (hx : (Json.Number.integer x).Proper)
    (hy : (Json.Number.integer y).Proper) (h : operator.relation? = some relation) :
    operator.evaluate (.ofInt x) (.ofInt y) = .ok (relation x y) ↔
      (nearest x = nearest y → relation x y = relation x x) := by
  have hcompare := Decimal.compare_nearest x y
  rw [evaluate_ofInt hx hy h, Except.ok.injEq]
  by_cases heq : nearest x = nearest y
  · rw [if_pos heq, ← compare_eq_iff_eq.2 (rfl : x = x)] at hcompare
    rw [relation_eq_of_compare h hcompare, imp_iff_right heq]
    exact eq_comm
  · rw [if_neg heq] at hcompare
    rw [relation_eq_of_compare h hcompare]
    exact iff_of_true rfl fun h => absurd h heq

end

section

variable {x : Int} {items : List Int}

theorem contains_ofInt (hx : (Json.Number.integer x).Proper)
    (hitems : ∀ e ∈ items, (Json.Number.integer e).Proper) :
    contains (.array (items.map .ofInt)) (.ofInt x) =
      .ok (decide (nearest x ∈ items.map nearest)) := by
  have hany : (items.map Json.ofInt).any (looselyEqual · (.ofInt x)) =
      decide (nearest x ∈ items.map nearest) := by
    rw [Bool.eq_iff_iff, decide_eq_true_eq, List.any_map, List.any_eq_true, List.mem_map]
    refine exists_congr fun e => and_congr_right fun he => ?_
    rw [Function.comp_apply, looselyEqual_ofInt (hitems e he) hx, decide_eq_true_eq]
  exact congrArg Except.ok hany

/-- Membership is exact just if no other member has the same nearest double. -/
theorem contains_ofInt_eq_iff (hx : (Json.Number.integer x).Proper)
    (hitems : ∀ e ∈ items, (Json.Number.integer e).Proper) :
    contains (.array (items.map .ofInt)) (.ofInt x) = .ok (decide (x ∈ items)) ↔
      (nearest x ∈ items.map nearest → x ∈ items) := by
  rw [contains_ofInt hx hitems, Except.ok.injEq, decide_eq_decide]
  exact iff_iff_implies_and_implies.trans (and_iff_left List.mem_map_of_mem)

end

/-- Integers are compared, and found in an array, as their nearest doubles are, and never with an
error. The answer is exact unless another integer has the same nearest double and it matters. -/
theorem evaluate_integers {x y : Int} {items : List Int}
    (hx : (Json.Number.integer x).Proper) (hy : (Json.Number.integer y).Proper)
    (hitems : ∀ e ∈ items, (Json.Number.integer e).Proper) :
    (∀ operator relation, Operator.relation? operator = some relation →
      operator.evaluate (.ofInt x) (.ofInt y) = .ok (relation (nearest x) (nearest y)) ∧
      (operator.evaluate (.ofInt x) (.ofInt y) = .ok (relation x y) ↔
        (nearest x = nearest y → relation x y = relation x x))) ∧
    (∀ answer ∈ [Operator.contains.evaluate (.array (items.map .ofInt)) (.ofInt x),
        Operator.isIn.evaluate (.ofInt x) (.array (items.map .ofInt))],
      answer = .ok (decide (nearest x ∈ items.map nearest)) ∧
      (answer = .ok (decide (x ∈ items)) ↔ (nearest x ∈ items.map nearest → x ∈ items))) ∧
    2 * (nearest x - x).natAbs ≤ gap x.natAbs ∧ (x.natAbs ≤ 2 ^ 53 → nearest x = x) := by
  refine ⟨fun operator relation h => ⟨evaluate_ofInt hx hy h, evaluate_ofInt_eq_iff hx hy h⟩, ?_,
    Decimal.two_mul_nearest_sub_le x, Decimal.nearest_eq_self⟩
  simp only [List.forall_mem_cons, List.not_mem_nil, false_imp_iff, implies_true, and_true]
  exact ⟨⟨contains_ofInt hx hitems, contains_ofInt_eq_iff hx hitems⟩,
    contains_ofInt hx hitems, contains_ofInt_eq_iff hx hitems⟩

/-- Two moments in nanoseconds are told apart if they are a thousand nanoseconds apart. -/
theorem evaluate_integers_moments :
    let earlier : Int := 1700000000000000000
    let later : Int := 1700000000000001000
    Operator.lt.evaluate (.ofInt earlier) (.ofInt later) = .ok true ∧
      Operator.isIn.evaluate (.ofInt earlier) (.array ([later].map .ofInt)) = .ok false := by
  intro earlier later
  have hearlier : (Json.Number.integer earlier).Proper := ⟨by decide, by decide⟩
  have hlater : (Json.Number.integer later).Proper := ⟨by decide, by decide⟩
  have hne : nearest earlier ≠ nearest later := by decide +kernel
  obtain ⟨hevaluate, hcontains, -⟩ := evaluate_integers hearlier hlater
    (List.forall_mem_singleton.2 hlater)
  refine ⟨((hevaluate .lt _ rfl).2.2 fun h => absurd h hne).trans ?_,
    ((List.forall_mem_cons.1 (List.forall_mem_cons.1 hcontains).2).1.1).trans ?_⟩
  · exact congrArg Except.ok (by decide)
  · exact congrArg Except.ok (decide_eq_false (by simpa using hne))

/-- The least positive integer that is no double is equal to the one before, which is found in an
array that holds the other only; but the arrays of the two, whose members are compared as integers,
differ. -/
theorem evaluate_neighbours :
    let x : Int := 2 ^ 53
    let y : Int := 2 ^ 53 + 1
    (Json.Number.integer x).Proper ∧ (Json.Number.integer y).Proper ∧ x < y ∧
      Operator.eq.evaluate (.ofInt x) (.ofInt y) = .ok true ∧
      Operator.lt.evaluate (.ofInt x) (.ofInt y) = .ok false ∧
      Operator.contains.evaluate (.array [.ofInt y]) (.ofInt x) = .ok true ∧
      Operator.isIn.evaluate (.ofInt x) (.array [.ofInt y]) = .ok true ∧
      Operator.eq.evaluate (.array [.ofInt x]) (.array [.ofInt y]) = .ok false := by
  intro x y
  have hx : (Json.Number.integer x).Proper := ⟨by decide, by decide⟩
  have hy : (Json.Number.integer y).Proper := ⟨by decide, by decide⟩
  have heq : nearest x = nearest y := by decide +kernel
  have hheld : contains (.array [.ofInt y]) (.ofInt x) = .ok true := by
    refine (contains_ofInt hx (List.forall_mem_singleton.2 hy)).trans (congrArg Except.ok ?_)
    exact decide_eq_true (List.mem_singleton.2 heq)
  refine ⟨hx, hy, by decide, ?_, ?_, hheld, hheld, congrArg Except.ok (by decide +kernel)⟩
  · exact (evaluate_ofInt hx hy rfl).trans (congrArg Except.ok (decide_eq_true heq))
  · exact (evaluate_ofInt hx hy rfl).trans (congrArg Except.ok (decide_eq_false heq.not_lt))

end Workflow.Condition
