import Workflow.Proofs.Comparison

/-!
The order of values. Numbers are ordered by the values of their doubles, texts by their characters,
and false comes before true; equality and the four operators of order say of two such values what
follows from the one way in which they compare. Values of two kinds, and those of the other kinds,
have no order.
-/
namespace Workflow.Condition

open Decimal (HasValue)
open Json (Number)

/-- The operators that need an order. -/
def Operator.orderings : List Operator := [.gt, .lt, .ge, .le]

/-- The operators of which each says one way to compare. -/
def Operator.ways : List Operator := [.lt, .eq, .gt]

/-- The operator that says how two values compare. -/
def Operator.ofOrdering : Ordering → Operator
  | .lt => .lt
  | .eq => .eq
  | .gt => .gt

def Operator.Holds (operator : Operator) (a b : Json) : Prop := operator.evaluate a b = .ok true

/-- Two numbers, two texts or two truth values. -/
inductive Comparable : Json → Json → Prop
  | numbers (x y : Number) : Comparable (.number x) (.number y)
  | texts (s t : String) : Comparable (.string s) (.string t)
  | truths (p q : Bool) : Comparable (.bool p) (.bool q)

theorem Comparable.symm {a b : Json} (h : Comparable a b) : Comparable b a := by
  cases h with
  | numbers x y => exact .numbers y x
  | texts s t => exact .texts t s
  | truths p q => exact .truths q p

/-! ## How values compare -/

/-- How two values compare; equality is one of the ways. -/
structure Compares (a b : Json) (o : Ordering) : Prop where
  ordered : order a b = .ok o
  equal : looselyEqual a b = (o == .eq)

section

variable {x y : Number} {v w : ℚ}

theorem exists_hasValue_toFloat (hx : x.Proper) : ∃ v, HasValue x.toFloat.toModel.unpack v :=
  Decimal.exists_hasValue hx.isFinite_toFloat

theorem compares_numbers (hx : HasValue x.toFloat.toModel.unpack v)
    (hy : HasValue y.toFloat.toModel.unpack w) :
    Compares (.number x) (.number y) (compare v w) where
  ordered := by rw [order, orderFloats_of_hasValue hx hy]
  equal := by
    rw [looselyEqual, beq_of_hasValue hx hy, Bool.eq_iff_iff, decide_eq_true_eq, beq_iff_eq,
      compare_eq_iff_eq]

end

theorem compares_texts (s t : String) : Compares (.string s) (.string t) (compare s t) where
  ordered := rfl
  equal := by
    change (s == t) = _
    rw [Bool.eq_iff_iff, beq_iff_eq, beq_iff_eq, compare_eq_iff_eq]

theorem compares_truths (p q : Bool) : Compares (.bool p) (.bool q) (compare p q) := by
  cases p <;> cases q <;> exact ⟨rfl, rfl⟩

section

variable {a b c : Json} {o : Ordering}

theorem Compares.eq (h : Compares a b o) {o' : Ordering} (h' : Compares a b o') : o = o' :=
  Except.ok.inj (h.ordered.symm.trans h'.ordered)

/-- Comparable values compare as their places in a linear order do. -/
theorem Comparable.exists_places (h : Comparable a b) (h' : Comparable b c)
    (ha : ∀ n ∈ a.numbers, n.Proper) (hb : ∀ n ∈ b.numbers, n.Proper)
    (hc : ∀ n ∈ c.numbers, n.Proper) :
    ∃ (α : Type) (_ : LinearOrder α) (i j k : α), Compares a b (compare i j) ∧
      Compares b a (compare j i) ∧ Compares b c (compare j k) ∧ Compares a c (compare i k) := by
  cases h with
  | numbers x y =>
    cases h' with
    | numbers y z =>
      obtain ⟨u, hu⟩ := exists_hasValue_toFloat (ha x (List.mem_singleton_self x))
      obtain ⟨v, hv⟩ := exists_hasValue_toFloat (hb y (List.mem_singleton_self y))
      obtain ⟨w, hw⟩ := exists_hasValue_toFloat (hc z (List.mem_singleton_self z))
      exact ⟨ℚ, inferInstance, u, v, w, compares_numbers hu hv, compares_numbers hv hu,
        compares_numbers hv hw, compares_numbers hu hw⟩
  | texts s t =>
    cases h' with
    | texts t u =>
      exact ⟨String, inferInstance, s, t, u, compares_texts s t, compares_texts t s,
        compares_texts t u, compares_texts s u⟩
  | truths p q =>
    cases h' with
    | truths q r =>
      exact ⟨Bool, inferInstance, p, q, r, compares_truths p q, compares_truths q p,
        compares_truths q r, compares_truths p r⟩

/-- Comparable values compare, and in the opposite way when they are exchanged. -/
theorem Comparable.exists_compares (h : Comparable a b) (ha : ∀ n ∈ a.numbers, n.Proper)
    (hb : ∀ n ∈ b.numbers, n.Proper) : ∃ o, Compares a b o ∧ Compares b a o.swap := by
  obtain ⟨α, _, i, j, -, hab, hba, -⟩ := h.exists_places h.symm ha hb ha
  refine ⟨compare i j, hab, ?_⟩
  rwa [← Std.OrientedCmp.eq_swap]

theorem Compares.trans (hab : Compares a b .lt) (hbc : Compares b c .lt) (h : Comparable a b)
    (h' : Comparable b c) (ha : ∀ n ∈ a.numbers, n.Proper) (hb : ∀ n ∈ b.numbers, n.Proper)
    (hc : ∀ n ∈ c.numbers, n.Proper) : Compares a c .lt := by
  obtain ⟨α, _, i, j, k, hij, -, hjk, hik⟩ := h.exists_places h' ha hb hc
  have hlt := (compare_lt_iff_lt.1 (hij.eq hab)).trans (compare_lt_iff_lt.1 (hjk.eq hbc))
  rwa [compare_lt_iff_lt.2 hlt] at hik

theorem order_of_not_comparable (h : ¬ Comparable a b) :
    order a b = .error (.kinds a.kind b.kind) := by
  unfold order
  split
  · exact absurd (.numbers _ _) h
  · exact absurd (.texts _ _) h
  · exact absurd (.truths _ _) h
  · rfl

end

/-! ## What the operators say -/

/-- What an operator says of two values by how they compare; containment has nothing to do with
it. -/
def Operator.verdict? : Operator → Option (Ordering → Bool)
  | .eq => some (· == .eq)
  | .ne => some (· != .eq)
  | .gt => some (· == .gt)
  | .lt => some (· == .lt)
  | .ge => some (· != .lt)
  | .le => some (· != .gt)
  | .contains | .isIn => none

section

variable {a b : Json} {o : Ordering} {operator : Operator}

theorem Compares.evaluate (h : Compares a b o) {verdict : Ordering → Bool}
    (hverdict : operator.verdict? = some verdict) : operator.evaluate a b = .ok (verdict o) := by
  cases operator with
  | eq =>
    cases hverdict
    rw [Operator.evaluate, h.equal]
  | ne =>
    cases hverdict
    rw [Operator.evaluate, h.equal]
    rfl
  | contains => cases hverdict
  | isIn => cases hverdict
  | _ =>
    cases hverdict
    rw [Operator.evaluate, h.ordered]
    rfl

theorem Compares.holds_iff (h : Compares a b o) {verdict : Ordering → Bool}
    (hverdict : operator.verdict? = some verdict) : operator.Holds a b ↔ verdict o = true := by
  rw [Operator.Holds, h.evaluate hverdict, Except.ok.injEq]

/-- Of coming before, being equal and coming after, just the one that is the case holds. -/
theorem Compares.holds_iff_eq (h : Compares a b o) (hop : operator ∈ Operator.ways) :
    operator.Holds a b ↔ operator = .ofOrdering o := by
  simp only [Operator.ways, List.mem_cons, List.not_mem_nil, or_false] at hop
  rcases hop with rfl | rfl | rfl
  all_goals
    rw [h.holds_iff rfl]
    cases o <;> decide

theorem isSome_verdict? (h : operator ∈ Operator.orderings) : operator.verdict?.isSome := by
  revert operator
  decide

theorem evaluate_of_not_comparable (h : ¬ Comparable a b) (hop : operator ∈ Operator.orderings) :
    operator.evaluate a b = .error (.kinds a.kind b.kind) := by
  have horder := order_of_not_comparable h
  cases operator with
  | eq => exact absurd hop (by decide)
  | ne => exact absurd hop (by decide)
  | contains => exact absurd hop (by decide)
  | isIn => exact absurd hop (by decide)
  | _ =>
    rw [Operator.evaluate, horder]
    rfl

end

/-- Numbers, texts and truth values are ordered, each kind by itself: the operators of order
answer, just one of coming before, being equal and coming after holds, the other two operators
follow from these, exchanging the values exchanges before and after, and coming before is
transitive. All other values are not ordered, and the operators of order fail both ways round. -/
theorem evaluate_coherent {a b c : Json} (ha : ∀ n ∈ a.numbers, n.Proper)
    (hb : ∀ n ∈ b.numbers, n.Proper) (hc : ∀ n ∈ c.numbers, n.Proper) :
    (Comparable a b →
      (∀ operator ∈ Operator.orderings, ∃ answer, operator.evaluate a b = .ok answer) ∧
      (∃! operator, operator ∈ Operator.ways ∧ operator.Holds a b) ∧
      (Operator.le.Holds a b ↔ Operator.lt.Holds a b ∨ Operator.eq.Holds a b) ∧
      (Operator.ge.Holds a b ↔ Operator.gt.Holds a b ∨ Operator.eq.Holds a b) ∧
      (Operator.lt.Holds a b ↔ Operator.gt.Holds b a) ∧
      (Comparable b c → Operator.lt.Holds a b → Operator.lt.Holds b c →
        Operator.lt.Holds a c)) ∧
    (¬ Comparable a b → ∀ operator ∈ Operator.orderings,
      operator.evaluate a b = .error (.kinds a.kind b.kind) ∧
      operator.evaluate b a = .error (.kinds b.kind a.kind)) := by
  constructor
  · intro h
    obtain ⟨o, hab, hba⟩ := h.exists_compares ha hb
    refine ⟨?_, ⟨.ofOrdering o, ⟨?_, ?_⟩, ?_⟩, ?_, ?_, ?_, ?_⟩
    · intro operator hoperator
      obtain ⟨verdict, hverdict⟩ := Option.isSome_iff_exists.1 (isSome_verdict? hoperator)
      exact ⟨verdict o, hab.evaluate hverdict⟩
    · cases o <;> decide
    · exact (hab.holds_iff_eq (by cases o <;> decide)).2 rfl
    · rintro operator ⟨hoperator, hholds⟩
      exact (hab.holds_iff_eq hoperator).1 hholds
    · rw [hab.holds_iff rfl, hab.holds_iff rfl, hab.holds_iff rfl]
      cases o <;> decide
    · rw [hab.holds_iff rfl, hab.holds_iff rfl, hab.holds_iff rfl]
      cases o <;> decide
    · rw [hab.holds_iff rfl, hba.holds_iff rfl]
      cases o <;> decide
    · intro h' hlt hlt'
      obtain ⟨o', hbc, -⟩ := h'.exists_compares hb hc
      obtain rfl : o = .lt := by rwa [hab.holds_iff rfl, beq_iff_eq] at hlt
      obtain rfl : o' = .lt := by rwa [hbc.holds_iff rfl, beq_iff_eq] at hlt'
      exact ((hab.trans hbc h h' ha hb hc).holds_iff rfl).2 rfl
  · intro h operator hoperator
    exact ⟨evaluate_of_not_comparable h hoperator,
      evaluate_of_not_comparable (fun hba => h hba.symm) hoperator⟩

/-- The least double above zero stands between the integers zero and one; the text of an integer
stands nowhere. -/
theorem evaluate_coherent_least :
    let a : Json := .ofInt 0
    let b : Json := .number (.float 5e-324)
    let c : Json := .ofInt 1
    let d : Json := .string "1"
    Comparable a b ∧ Comparable b c ∧ Operator.lt.Holds a b ∧ Operator.lt.Holds b c ∧
      Operator.lt.Holds a c ∧ Operator.gt.Holds b a ∧ ¬ Comparable c d ∧
      Operator.ge.evaluate c d = .error (.kinds .number .string) := by
  intro a b c d
  have hb : ∀ n ∈ b.numbers, n.Proper := by
    refine List.forall_mem_singleton.2 ?_
    change (5e-324 : Float).isFinite
    decide +kernel
  have ha : ∀ n ∈ a.numbers, n.Proper := List.forall_mem_singleton.2 ⟨by decide, by decide⟩
  have hc : ∀ n ∈ c.numbers, n.Proper := List.forall_mem_singleton.2 ⟨by decide, by decide⟩
  have hd : ∀ n ∈ d.numbers, n.Proper := List.forall_mem_nil _
  have hlt {x y : Number} (h : orderFloats x.toFloat y.toFloat = some .lt) :
      Operator.lt.Holds (.number x) (.number y) := by
    rw [Operator.Holds, Operator.evaluate, order, h]
    rfl
  have hab : Operator.lt.Holds a b := hlt (by decide +kernel)
  have hbc : Operator.lt.Holds b c := hlt (by decide +kernel)
  have hcd : ¬ Comparable (.ofInt 1) (.string "1") := by
    intro h
    cases h
  obtain ⟨-, -, -, -, hswap, htrans⟩ := (evaluate_coherent ha hb hc).1 (.numbers _ _)
  exact ⟨.numbers _ _, .numbers _ _, hab, hbc, htrans (.numbers _ _) hab hbc, hswap.1 hab, hcd,
    ((evaluate_coherent hc hd ha).2 hcd .ge (by decide)).1⟩

end Workflow.Condition
