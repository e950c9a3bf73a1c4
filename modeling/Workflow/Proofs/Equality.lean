import Workflow.Proofs.Order

/-!
Equality of values. Two numbers are equal when their doubles are, but inside of arrays and objects
an integer and a float are never the same; so equality on the outside is coarser than inside. Both
are equivalences on values whose numbers are proper, and no operator tells equal values apart.
-/
namespace Workflow

namespace Json

/-- Two values of one kind: two numbers are equal in some sense, and what stands inside of two
arrays or objects is the same. -/
inductive Alike (equal : Number → Number → Bool) : Json → Json → Prop
  | null : Alike equal .null .null
  | bool (b : Bool) : Alike equal (.bool b) (.bool b)
  | numbers {x y : Number} (h : equal x y = true) : Alike equal (.number x) (.number y)
  | string (s : String) : Alike equal (.string s) (.string s)
  | arrays {as bs : List Json} (h : Json.beqItems as bs = true) :
    Alike equal (.array as) (.array bs)
  | objects {as bs : List (String × Json)} (h : Json.beqFields as bs = true) :
    Alike equal (.object as) (.object bs)

theorem beq_iff {a b : Json} : Json.beq a b = true ↔ Alike Number.beq a b := by
  constructor
  · intro h
    unfold Json.beq at h
    split at h
    · exact .null
    · obtain rfl := eq_of_beq h
      exact .bool _
    · exact .numbers h
    · obtain rfl := eq_of_beq h
      exact .string _
    · exact .arrays h
    · exact .objects h
    · cases h
  · intro h
    cases h with
    | null => rfl
    | bool b => exact beq_self_eq_true b
    | numbers h => exact h
    | string s => exact beq_self_eq_true s
    | arrays h => exact h
    | objects h => exact h

end Json

namespace Condition

open Json (Number Alike beq_iff)

/-! ## Numbers -/

section

variable {x y z : Number}

theorem toFloat_beq_self (hx : x.Proper) : (x.toFloat == x.toFloat) = true := by
  obtain ⟨v, hv⟩ := exists_hasValue_toFloat hx
  rw [beq_of_hasValue hv hv]
  exact decide_eq_true rfl

theorem toFloat_beq_congr (hx : x.Proper) (hy : y.Proper) (hz : z.Proper)
    (h : (x.toFloat == y.toFloat) = true) :
    (x.toFloat == z.toFloat) = (y.toFloat == z.toFloat) := by
  obtain ⟨u, hu⟩ := exists_hasValue_toFloat hx
  obtain ⟨v, hv⟩ := exists_hasValue_toFloat hy
  obtain ⟨w, hw⟩ := exists_hasValue_toFloat hz
  rw [beq_of_hasValue hu hv, decide_eq_true_eq] at h
  rw [beq_of_hasValue hu hw, beq_of_hasValue hv hw, h]

/-- The same number has the same double. -/
theorem toFloat_beq_of_beq (hx : x.Proper) (h : Number.beq x y = true) :
    (x.toFloat == y.toFloat) = true := by
  cases x with
  | integer i =>
    cases y with
    | integer j =>
      obtain rfl := eq_of_beq h
      exact toFloat_beq_self hx
    | float y => cases h
  | float x =>
    cases y with
    | integer j => cases h
    | float y => exact h

theorem number_beq_self (hx : x.Proper) : Number.beq x x = true := by
  have hfloat := toFloat_beq_self hx
  cases x with
  | integer i => exact beq_self_eq_true i
  | float x => exact hfloat

theorem number_beq_congr (hx : x.Proper) (hy : y.Proper) (hz : z.Proper)
    (h : Number.beq x y = true) : Number.beq x z = Number.beq y z := by
  have hfloat := toFloat_beq_congr hx hy hz (toFloat_beq_of_beq hx h)
  cases x with
  | integer i =>
    cases y with
    | integer j => rw [eq_of_beq h]
    | float y => cases h
  | float x =>
    cases y with
    | integer j => cases h
    | float y =>
      cases z with
      | integer k => rfl
      | float z => exact hfloat

end

/-! ## What stands inside -/

mutual

theorem beq_self {a : Json} (ha : ∀ n ∈ a.numbers, n.Proper) : Json.beq a a = true := by
  cases a with
  | null => rfl
  | bool b => exact beq_self_eq_true b
  | number x => exact number_beq_self (ha x (List.mem_singleton_self x))
  | string s => exact beq_self_eq_true s
  | array items => exact beqItems_self ha
  | object fields => exact beqFields_self ha

theorem beqItems_self {items : List Json} (h : ∀ n ∈ Json.numbersOfItems items, n.Proper) :
    Json.beqItems items items = true := by
  cases items with
  | nil => rfl
  | cons item rest =>
    obtain ⟨hitem, hrest⟩ := List.forall_mem_append.1 h
    rw [Json.beqItems, beq_self hitem, beqItems_self hrest, Bool.and_self]

theorem beqFields_self {fields : List (String × Json)}
    (h : ∀ n ∈ Json.numbersOfFields fields, n.Proper) : Json.beqFields fields fields = true := by
  cases fields with
  | nil => rfl
  | cons field rest =>
    obtain ⟨key, value⟩ := field
    obtain ⟨hvalue, hrest⟩ := List.forall_mem_append.1 h
    rw [Json.beqFields, beq_self hvalue, beqFields_self hrest, beq_self_eq_true, Bool.and_self,
      Bool.and_self]

end

mutual

/-- What is the same as one of two values that are the same is the same as the other. -/
theorem beq_congr {a b c : Json} (ha : ∀ n ∈ a.numbers, n.Proper)
    (hb : ∀ n ∈ b.numbers, n.Proper) (hc : ∀ n ∈ c.numbers, n.Proper)
    (h : Json.beq a b = true) : Json.beq a c = Json.beq b c := by
  cases a with
  | null =>
    cases beq_iff.1 h
    rfl
  | bool p =>
    cases beq_iff.1 h
    rfl
  | number x =>
    cases beq_iff.1 h with | numbers h =>
    cases c with
    | number z =>
      exact number_beq_congr (ha x (List.mem_singleton_self x)) (hb _ (List.mem_singleton_self _))
        (hc z (List.mem_singleton_self z)) h
    | _ => rfl
  | string s =>
    cases beq_iff.1 h
    rfl
  | array items =>
    cases beq_iff.1 h with | arrays h =>
    cases c with
    | array cs => exact beqItems_congr ha hb hc h
    | _ => rfl
  | object fields =>
    cases beq_iff.1 h with | objects h =>
    cases c with
    | object cs => exact beqFields_congr ha hb hc h
    | _ => rfl
termination_by structural a

theorem beqItems_congr {as bs cs : List Json} (has : ∀ n ∈ Json.numbersOfItems as, n.Proper)
    (hbs : ∀ n ∈ Json.numbersOfItems bs, n.Proper) (hcs : ∀ n ∈ Json.numbersOfItems cs, n.Proper)
    (h : Json.beqItems as bs = true) : Json.beqItems as cs = Json.beqItems bs cs := by
  cases as with
  | nil =>
    cases bs with
    | nil => rfl
    | cons b bs => cases h
  | cons a as =>
    cases bs with
    | nil => cases h
    | cons b bs =>
      cases cs with
      | nil => rfl
      | cons c cs =>
        obtain ⟨hhead, htail⟩ := Bool.and_eq_true_iff.1 h
        obtain ⟨ha, has⟩ := List.forall_mem_append.1 has
        obtain ⟨hb, hbs⟩ := List.forall_mem_append.1 hbs
        obtain ⟨hc, hcs⟩ := List.forall_mem_append.1 hcs
        rw [Json.beqItems, Json.beqItems, beq_congr ha hb hc hhead,
          beqItems_congr has hbs hcs htail]
termination_by structural as

theorem beqFields_congr {as bs cs : List (String × Json)}
    (has : ∀ n ∈ Json.numbersOfFields as, n.Proper)
    (hbs : ∀ n ∈ Json.numbersOfFields bs, n.Proper)
    (hcs : ∀ n ∈ Json.numbersOfFields cs, n.Proper) (h : Json.beqFields as bs = true) :
    Json.beqFields as cs = Json.beqFields bs cs := by
  cases as with
  | nil =>
    cases bs with
    | nil => rfl
    | cons b bs => cases h
  | cons a as =>
    cases bs with
    | nil => cases h
    | cons b bs =>
      cases cs with
      | nil => rfl
      | cons c cs =>
        obtain ⟨hhead, htail⟩ := Bool.and_eq_true_iff.1 h
        obtain ⟨hkey, hvalue⟩ := Bool.and_eq_true_iff.1 hhead
        obtain ⟨ha, has⟩ := List.forall_mem_append.1 has
        obtain ⟨hb, hbs⟩ := List.forall_mem_append.1 hbs
        obtain ⟨hc, hcs⟩ := List.forall_mem_append.1 hcs
        rw [Json.beqFields, Json.beqFields, eq_of_beq hkey, beq_congr ha hb hc hvalue,
          beqFields_congr has hbs hcs htail]
termination_by structural as

end

/-! ## Equality -/

theorem looselyEqual_iff {a b : Json} :
    looselyEqual a b = true ↔ Alike (fun x y => x.toFloat == y.toFloat) a b := by
  constructor
  · intro h
    unfold looselyEqual at h
    split at h
    · exact .numbers h
    · rename_i hnumbers
      cases beq_iff.1 h with
      | null => exact .null
      | bool b => exact .bool b
      | numbers _ => exact absurd rfl (hnumbers _ _ rfl)
      | string s => exact .string s
      | arrays h => exact .arrays h
      | objects h => exact .objects h
  · intro h
    cases h with
    | null => rfl
    | bool b => exact beq_self_eq_true b
    | numbers h => exact h
    | string s => exact beq_self_eq_true s
    | arrays h => exact h
    | objects h => exact h

section

variable {a b c : Json}

/-- Values that are the same are equal. -/
theorem looselyEqual_of_beq (ha : ∀ n ∈ a.numbers, n.Proper) (h : Json.beq a b = true) :
    looselyEqual a b = true := by
  cases beq_iff.1 h with
  | numbers h => exact toFloat_beq_of_beq (ha _ (List.mem_singleton_self _)) h
  | _ => exact h

theorem looselyEqual_self (ha : ∀ n ∈ a.numbers, n.Proper) : looselyEqual a a = true :=
  looselyEqual_of_beq ha (beq_self ha)

theorem looselyEqual_congr_left (ha : ∀ n ∈ a.numbers, n.Proper)
    (hb : ∀ n ∈ b.numbers, n.Proper) (hc : ∀ n ∈ c.numbers, n.Proper)
    (h : looselyEqual a b = true) : looselyEqual a c = looselyEqual b c := by
  cases looselyEqual_iff.1 h with
  | numbers h =>
    cases c with
    | number z =>
      exact toFloat_beq_congr (ha _ (List.mem_singleton_self _)) (hb _ (List.mem_singleton_self _))
        (hc z (List.mem_singleton_self z)) h
    | _ => rfl
  | arrays h => exact beq_congr ha hb hc h
  | objects h => exact beq_congr ha hb hc h
  | _ => rfl

theorem looselyEqual_symm (ha : ∀ n ∈ a.numbers, n.Proper) (hb : ∀ n ∈ b.numbers, n.Proper)
    (h : looselyEqual a b = true) : looselyEqual b a = true := by
  rw [← looselyEqual_congr_left ha hb ha h]
  exact looselyEqual_self ha

theorem looselyEqual_comm (ha : ∀ n ∈ a.numbers, n.Proper) (hb : ∀ n ∈ b.numbers, n.Proper) :
    looselyEqual a b = looselyEqual b a :=
  Bool.eq_iff_iff.2 ⟨looselyEqual_symm ha hb, looselyEqual_symm hb ha⟩

theorem looselyEqual_congr {a' b' : Json} (ha : ∀ n ∈ a.numbers, n.Proper)
    (hb : ∀ n ∈ b.numbers, n.Proper) (ha' : ∀ n ∈ a'.numbers, n.Proper)
    (hb' : ∀ n ∈ b'.numbers, n.Proper) (haa' : looselyEqual a a' = true)
    (hbb' : looselyEqual b b' = true) : looselyEqual a b = looselyEqual a' b' :=
  calc looselyEqual a b = looselyEqual a' b := looselyEqual_congr_left ha ha' hb haa'
    _ = looselyEqual b a' := looselyEqual_comm ha' hb
    _ = looselyEqual b' a' := looselyEqual_congr_left hb hb' ha' hbb'
    _ = looselyEqual a' b' := looselyEqual_comm hb' ha'

end

/-! ## Operators -/

section

variable {a b a' b' : Json} (ha : ∀ n ∈ a.numbers, n.Proper) (hb : ∀ n ∈ b.numbers, n.Proper)
  (ha' : ∀ n ∈ a'.numbers, n.Proper) (hb' : ∀ n ∈ b'.numbers, n.Proper)

/-- Values that are equal to comparable values are comparable. -/
theorem Comparable.of_looselyEqual (h : Comparable a b) (haa' : looselyEqual a a' = true)
    (hbb' : looselyEqual b b' = true) : Comparable a' b' := by
  cases h with
  | numbers x y =>
    cases looselyEqual_iff.1 haa'
    cases looselyEqual_iff.1 hbb'
    exact .numbers _ _
  | texts s t =>
    cases looselyEqual_iff.1 haa'
    cases looselyEqual_iff.1 hbb'
    exact .texts _ _
  | truths p q =>
    cases looselyEqual_iff.1 haa'
    cases looselyEqual_iff.1 hbb'
    exact .truths _ _

include ha hb ha' hb' in
/-- Equal values have the same order, or none. -/
theorem order_congr (haa' : looselyEqual a a' = true) (hbb' : looselyEqual b b' = true) :
    (order a b).toOption = (order a' b').toOption := by
  by_cases h : Comparable a b
  · cases h with
    | numbers x y =>
      cases looselyEqual_iff.1 haa' with | numbers hx =>
      cases looselyEqual_iff.1 hbb' with | numbers hy =>
      obtain ⟨v, hv⟩ := exists_hasValue_toFloat (ha x (List.mem_singleton_self x))
      obtain ⟨w, hw⟩ := exists_hasValue_toFloat (hb y (List.mem_singleton_self y))
      obtain ⟨v', hv'⟩ := exists_hasValue_toFloat (ha' _ (List.mem_singleton_self _))
      obtain ⟨w', hw'⟩ := exists_hasValue_toFloat (hb' _ (List.mem_singleton_self _))
      rw [beq_of_hasValue hv hv', decide_eq_true_eq] at hx
      rw [beq_of_hasValue hw hw', decide_eq_true_eq] at hy
      rw [(compares_numbers hv hw).ordered, (compares_numbers hv' hw').ordered, hx, hy]
    | texts s t =>
      cases looselyEqual_iff.1 haa'
      cases looselyEqual_iff.1 hbb'
      rfl
    | truths p q =>
      cases looselyEqual_iff.1 haa'
      cases looselyEqual_iff.1 hbb'
      rfl
  · have h' : ¬ Comparable a' b' := fun h' => h (h'.of_looselyEqual
      (looselyEqual_symm ha ha' haa') (looselyEqual_symm hb hb' hbb'))
    rw [order_of_not_comparable h, order_of_not_comparable h']
    rfl

/-- Equal items are found in arrays with the same items. -/
theorem any_congr {items items' : List Json} (hitems : ∀ n ∈ Json.numbersOfItems items, n.Proper)
    (hitems' : ∀ n ∈ Json.numbersOfItems items', n.Proper)
    (h : Json.beqItems items items' = true) (hb : ∀ n ∈ b.numbers, n.Proper)
    (hb' : ∀ n ∈ b'.numbers, n.Proper) (hbb' : looselyEqual b b' = true) :
    items.any (looselyEqual · b) = items'.any (looselyEqual · b') := by
  induction items generalizing items' with
  | nil =>
    cases items' with
    | nil => rfl
    | cons item' rest' => cases h
  | cons item rest ih =>
    cases items' with
    | nil => cases h
    | cons item' rest' =>
      obtain ⟨hhead, htail⟩ := Bool.and_eq_true_iff.1 h
      obtain ⟨hitem, hrest⟩ := List.forall_mem_append.1 hitems
      obtain ⟨hitem', hrest'⟩ := List.forall_mem_append.1 hitems'
      rw [List.any_cons, List.any_cons, ih hrest hrest' htail,
        looselyEqual_congr hitem hb hitem' hb' (looselyEqual_of_beq hitem hhead) hbb']

/-- Objects with the same entries have the same keys. -/
theorem isSome_find?_congr {fields fields' : Payload} (h : Json.beqFields fields fields' = true)
    (key : String) :
    (Payload.find? fields key).isSome = (Payload.find? fields' key).isSome := by
  induction fields generalizing fields' with
  | nil =>
    cases fields' with
    | nil => rfl
    | cons field' rest' => cases h
  | cons field rest ih =>
    cases fields' with
    | nil => cases h
    | cons field' rest' =>
      obtain ⟨hhead, htail⟩ := Bool.and_eq_true_iff.1 h
      obtain ⟨hkey, -⟩ := Bool.and_eq_true_iff.1 hhead
      rw [Payload.find?, Payload.find?, eq_of_beq hkey]
      split
      · rfl
      · exact ih htail

include ha hb ha' hb' in
/-- Equal values hold equal values, or cannot hold them. -/
theorem contains_congr (haa' : looselyEqual a a' = true) (hbb' : looselyEqual b b' = true) :
    (contains a b).toOption = (contains a' b').toOption := by
  cases looselyEqual_iff.1 haa' with
  | string s =>
    cases looselyEqual_iff.1 hbb' <;> rfl
  | arrays h => exact congrArg some (any_congr ha ha' h hb hb' hbb')
  | objects h =>
    cases looselyEqual_iff.1 hbb' with
    | string key => exact congrArg some (isSome_find?_congr h key)
    | _ => rfl
  | _ => rfl

theorem toOption_map {ε α β : Type} (f : α → β) (x : Except ε α) :
    (x.map f).toOption = x.toOption.map f := by
  cases x <;> rfl

include ha hb ha' hb' in
/-- No operator tells equal values apart. -/
theorem evaluate_congr (haa' : looselyEqual a a' = true) (hbb' : looselyEqual b b' = true)
    (operator : Operator) :
    (operator.evaluate a b).toOption = (operator.evaluate a' b').toOption := by
  have hequal := looselyEqual_congr ha hb ha' hb' haa' hbb'
  have horder := order_congr ha hb ha' hb' haa' hbb'
  cases operator with
  | eq => exact congrArg some hequal
  | ne => exact congrArg (some !·) hequal
  | contains => exact contains_congr ha hb ha' hb' haa' hbb'
  | isIn => exact contains_congr hb ha hb' ha' hbb' haa'
  | _ => rw [Operator.evaluate, Operator.evaluate, toOption_map, toOption_map, horder]

end

/-- Two values are equal if they are numbers with the same double, or of one other kind and the
same. This is an equivalence, and inequality is its negation; every operator answers the same on
equal values, or fails on both. -/
theorem evaluate_respects {a b c a' b' : Json} (ha : ∀ n ∈ a.numbers, n.Proper)
    (hb : ∀ n ∈ b.numbers, n.Proper) (hc : ∀ n ∈ c.numbers, n.Proper)
    (ha' : ∀ n ∈ a'.numbers, n.Proper) (hb' : ∀ n ∈ b'.numbers, n.Proper) :
    (Operator.eq.Holds a b ↔ Alike (fun x y => x.toFloat == y.toFloat) a b) ∧
    Operator.eq.Holds a a ∧
    (Operator.eq.Holds a b → Operator.eq.Holds b a) ∧
    (Operator.eq.Holds a b → Operator.eq.Holds b c → Operator.eq.Holds a c) ∧
    (∃ answer, Operator.eq.evaluate a b = .ok answer ∧ Operator.ne.evaluate a b = .ok !answer) ∧
    (Operator.eq.Holds a a' → Operator.eq.Holds b b' → ∀ operator : Operator,
      (operator.evaluate a b).toOption = (operator.evaluate a' b').toOption) := by
  have hholds {v w : Json} : Operator.eq.Holds v w ↔ looselyEqual v w = true := by
    rw [Operator.Holds, Operator.evaluate, Except.ok.injEq]
  simp only [hholds]
  refine ⟨looselyEqual_iff, looselyEqual_self ha, looselyEqual_symm ha hb, ?_,
    ⟨looselyEqual a b, rfl, rfl⟩, evaluate_congr ha hb ha' hb'⟩
  intro hab hbc
  rw [looselyEqual_congr_left ha hb hc hab]
  exact hbc

/-- The integer zero, the float zero and its negative are equal; an array that holds the one float
is equal to an array that holds the other, and each is found in both. -/
theorem evaluate_respects_zeros :
    let zero : Json := .ofInt 0
    let positive : Json := .number (.float 0.0)
    let negative : Json := .number (.float (-0.0))
    Operator.eq.Holds positive zero ∧ Operator.eq.Holds zero negative ∧
      Operator.eq.Holds positive negative ∧ Operator.eq.Holds negative zero ∧
      Operator.eq.Holds (.array [positive]) (.array [negative]) ∧
      (Operator.contains.evaluate (.array [positive]) zero).toOption =
        (Operator.contains.evaluate (.array [negative]) negative).toOption := by
  intro zero positive negative
  have hzero : ∀ n ∈ zero.numbers, n.Proper := List.forall_mem_singleton.2 ⟨by decide, by decide⟩
  have hpositive : ∀ n ∈ positive.numbers, n.Proper := by
    refine List.forall_mem_singleton.2 ?_
    change (0.0 : Float).isFinite
    decide +kernel
  have hnegative : ∀ n ∈ negative.numbers, n.Proper := by
    refine List.forall_mem_singleton.2 ?_
    change (-0.0 : Float).isFinite
    decide +kernel
  have hholds {a b : Json} (h : looselyEqual a b = true) : Operator.eq.Holds a b := by
    rw [Operator.Holds, Operator.evaluate, h]
  have hfirst : Operator.eq.Holds positive zero := hholds (by decide +kernel)
  have hsecond : Operator.eq.Holds zero negative := hholds (by decide +kernel)
  have harrays : Operator.eq.Holds (.array [positive]) (.array [negative]) :=
    hholds (by decide +kernel)
  obtain ⟨-, -, -, htrans, -, -⟩ :=
    evaluate_respects hpositive hzero hnegative hpositive hpositive
  obtain ⟨-, -, hsymm, -, -, -⟩ := evaluate_respects hzero hnegative hzero hzero hzero
  have hpositives : ∀ n ∈ (Json.array [positive]).numbers, n.Proper := hpositive
  have hnegatives : ∀ n ∈ (Json.array [negative]).numbers, n.Proper := hnegative
  obtain ⟨-, -, -, -, -, hrespects⟩ :=
    evaluate_respects hpositives hzero hzero hnegatives hnegative
  exact ⟨hfirst, hsecond, htrans hfirst hsecond, hsymm hsecond, harrays,
    hrespects harrays hsecond .contains⟩

end Condition

end Workflow
