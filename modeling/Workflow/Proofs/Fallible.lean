import Mathlib.Data.List.Forall2

/-!
Steps that can fail. A sequence of steps succeeds just if each of them does, and so do the steps
that are taken for the members of a list, one after the other.
-/
namespace Workflow.Fallible

variable {α β ε : Type}

theorem exists_of_isOk {x : Except ε α} (h : x.isOk = true) : ∃ a, x = .ok a := by
  cases x with
  | error e => cases h
  | ok a => exact ⟨a, rfl⟩

theorem toOption_eq_some {x : Except ε α} {a : α} : x.toOption = some a ↔ x = .ok a := by
  cases x <;> simp [Except.toOption]

theorem bind_eq_ok {x : Except ε α} {f : α → Except ε β} {b : β} :
    x >>= f = .ok b ↔ ∃ a, x = .ok a ∧ f a = .ok b := by
  cases x with
  | error e => exact iff_of_false nofun (by rintro ⟨a, ⟨⟩, -⟩)
  | ok a =>
    constructor
    · exact fun h => ⟨a, rfl, h⟩
    · rintro ⟨a, ⟨⟩, h⟩
      exact h

/-- A step and those that follow fail just if the step does, or they do behind it. -/
theorem bind_eq_error {x : Except ε α} {f : α → Except ε β} {e : ε} :
    x >>= f = .error e ↔ x = .error e ∨ ∃ a, x = .ok a ∧ f a = .error e := by
  cases x with
  | error e' => simp [Bind.bind, Except.bind]
  | ok a => simp [Bind.bind, Except.bind]

/-- A step and those that follow succeed just if the step does and they do behind it. -/
theorem exists_bind_iff {x : Except ε α} {f : α → Except ε β} :
    (∃ b, x >>= f = .ok b) ↔ ∃ a, x = .ok a ∧ ∃ b, f a = .ok b := by
  simp only [bind_eq_ok]
  rw [exists_comm]
  simp only [exists_and_left]

/-- Steps that go on behind a check have passed it. -/
theorem of_guard {p : Prop} [Decidable p] {e : ε} {f : α → Except ε β} {x : Except ε β} {b : β}
    (h : (if p then Except.error e >>= f else x) = .ok b) : ¬ p ∧ x = .ok b := by
  by_cases hp : p
  · rw [if_pos hp] at h
    cases h
  · rw [if_neg hp] at h
    exact ⟨hp, h⟩

/-- Steps behind a check fail just if the check does, with its own error, or they do. -/
theorem guard_eq_error {p : Prop} [Decidable p] {e e' : ε} {f : α → Except ε β}
    {x : Except ε β} : (if p then Except.error e >>= f else x) = .error e' ↔
      p ∧ e = e' ∨ ¬ p ∧ x = .error e' := by
  by_cases hp : p
  · simp [hp, Bind.bind, Except.bind]
  · simp [hp]

variable {f : α → Except ε β} {as : List α} {bs : List β}

/-- What is made of a list is made of its members, one by one. -/
theorem mapM_eq_ok : as.mapM f = .ok bs ↔ List.Forall₂ (fun a b => f a = .ok b) as bs := by
  induction as generalizing bs with
  | nil =>
    rw [List.mapM_nil, List.forall₂_nil_left_iff]
    constructor
    · rintro ⟨⟩
      rfl
    · rintro rfl
      rfl
  | cons a rest ih =>
    rw [List.mapM_cons, List.forall₂_cons_left_iff]
    constructor
    · intro h
      obtain ⟨b, hfirst, h⟩ := bind_eq_ok.1 h
      obtain ⟨made, hrest, ⟨⟩⟩ := bind_eq_ok.1 h
      exact ⟨b, made, hfirst, ih.1 hrest, rfl⟩
    · rintro ⟨b, made, hfirst, hrest, rfl⟩
      rw [hfirst, ih.2 hrest]
      rfl

theorem exists_of_mem_forall₂ {R : α → β → Prop} (h : List.Forall₂ R as bs) {b : β} (hb : b ∈ bs) :
    ∃ a ∈ as, R a b := by
  induction h with
  | nil => cases hb
  | cons hfirst _ ih =>
    rcases List.mem_cons.1 hb with rfl | hb
    · exact ⟨_, List.mem_cons_self, hfirst⟩
    · obtain ⟨a, ha, hmade⟩ := ih hb
      exact ⟨a, List.mem_cons_of_mem _ ha, hmade⟩

theorem exists_of_mem_mapM (h : as.mapM f = .ok bs) {b : β} (hb : b ∈ bs) :
    ∃ a ∈ as, f a = .ok b :=
  exists_of_mem_forall₂ (mapM_eq_ok.1 h) hb

/-- Where a step succeeds on every member of a list, all of them succeed. -/
theorem mapM_eq_map {g : α → β} (h : ∀ a ∈ as, f a = .ok (g a)) : as.mapM f = .ok (as.map g) :=
  mapM_eq_ok.2 (List.forall₂_map_right_iff.2 (List.forall₂_same.2 h))

theorem mapM_congr {g : α → Except ε β} (h : ∀ a ∈ as, f a = g a) : as.mapM f = as.mapM g := by
  induction as with
  | nil => rfl
  | cons a rest ih =>
    obtain ⟨hfirst, hrest⟩ := List.forall_mem_cons.1 h
    rw [List.mapM_cons, List.mapM_cons, hfirst, ih hrest]

/-- All steps succeed just if each of them does. -/
theorem exists_mapM_iff : (∃ bs, as.mapM f = .ok bs) ↔ ∀ a ∈ as, ∃ b, f a = .ok b := by
  constructor
  · rintro ⟨bs, h⟩
    have hmade := mapM_eq_ok.1 h
    clear h
    induction hmade with
    | nil => exact List.forall_mem_nil _
    | cons hfirst _ ih => exact List.forall_mem_cons.2 ⟨⟨_, hfirst⟩, ih⟩
  · intro h
    induction as with
    | nil => exact ⟨[], rfl⟩
    | cons a rest ih =>
      obtain ⟨⟨b, hfirst⟩, hrest⟩ := List.forall_mem_cons.1 h
      obtain ⟨bs, hbs⟩ := ih hrest
      exact ⟨b :: bs, mapM_eq_ok.2 (.cons hfirst (mapM_eq_ok.1 hbs))⟩

/-- Steps fail with the error of the first one that fails. -/
theorem exists_of_mapM_eq_error {e : ε} (h : as.mapM f = .error e) :
    ∃ before a after, as = before ++ a :: after ∧ (∀ a ∈ before, ∃ b, f a = .ok b) ∧
      f a = .error e := by
  induction as with
  | nil => cases h
  | cons a rest ih =>
    rw [List.mapM_cons] at h
    rcases bind_eq_error.1 h with hfirst | ⟨b, hfirst, h⟩
    · exact ⟨[], a, rest, rfl, List.forall_mem_nil _, hfirst⟩
    · rcases bind_eq_error.1 h with hrest | ⟨bs, -, h⟩
      · obtain ⟨before, a', after, rfl, hbefore, hfails⟩ := ih hrest
        exact ⟨a :: before, a', after, rfl, List.forall_mem_cons.2 ⟨⟨b, hfirst⟩, hbefore⟩, hfails⟩
      · cases h

end Workflow.Fallible
