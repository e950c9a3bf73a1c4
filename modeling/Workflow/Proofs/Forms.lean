import Workflow.Proofs.Fields

/-!
Forms of documents. A form says which documents there are for a value, and a decoder that reads
just the documents of a form reads them as what they stand for. A structure with one field may be
given as an object, where every other entry is ignored, or as a sequence with one item at most.
-/
namespace Workflow.Json

open Fallible (bind_eq_ok)

/-- The documents that stand for a value. -/
abbrev Form (α : Type) := Draft → α → Prop

namespace Form

variable {α β : Type}

/-- An entry that is for no field of the name, and in which the text is nowhere wrong. -/
def Other (name : String) (e : String × Draft) : Prop := e.1 ≠ name ∧ e.2.firstError = none

/-- What a document gives for the one field of a structure. -/
inductive Gets (name : String) : Draft → Option Draft → Prop where
  | absent {entries : List (String × Draft)} (h : ∀ e ∈ entries, Other name e) :
      Gets name (.object entries none) none
  | entry {before after : List (String × Draft)} {d : Draft} (hbefore : ∀ e ∈ before, Other name e)
      (hafter : ∀ e ∈ after, Other name e) :
      Gets name (.object (before ++ (name, d) :: after) none) (some d)
  | empty : Gets name (.array [] none) none
  | item {d : Draft} : Gets name (.array [d] none) (some d)

def map (f : α → β) (form : Form α) : Form β := fun d b => ∃ a, form d a ∧ b = f a

def string : Form String := fun d s => d = .leaf (.string s)

def nullable (form : Form α) : Form (Option α) := fun d o =>
  (d = .leaf .null ∧ o = none) ∨ d ≠ .leaf .null ∧ ∃ a, o = some a ∧ form d a

def items (form : Form α) : Form (List α) := fun d as =>
  ∃ ds, d = .array ds none ∧ List.Forall₂ form ds as

/-- A structure whose one field has to be there. -/
def required (name : String) (form : Form α) : Form α := fun d a =>
  ∃ e, Gets name d (some e) ∧ form e a

/-- A structure whose one field may be missing. -/
def optional (name : String) (form : Form α) (default : α) : Form α := fun d a =>
  (Gets name d none ∧ a = default) ∨ required name form d a

end Form

namespace Decoder

variable {α β γ : Type} {inner : Decoder α} {form : Form α}

/-- The decoder reads just the documents of the form, as what they stand for. -/
def Accepts (decoder : Decoder α) (form : Form α) : Prop := ∀ d a, decoder d = .ok a ↔ form d a

theorem liftRead_check_eq_ok {ending : Option Flaw} {u : Unit} :
    liftRead (Draft.check ending) = .ok u ↔ ending = none := by
  cases ending with
  | none => exact iff_of_true rfl rfl
  | some e => exact iff_of_false nofun nofun

theorem accepts_string : Accepts string Form.string := by
  intro d s
  unfold Form.string
  cases d with
  | leaf v =>
    cases v with
    | string text => simp [string]
    | _ => exact iff_of_false nofun nofun
  | _ => exact iff_of_false nofun nofun

theorem Accepts.optional (h : Accepts inner form) :
    Accepts (Decoder.optional inner) (.nullable form) := by
  intro d o
  unfold Form.nullable
  have hthere (hd : d ≠ .leaf .null)
      (hread : Decoder.optional inner d = (inner d >>= fun a => .ok (some a))) :
      Decoder.optional inner d = .ok o ↔
        (d = .leaf .null ∧ o = none) ∨ d ≠ .leaf .null ∧ ∃ a, o = some a ∧ form d a := by
    rw [hread, bind_eq_ok, or_iff_right fun hnull => hd hnull.1, and_iff_right hd]
    refine exists_congr fun a => ?_
    rw [h d a, and_comm, Except.ok.injEq, eq_comm]
  cases d with
  | leaf v =>
    cases v with
    | null =>
      rw [or_iff_left fun hnot => hnot.1 rfl, and_iff_right rfl]
      exact ⟨fun hread => (Except.ok.inj hread).symm, fun hnone => congrArg Except.ok hnone.symm⟩
    | _ => exact hthere nofun rfl
  | _ => exact hthere nofun rfl

theorem Accepts.list (h : Accepts inner form) : Accepts (Decoder.list inner) (.items form) := by
  intro d as
  unfold Form.items
  cases d with
  | array ds ending =>
    unfold Decoder.list
    rw [bind_eq_ok]
    constructor
    · rintro ⟨values, hvalues, hending⟩
      obtain ⟨⟨⟩, hcheck, ⟨⟩⟩ := bind_eq_ok.1 hending
      obtain rfl := liftRead_check_eq_ok.1 hcheck
      exact ⟨ds, rfl, (Fallible.mapM_eq_ok.1 hvalues).imp fun e a => (h e a).1⟩
    · rintro ⟨_, ⟨⟩, hds⟩
      exact ⟨as, Fallible.mapM_eq_ok.2 (hds.imp fun e a => (h e a).2), rfl⟩
  | _ => exact iff_of_false nofun nofun

/-! ## Structures with one field -/

section

variable {s : Shape β γ} {name : String} {set : β → α → β} {hasDefault : Bool}
  (hfields : s.fields = [.of name inner set hasDefault])

include hfields

theorem find?_single (key : String) : s.fields.find? (·.name = key) =
    if key = name then some (.of name inner set hasDefault) else none := by
  rw [hfields]
  by_cases hkey : key = name
  · simp [hkey, Field.of]
  · simp [hkey, Field.of, Ne.symm hkey]

/-- Behind the entry of the field there are only others. -/
theorem readEntries_seen {entries : List (String × Draft)} {b b' : β} :
    s.readEntries entries [name] b = .ok b' ↔ (∀ e ∈ entries, Form.Other name e) ∧ b' = b := by
  induction entries with
  | nil =>
    rw [Shape.readEntries, and_iff_right (List.forall_mem_nil _)]
    exact ⟨fun h => (Except.ok.inj h).symm, fun h => congrArg Except.ok h.symm⟩
  | cons e rest ih =>
    rw [Shape.readEntries_cons_eq_ok, ih, find?_single hfields, List.forall_mem_cons]
    by_cases hkey : e.1 = name
    · simp [Form.Other, hkey]
    · simp [Form.Other, hkey, and_assoc]

/-- An entry with another name is passed over. -/
theorem readEntries_cons_other {key : String} {d : Draft} {rest : List (String × Draft)}
    {b b' : β} (hkey : key ≠ name) : s.readEntries ((key, d) :: rest) [] b = .ok b' ↔
      Form.Other name (key, d) ∧ s.readEntries rest [] b = .ok b' := by
  rw [Shape.readEntries_cons_eq_ok, find?_single hfields, if_neg hkey]
  simp [Form.Other, hkey]

/-- The entry of the field is read, and only others may come after it. -/
theorem readEntries_cons_field {d : Draft} {rest : List (String × Draft)} {b b' : β} :
    s.readEntries ((name, d) :: rest) [] b = .ok b' ↔
      ∃ c, inner d = .ok c ∧ (∀ e ∈ rest, Form.Other name e) ∧ b' = set b c := by
  rw [Shape.readEntries_cons_eq_ok, find?_single hfields, if_pos rfl]
  constructor
  · rintro (⟨⟨⟩, -⟩ | ⟨_, ⟨⟩, -, b₁, hread, hrest⟩)
    obtain ⟨c, hc, rfl⟩ := Field.read_of_eq_ok.1 hread
    obtain ⟨hothers, rfl⟩ := (readEntries_seen hfields).1 hrest
    exact ⟨c, hc, hothers, rfl⟩
  · rintro ⟨c, hc, hothers, rfl⟩
    exact Or.inr ⟨_, rfl, List.not_mem_nil, set b c, Field.read_of_eq_ok.2 ⟨c, hc, rfl⟩,
      (readEntries_seen hfields).2 ⟨hothers, rfl⟩⟩

theorem readEntries_single {entries : List (String × Draft)} {b b' : β} :
    s.readEntries entries [] b = .ok b' ↔
      ((∀ e ∈ entries, Form.Other name e) ∧ b' = b) ∨
      ∃ before d after c, entries = before ++ (name, d) :: after ∧
        (∀ e ∈ before, Form.Other name e) ∧ (∀ e ∈ after, Form.Other name e) ∧
        inner d = .ok c ∧ b' = set b c := by
  induction entries with
  | nil =>
    rw [Shape.readEntries, and_iff_right (List.forall_mem_nil _), or_iff_left]
    · exact ⟨fun h => (Except.ok.inj h).symm, fun h => congrArg Except.ok h.symm⟩
    · rintro ⟨before, d, after, c, heq, -⟩
      exact absurd heq.symm (List.append_ne_nil_of_right_ne_nil _ (List.cons_ne_nil _ _))
  | cons e rest ih =>
    obtain ⟨key, d⟩ := e
    by_cases hkey : key = name
    · subst hkey
      rw [readEntries_cons_field hfields]
      constructor
      · rintro ⟨c, hc, hafter, hb⟩
        exact Or.inr ⟨[], d, rest, c, rfl, List.forall_mem_nil _, hafter, hc, hb⟩
      · rintro (⟨hall, -⟩ | ⟨before, e, after, c, heq, hbefore, hafter, hc, hb⟩)
        · exact absurd rfl (hall _ List.mem_cons_self).1
        · cases before with
          | nil =>
            cases heq
            exact ⟨c, hc, hafter, hb⟩
          | cons first before =>
            cases heq
            exact absurd rfl (hbefore _ List.mem_cons_self).1
    · rw [readEntries_cons_other hfields hkey, ih]
      constructor
      · rintro ⟨hother, ⟨hall, hb⟩ | ⟨before, e, after, c, rfl, hbefore, hafter, hc, hb⟩⟩
        · exact Or.inl ⟨List.forall_mem_cons.2 ⟨hother, hall⟩, hb⟩
        · exact Or.inr ⟨(key, d) :: before, e, after, c, rfl,
            List.forall_mem_cons.2 ⟨hother, hbefore⟩, hafter, hc, hb⟩
      · rintro (⟨hall, hb⟩ | ⟨before, e, after, c, heq, hbefore, hafter, hc, hb⟩)
        · obtain ⟨hother, hrest⟩ := List.forall_mem_cons.1 hall
          exact ⟨hother, Or.inl ⟨hrest, hb⟩⟩
        · cases before with
          | nil =>
            cases heq
            exact absurd rfl hkey
          | cons first before =>
            cases heq
            obtain ⟨hother, hbefore⟩ := List.forall_mem_cons.1 hbefore
            exact ⟨hother, Or.inr ⟨before, e, after, c, rfl, hbefore, hafter, hc, hb⟩⟩

theorem readItems_single {length : Nat} {ending : Option Flaw} {ds : List Draft} {b b' : β} :
    s.readItems length ending s.fields ds b = .ok b' ↔ ending = none ∧
      ((ds = [] ∧ hasDefault = true ∧ b' = b) ∨
        ∃ d c, ds = [d] ∧ inner d = .ok c ∧ b' = set b c) := by
  have hnil (ds : List Draft) (b : β) :
      s.readItems length ending [] ds b = .ok b' ↔ ending = none ∧ ds = [] ∧ b' = b := by
    rw [Shape.readItems.eq_def]
    cases ds with
    | nil =>
      cases ending with
      | none => simp [eq_comm]
      | some e =>
        refine iff_of_false ?_ fun h => Option.some_ne_none e h.1
        dsimp only
        split
        · rename_i hending
          cases hending
        · rintro ⟨⟩
        · rintro ⟨⟩
    | cons d rest => simp
  rw [hfields]
  cases ds with
  | nil =>
    rw [Shape.readItems.eq_def]
    cases ending with
    | none =>
      cases hasDefault with
      | true => simp [Field.of, hnil]
      | false => simp [Field.of]
    | some e => simp
  | cons d rest =>
    rw [Shape.readItems, bind_eq_ok]
    simp only [Field.read_of_eq_ok, hnil]
    constructor
    · rintro ⟨b₁, ⟨c, hc, rfl⟩, rfl, rfl, rfl⟩
      exact ⟨rfl, Or.inr ⟨d, c, rfl, hc, rfl⟩⟩
    · rintro ⟨rfl, ⟨⟨⟩, -⟩ | ⟨_, c, ⟨⟩, hc, rfl⟩⟩
      exact ⟨_, ⟨c, hc, rfl⟩, rfl, rfl, rfl⟩

/-- A structure with one field is read from what a document gives for this field. -/
theorem decode_single {d : Draft} {a : γ} : s.decode d = .ok a ↔
    (Form.Gets name d none ∧ (hasDefault = true ∨ ∃ entries, d = .object entries none) ∧
      s.finish s.empty = .ok a) ∨
    ∃ e c, Form.Gets name d (some e) ∧ inner e = .ok c ∧ s.finish (set s.empty c) = .ok a := by
  cases d with
  | object entries ending =>
    rw [Shape.decode, bind_eq_ok]
    simp only [readEntries_single hfields, bind_eq_ok, liftRead_check_eq_ok]
    constructor
    · rintro ⟨b, ⟨hall, rfl⟩ | ⟨before, e, after, c, rfl, hbefore, hafter, hc, rfl⟩, -, rfl,
        hfinish⟩
      · exact Or.inl ⟨.absent hall, Or.inr ⟨entries, rfl⟩, hfinish⟩
      · exact Or.inr ⟨e, c, .entry hbefore hafter, hc, hfinish⟩
    · rintro (⟨hgets, -, hfinish⟩ | ⟨e, c, hgets, hc, hfinish⟩)
      · cases hgets with
        | absent hall => exact ⟨_, Or.inl ⟨hall, rfl⟩, (), rfl, hfinish⟩
      · cases hgets with
        | entry hbefore hafter =>
          exact ⟨_, Or.inr ⟨_, e, _, c, rfl, hbefore, hafter, hc, rfl⟩, (), rfl, hfinish⟩
  | array ds ending =>
    rw [Shape.decode, bind_eq_ok]
    simp only [readItems_single hfields]
    constructor
    · rintro ⟨b, ⟨rfl, ⟨rfl, hdefault, rfl⟩ | ⟨e, c, rfl, hc, rfl⟩⟩, hfinish⟩
      · exact Or.inl ⟨.empty, Or.inl hdefault, hfinish⟩
      · exact Or.inr ⟨e, c, .item, hc, hfinish⟩
    · rintro (⟨hgets, hdefault, hfinish⟩ | ⟨e, c, hgets, hc, hfinish⟩)
      · cases hgets with
        | empty =>
          have htrue := hdefault.resolve_right nofun
          exact ⟨_, ⟨rfl, Or.inl ⟨rfl, htrue, rfl⟩⟩, hfinish⟩
      · cases hgets with
        | item => exact ⟨_, ⟨rfl, Or.inr ⟨e, c, rfl, hc, rfl⟩⟩, hfinish⟩
  | _ =>
    refine iff_of_false nofun ?_
    rintro (⟨⟨⟩, -⟩ | ⟨e, c, ⟨⟩, -⟩)

end

section

variable {s : Shape β α} {name : String} {set : β → α → β}

theorem Accepts.exists_gets_iff (h : Accepts inner form)
    (hset : ∀ c, s.finish (set s.empty c) = .ok c) {d : Draft} {a : α} :
    (∃ e c, Form.Gets name d (some e) ∧ inner e = .ok c ∧ s.finish (set s.empty c) = .ok a) ↔
      Form.required name form d a := by
  refine exists_congr fun e => ?_
  constructor
  · rintro ⟨c, hgets, hc, hfinish⟩
    rw [hset, Except.ok.injEq] at hfinish
    exact ⟨hgets, hfinish ▸ (h e c).1 hc⟩
  · rintro ⟨hgets, ha⟩
    exact ⟨a, hgets, (h e a).2 ha, hset a⟩

theorem Accepts.structure_of_default (h : Accepts inner form)
    (hfields : s.fields = [.of name inner set true]) {default : α}
    (hempty : s.finish s.empty = .ok default) (hset : ∀ c, s.finish (set s.empty c) = .ok c) :
    Accepts s.decode (.optional name form default) := by
  intro d a
  rw [decode_single hfields, h.exists_gets_iff hset, hempty, Except.ok.injEq,
    eq_comm (a := default), and_iff_right (Or.inl rfl)]
  rfl

theorem Accepts.structure_of_required (h : Accepts inner form) {hasDefault : Bool}
    (hfields : s.fields = [.of name inner set hasDefault])
    (hempty : ∀ a, s.finish s.empty ≠ .ok a) (hset : ∀ c, s.finish (set s.empty c) = .ok c) :
    Accepts s.decode (.required name form) := by
  intro d a
  rw [decode_single hfields, or_iff_right fun hnone => hempty a hnone.2.2]
  exact h.exists_gets_iff hset

end

/-- A document is decoded if it is of the form and nothing is wrong behind its value. -/
theorem Accepts.decode_eq_ok {decoder : Decoder α} (h : Accepts decoder form) {d : Document}
    {a : α} : d.decode decoder = .ok a ↔ d.trailing = none ∧ form d.root a := by
  unfold Document.decode
  rw [bind_eq_ok]
  constructor
  · rintro ⟨b, hroot, hrest⟩
    obtain ⟨u, hcheck, ⟨⟩⟩ := bind_eq_ok.1 hrest
    exact ⟨Option.map_eq_none_iff.1 (liftRead_check_eq_ok.1 hcheck), (h _ _).1 hroot⟩
  · rintro ⟨htrailing, hroot⟩
    refine ⟨a, (h _ _).2 hroot, bind_eq_ok.2 ⟨(), ?_, rfl⟩⟩
    exact liftRead_check_eq_ok.2 (Option.map_eq_none_iff.2 htrailing)

end Decoder

end Workflow.Json
