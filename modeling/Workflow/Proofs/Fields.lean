import Mathlib.Data.List.Basic
import Mathlib.Data.List.Pairwise
import Mathlib.Data.List.Perm.Basic
import Workflow.Json.Decode
import Workflow.Proofs.Fallible

/-!
The fields of structures. A part of a structure is read from the one entry or item of its field,
what every field keeps is kept by the whole reading, and the order of the entries of an object does
not matter where the fields can be read in either order.
-/
namespace Workflow.Json.Decoder

open Fallible (bind_eq_ok)

variable {α β γ : Type}

theorem Field.read_of_eq_ok {name : String} {decoder : Decoder γ} {set : β → γ → β}
    {hasDefault : Bool} {d : Draft} {b b' : β} :
    (Field.of name decoder set hasDefault).read d b = .ok b' ↔
      ∃ v, decoder d = .ok v ∧ b' = set b v := by
  refine bind_eq_ok.trans (exists_congr fun v => and_congr_right fun _ => ?_)
  exact ⟨fun h => (Except.ok.inj h).symm, fun h => congrArg Except.ok h.symm⟩

namespace Shape

variable {s : Shape β α}

/-- An entry that is for no field has to be without faults, and one that is for a field has to be
the first of its name. -/
theorem readEntries_cons_eq_ok {e : String × Draft} {rest : List (String × Draft)}
    {seen : List String} {b b' : β} :
    s.readEntries (e :: rest) seen b = .ok b' ↔
      (s.fields.find? (·.name = e.1) = none ∧ e.2.firstError = none ∧
        s.readEntries rest seen b = .ok b') ∨
      ∃ field, s.fields.find? (·.name = e.1) = some field ∧ e.1 ∉ seen ∧
        ∃ b₁, field.read e.2 b = .ok b₁ ∧ s.readEntries rest (e.1 :: seen) b₁ = .ok b' := by
  obtain ⟨key, d⟩ := e
  rw [readEntries]
  cases s.fields.find? (·.name = key) with
  | none =>
    cases d.firstError with
    | some fault => simp
    | none => simp
  | some field =>
    by_cases hkey : key ∈ seen
    · simp [hkey]
    · simp [hkey, bind_eq_ok]

/-! ## What reading keeps -/

section

variable {P : β → Prop} {b b' : β}

/-- What each field keeps is kept by the entries of an object. -/
theorem readEntries_keeps {entries : List (String × Draft)}
    (hkeeps : ∀ field ∈ s.fields, ∀ e ∈ entries, ∀ b b', P b → field.read e.2 b = .ok b' → P b')
    {seen : List String} (hb : P b) (h : s.readEntries entries seen b = .ok b') : P b' := by
  induction entries generalizing seen b with
  | nil =>
    cases h
    exact hb
  | cons entry rest ih =>
    have hrest field (hfield : field ∈ s.fields) e (he : e ∈ rest) :=
      hkeeps field hfield e (List.mem_cons_of_mem _ he)
    rcases readEntries_cons_eq_ok.1 h with ⟨-, -, h⟩ | ⟨field, hfield, -, b₁, hread, h⟩
    · exact ih hrest hb h
    · have hmem := List.mem_of_find?_eq_some hfield
      exact ih hrest (hkeeps field hmem entry List.mem_cons_self b b₁ hb hread) h

theorem readItems_keeps {length : Nat} {ending : Option Flaw} {fields : List (Field β)}
    {items : List Draft}
    (hkeeps : ∀ field ∈ fields, ∀ d ∈ items, ∀ b b', P b → field.read d b = .ok b' → P b')
    (hb : P b) (h : s.readItems length ending fields items b = .ok b') : P b' := by
  induction fields generalizing items b with
  | nil =>
    cases items with
    | nil =>
      rw [readItems.eq_def] at h
      dsimp only at h
      split at h
      · cases h
        exact hb
      · cases h
      · cases h
    | cons d rest => cases h
  | cons field fields ih =>
    have hkeeps' := fun f (hf : f ∈ fields) => hkeeps f (List.mem_cons_of_mem _ hf)
    cases items with
    | nil =>
      rw [readItems.eq_def] at h
      dsimp only at h
      split at h
      · cases h
      split at h
      · exact ih hkeeps' hb h
      · cases h
    | cons d rest =>
      obtain ⟨b₁, hread, h⟩ := bind_eq_ok.1 h
      refine ih (fun f hf d' hd' => hkeeps' f hf d' (List.mem_cons_of_mem _ hd')) ?_ h
      exact hkeeps field List.mem_cons_self d List.mem_cons_self b b₁ hb hread

end

/-! ## Parts -/

/-- A part of a structure that the field of a name reads and that the other fields leave alone. -/
structure Reads (s : Shape β α) (part : β → γ) (name : String) (decoder : Decoder γ) : Prop where
  mem : ∃ field ∈ s.fields, field.name = name
  read : ∀ field ∈ s.fields, ∀ d b b', field.read d b = .ok b' →
    if field.name = name then decoder d = .ok (part b') else part b' = part b

section

variable {part : β → γ} {name : String} {decoder : Decoder γ} (hreads : s.Reads part name decoder)
  {b b' : β}

include hreads

/-- Such a part stays as it is unless there is an entry of the name, and then it is what this entry
stands for. -/
theorem Reads.part_eq {entries : List (String × Draft)} {seen : List String}
    (h : s.readEntries entries seen b = .ok b') :
    (entries.lookup name = none ∧ part b' = part b) ∨
      name ∉ seen ∧ ∃ d, entries.lookup name = some d ∧ decoder d = .ok (part b') := by
  induction entries generalizing seen b with
  | nil =>
    cases h
    exact Or.inl ⟨rfl, rfl⟩
  | cons entry rest ih =>
    obtain ⟨key, d⟩ := entry
    rw [List.lookup_cons]
    rcases readEntries_cons_eq_ok.1 h with ⟨hfield, -, h⟩ | ⟨field, hfield, hkey, b₁, hread, h⟩
    · have hne : name ≠ key := by
        rintro rfl
        obtain ⟨field, hmem, hname⟩ := hreads.mem
        exact List.find?_eq_none.1 hfield field hmem (decide_eq_true hname)
      rw [beq_false_of_ne hne]
      exact ih h
    · have hset := hreads.read field (List.mem_of_find?_eq_some hfield) d b b₁ hread
      rw [show field.name = key by simpa using List.find?_some hfield] at hset
      by_cases heq : key = name
      · -- This is the entry of the part; there is no other one behind it.
        subst heq
        rw [if_pos rfl] at hset
        rw [beq_self_eq_true]
        rcases ih h with ⟨-, hsame⟩ | ⟨hseen, -⟩
        · exact Or.inr ⟨hkey, d, rfl, hsame ▸ hset⟩
        · exact absurd List.mem_cons_self hseen
      · rw [if_neg heq] at hset
        rw [beq_false_of_ne (Ne.symm heq), ← hset]
        exact (ih h).imp id (And.imp_left fun hseen hmem => hseen (List.mem_cons_of_mem _ hmem))

/-- In a sequence it is what the item at the place of the field stands for, if there is one. -/
theorem Reads.part_eq_of_items {length : Nat} {ending : Option Flaw}
    {fields : List (Field β)} (hfields : ∀ field ∈ fields, field ∈ s.fields)
    (hnodup : (fields.map Field.name).Nodup) {items : List Draft}
    (h : s.readItems length ending fields items b = .ok b') :
    (items[(fields.map Field.name).idxOf name]? = none ∧ part b' = part b) ∨
      ∃ d, items[(fields.map Field.name).idxOf name]? = some d ∧ decoder d = .ok (part b') := by
  induction fields generalizing items b with
  | nil =>
    cases items with
    | nil => exact Or.inl ⟨rfl, readItems_keeps (P := (part · = part b)) (by simp) rfl h⟩
    | cons d rest => cases h
  | cons field fields ih =>
    obtain ⟨hfield, hfields⟩ := List.forall_mem_cons.1 hfields
    obtain ⟨hnew, hnodup⟩ := List.nodup_cons.1 hnodup
    cases items with
    | nil => exact Or.inl ⟨rfl, readItems_keeps (P := (part · = part b)) (by simp) rfl h⟩
    | cons d rest =>
      obtain ⟨b₁, hread, h⟩ := bind_eq_ok.1 h
      have hset := hreads.read field hfield d b b₁ hread
      rw [List.map_cons, List.idxOf_cons]
      by_cases heq : field.name = name
      · -- The fields behind this one have other names.
        rw [if_pos heq] at hset
        have hsame : part b' = part b₁ := by
          refine readItems_keeps (P := (part · = part b₁))
            (fun f hf d' _ c c' hc hread' => ?_) rfl h
          have hne : f.name ≠ name := fun hname =>
            hnew (List.mem_map.2 ⟨f, hf, hname.trans heq.symm⟩)
          have hset' := hreads.read f (hfields f hf) d' c c' hread'
          rw [if_neg hne] at hset'
          exact hset'.trans hc
        rw [heq, beq_self_eq_true]
        exact Or.inr ⟨d, rfl, hsame ▸ hset⟩
      · rw [if_neg heq] at hset
        rw [beq_false_of_ne heq, ← hset]
        exact ih hfields hnodup h

end

end Shape

/-! ## The order of entries -/

def Field.Commutes (f g : Field β) : Prop :=
  ∀ d e b b', (f.read d b >>= g.read e) = .ok b' ↔ (g.read e b >>= f.read d) = .ok b'

theorem Field.commutes_of {γ' : Type} {name name' : String} {decoder : Decoder γ}
    {decoder' : Decoder γ'} {set : β → γ → β} {set' : β → γ' → β} {hasDefault hasDefault' : Bool}
    (h : ∀ b c c', set' (set b c) c' = set (set' b c') c) :
    (Field.of name decoder set hasDefault).Commutes (.of name' decoder' set' hasDefault') := by
  intro d e b b'
  simp only [bind_eq_ok, read_of_eq_ok]
  constructor
  · rintro ⟨_, ⟨c, hc, rfl⟩, c', hc', rfl⟩
    exact ⟨_, ⟨c', hc', rfl⟩, c, hc, h b c c'⟩
  · rintro ⟨_, ⟨c', hc', rfl⟩, c, hc, rfl⟩
    exact ⟨_, ⟨c, hc, rfl⟩, c', hc', (h b c c').symm⟩

namespace Shape

def Independent (s : Shape β α) : Prop := s.fields.Pairwise Field.Commutes

variable {s : Shape β α}

theorem Independent.commutes (h : s.Independent) {f g : Field β} (hf : f ∈ s.fields)
    (hg : g ∈ s.fields) (hne : f.name ≠ g.name) : f.Commutes g := by
  have hsymm : Std.Symm (α := Field β) Field.Commutes := ⟨fun _ _ h d e b b' => (h e d b b').symm⟩
  exact List.Pairwise.forall h hf hg (ne_of_apply_ne Field.name hne)

/-- It only matters which fields have been read, not when. -/
theorem readEntries_congr {entries : List (String × Draft)} {seen seen' : List String}
    (h : ∀ key, key ∈ seen ↔ key ∈ seen') (b : β) :
    s.readEntries entries seen b = s.readEntries entries seen' b := by
  induction entries generalizing seen seen' b with
  | nil => rfl
  | cons entry rest ih =>
    have hcons key : key ∈ entry.1 :: seen ↔ key ∈ entry.1 :: seen' := by
      rw [List.mem_cons, List.mem_cons, h]
    simp only [readEntries, ih h, fun b => ih hcons b, h]

theorem Independent.readEntries_swap (hind : s.Independent) {x y : String × Draft}
    {rest : List (String × Draft)} {seen : List String} {b b' : β}
    (h : s.readEntries (y :: x :: rest) seen b = .ok b') :
    s.readEntries (x :: y :: rest) seen b = .ok b' := by
  rcases readEntries_cons_eq_ok.1 h with ⟨hfy, hy, h⟩ | ⟨f, hf, hy, b₁, hb₁, h⟩
  · rcases readEntries_cons_eq_ok.1 h with ⟨hfx, hx, h⟩ | ⟨g, hg, hx, b₂, hb₂, h⟩
    · exact readEntries_cons_eq_ok.2 (.inl ⟨hfx, hx, readEntries_cons_eq_ok.2 (.inl ⟨hfy, hy, h⟩)⟩)
    · exact readEntries_cons_eq_ok.2 (.inr ⟨g, hg, hx, b₂, hb₂,
        readEntries_cons_eq_ok.2 (.inl ⟨hfy, hy, h⟩)⟩)
  · rcases readEntries_cons_eq_ok.1 h with ⟨hfx, hx, h⟩ | ⟨g, hg, hx, b₂, hb₂, h⟩
    · exact readEntries_cons_eq_ok.2 (.inl ⟨hfx, hx,
        readEntries_cons_eq_ok.2 (.inr ⟨f, hf, hy, b₁, hb₁, h⟩)⟩)
    · -- Both entries are for fields, and these have different names.
      obtain ⟨hne, hx⟩ := not_or.1 (List.mem_cons.not.1 hx)
      have hfname : f.name = y.1 := by simpa using List.find?_some hf
      have hgname : g.name = x.1 := by simpa using List.find?_some hg
      have hcommutes := hind.commutes (List.mem_of_find?_eq_some hf)
        (List.mem_of_find?_eq_some hg) (by rw [hfname, hgname]; exact Ne.symm hne)
      obtain ⟨b₃, hb₃, hread⟩ :=
        bind_eq_ok.1 ((hcommutes y.2 x.2 b b₂).1 (bind_eq_ok.2 ⟨b₁, hb₁, hb₂⟩))
      have hseen key : key ∈ x.1 :: y.1 :: seen ↔ key ∈ y.1 :: x.1 :: seen :=
        (List.Perm.swap _ _ seen).mem_iff
      rw [readEntries_congr hseen] at h
      have hy' : y.1 ∉ x.1 :: seen := List.mem_cons.not.2 (not_or.2 ⟨Ne.symm hne, hy⟩)
      exact readEntries_cons_eq_ok.2 (.inr ⟨g, hg, hx, b₃, hb₃,
        readEntries_cons_eq_ok.2 (.inr ⟨f, hf, hy', b₂, hread, h⟩)⟩)

/-- The entries of an object can stand in every order. -/
theorem Independent.readEntries_perm (hind : s.Independent)
    {entries entries' : List (String × Draft)} (hperm : entries.Perm entries')
    {seen : List String} {b b' : β}
    (h : s.readEntries entries seen b = .ok b') : s.readEntries entries' seen b = .ok b' := by
  induction hperm generalizing seen b with
  | nil => exact h
  | cons entry _ ih =>
    rw [readEntries_cons_eq_ok] at h ⊢
    refine h.imp (And.imp_right (And.imp_right ih)) ?_
    rintro ⟨field, hfield, hkey, b₁, hread, h⟩
    exact ⟨field, hfield, hkey, b₁, hread, ih h⟩
  | swap x y rest => exact hind.readEntries_swap h
  | trans _ _ ih ih' => exact ih' (ih h)

end Shape

end Workflow.Json.Decoder
