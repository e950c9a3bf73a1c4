import Workflow.Proofs.Floats
import Workflow.Proofs.Values

/-!
Decoding what was encoded. A structure is decoded from an object whose entries are for its fields;
numbers are those that their texts are read as, and what is nested too deep is not decoded.
-/
namespace Workflow.Json

open Fallible (bind_eq_ok)

theorem mapItems_eq_map (f : Number → Number) (items : List Json) :
    mapItems f items = items.map (mapNumbers f) := by
  induction items with
  | nil => rfl
  | cons item rest ih => rw [mapItems, List.map_cons, ih]

section

variable (f : Number → Number)

theorem mapNumbers_ofText? (text : Option String) : (ofText? text).mapNumbers f = ofText? text := by
  cases text <;> rfl

theorem mapNumbers_ofTexts (texts : List String) :
    (ofTexts texts).mapNumbers f = ofTexts texts := by
  rw [ofTexts, mapNumbers, mapItems_eq_map, List.map_map]
  rfl

end

theorem numbers_ofText? (text : Option String) : (ofText? text).numbers = [] := by
  cases text <;> rfl

theorem numbers_ofTexts (texts : List String) : (ofTexts texts).numbers = [] := by
  refine List.eq_nil_iff_forall_not_mem.2 fun n hn => ?_
  obtain ⟨v, hv, hn⟩ := mem_numbersOfItems.1 hn
  obtain ⟨text, -, rfl⟩ := List.mem_map.1 hv
  cases hn

theorem depth_ofText? (text : Option String) : (ofText? text).depth = 0 := by
  cases text <;> rfl

theorem depth_ofFloat (x : Float) : (ofFloat x).depth = 0 := by
  unfold ofFloat
  split <;> rfl

namespace Decoder

section

variable {α β : Type} {inner : Decoder α}

theorem Gives.optional {value : Json} {a : α} (hvalue : value ≠ .null) (h : Gives inner value a) :
    Gives (optional inner) value (some a) :=
  gives_optional_iff.2 (.inr ⟨hvalue, a, rfl, h⟩)

theorem Gives.list {items : List Json} {as : List α}
    (h : List.Forall₂ (Gives inner) items as) : Gives (list inner) (.array items) as :=
  gives_list_iff.2 ⟨items, rfl, h⟩

/-- Entries are read into fields that stand in the same order. -/
inductive Reads : List (Field β) → List (String × Json) → β → β → Prop where
  | nil (b : β) : Reads [] [] b b
  | cons {γ : Type} {inner : Decoder γ} {value : Json} {a : γ} (h : Gives inner value a)
      {name : String} {set : β → γ → β} {hasDefault : Bool} {fields : List (Field β)}
      {entries : List (String × Json)} {b b' : β} (hrest : Reads fields entries (set b a) b') :
      Reads (.of name inner set hasDefault :: fields) ((name, value) :: entries) b b'
  | skip {field : Field β} {fields : List (Field β)} {entries : List (String × Json)} {b b' : β}
      (hrest : Reads fields entries b b') : Reads (field :: fields) entries b b'

/-- The entry of an optional value is read where it stands; where it is left out, the structure is
already as its field would leave it. -/
theorem Reads.consOptional {γ : Type} {inner : Decoder γ} {value : Option Json} {a : γ}
    {name : String} {set : β → γ → β} {hasDefault : Bool} {fields : List (Field β)}
    {entries : List (String × Json)} {b b' : β} (h : ∀ v ∈ value, Gives inner v a)
    (hnone : value = none → set b a = b) (hrest : Reads fields entries (set b a) b') :
    Reads (.of name inner set hasDefault :: fields)
      (Json.optionalEntry name value ++ entries) b b' := by
  cases value with
  | none => exact .skip (hnone rfl ▸ hrest)
  | some v => exact .cons (h v rfl) hrest

theorem Reads.singleOptional {γ : Type} {inner : Decoder γ} {value : Option Json} {a : γ}
    {name : String} {set : β → γ → β} {hasDefault : Bool} {b : β} (h : ∀ v ∈ value, Gives inner v a)
    (hnone : value = none → set b a = b) :
    Reads [.of name inner set hasDefault] (Json.optionalEntry name value) b (set b a) := by
  have hreads : Reads [.of name inner set hasDefault] (Json.optionalEntry name value ++ []) b
      (set b a) := .consOptional h hnone (.nil _)
  rwa [List.append_nil] at hreads

theorem Reads.keys_sublist {fields : List (Field β)} {entries : List (String × Json)} {b b' : β}
    (h : Reads fields entries b b') :
    (entries.map Prod.fst).Sublist (fields.map Field.name) := by
  induction h with
  | nil b => exact .slnil
  | cons _ _ ih => exact ih.cons_cons _
  | skip _ ih => exact ih.cons _

/-- Where no two fields have one name, an entry is read into the field that it is for. -/
theorem Reads.readEntries_eq {s : Shape β α} (hnodup : (s.fields.map Field.name).Nodup)
    {fields : List (Field β)} {entries : List (String × Json)} {b b' : β}
    (h : Reads fields entries b b') {gone : List (Field β)} (hfields : s.fields = gone ++ fields)
    {seen : List String} (hseen : ∀ name ∈ seen, name ∈ gone.map Field.name) :
    s.readEntries (Draft.ofFields entries) seen b = .ok b' := by
  induction h generalizing gone seen with
  | nil b => rfl
  | @cons γ inner value a h name set hasDefault fields entries b b' hrest ih =>
    rw [hfields, List.map_append, List.map_cons] at hnodup
    have hnew : name ∉ gone.map Field.name := fun hmem =>
      (List.nodup_append.1 hnodup).2.2 name hmem name List.mem_cons_self rfl
    have hfind : s.fields.find? (·.name = name) = some (.of name inner set hasDefault) := by
      rw [hfields, List.find?_append, List.find?_eq_none.2, Option.none_or, List.find?_cons_of_pos]
      · exact decide_eq_true rfl
      · intro field hfield hname
        exact hnew (List.mem_map.2 ⟨field, hfield, of_decide_eq_true hname⟩)
    have hread : inner (.ofJson value) = .ok a := h
    rw [Draft.ofFields, Shape.readEntries, hfind]
    simp only [if_neg fun hmem => hnew (hseen name hmem), Field.of, hread]
    have hfields' : s.fields = (gone ++ [.of name inner set hasDefault]) ++ fields := by
      rw [hfields, List.append_assoc, List.singleton_append]
    refine ih hfields' ?_
    rw [List.map_append, List.forall_mem_cons]
    refine ⟨List.mem_append_right _ List.mem_cons_self, fun other hother => ?_⟩
    exact List.mem_append_left _ (hseen other hother)
  | @skip field fields entries b b' _ ih =>
    have hfields' : s.fields = (gone ++ [field]) ++ fields := by
      rw [hfields, List.append_assoc, List.singleton_append]
    refine ih hfields' fun other hother => ?_
    rw [List.map_append]
    exact List.mem_append_left _ (hseen other hother)

/-- What stands for a field is decoded with its structure. -/
theorem Shape.exists_decoded {s : Shape β α} {entries : List (String × Draft)}
    {ending : Option Flaw} {a : α} (h : s.decode (.object entries ending) = .ok a)
    {e : String × Draft} (he : e ∈ entries) {γ : Type} {name : String} {inner : Decoder γ}
    {set : β → γ → β} {hasDefault : Bool}
    (hfind : s.fields.find? (·.name = e.1) = some (.of name inner set hasDefault)) :
    ∃ v, inner e.2 = .ok v := by
  obtain ⟨b, hread, -⟩ := bind_eq_ok.1 h
  clear h
  generalize s.empty = start, ([] : List String) = seen at hread
  induction entries generalizing start seen with
  | nil => cases he
  | cons first rest ih =>
    rcases List.mem_cons.1 he with rfl | he
    · rcases readEntries_cons_eq_ok.1 hread with ⟨hnone, -⟩ | ⟨field, hfield, -, b', hfirst, -⟩
      · rw [hfind] at hnone
        cases hnone
      · rw [hfind, Option.some.injEq] at hfield
        subst hfield
        obtain ⟨v, hv, -⟩ := Field.read_of_eq_ok.1 hfirst
        exact ⟨v, hv⟩
    · rcases readEntries_cons_eq_ok.1 hread with ⟨-, -, hrest⟩ | ⟨-, -, -, b', -, hrest⟩
      · exact ih he _ _ hrest
      · exact ih he _ _ hrest

theorem exists_toJson_of_payload {x : Draft} {p : Payload} (h : payload x = .ok p) :
    ∃ w, x.toJson = .ok w := by
  rw [payload.eq_def] at h
  split at h
  · rename_i es ending
    cases hw : (Draft.object es ending).toJson with
    | ok w => exact ⟨w, rfl⟩
    | error e =>
      rw [hw] at h
      cases h
  · cases x <;> cases h

theorem exists_toJson_of_optional_payload {x : Draft} {p : Option Payload}
    (h : optional payload x = .ok p) : ∃ w, x.toJson = .ok w := by
  rw [optional.eq_def] at h
  split at h
  · exact ⟨.null, rfl⟩
  · obtain ⟨p', hp, -⟩ := bind_eq_ok.1 h
    exact exists_toJson_of_payload hp

theorem exists_decoded_of_list {items : List Draft} {ending : Option Flaw} {as : List α}
    (h : list inner (.array items ending) = .ok as) {x : Draft} (hx : x ∈ items) :
    ∃ a, inner x = .ok a := by
  obtain ⟨as', hmade, -⟩ := bind_eq_ok.1 h
  exact Fallible.exists_mapM_iff.1 ⟨as', hmade⟩ x hx

/-- A decoder makes something only of values that are not nested too deep. -/
def Limits (inner : Decoder α) (k : Nat) (v : Json) : Prop :=
  ∀ ⦃f : Number → Number⦄ ⦃x : Draft⦄ ⦃a : α⦄, MadeOf f k v x → inner x = .ok a →
    k + v.depth ≤ Reader.greatestDepth

theorem limits_of_depth_eq_zero {k : Nat} (hk : k ≤ Reader.greatestDepth) {v : Json}
    (hv : v.depth = 0) : Limits inner k v := by
  intro f x a _ _
  rwa [hv]

theorem limits_payload {k : Nat} (hk : k ≤ Reader.greatestDepth) (v : Json) :
    Limits payload k v := by
  intro f x p hmade hp
  obtain ⟨w, hw⟩ := exists_toJson_of_payload hp
  exact hmade.depth_le v hk hw

theorem limits_optional_payload {k : Nat} (hk : k ≤ Reader.greatestDepth) (v : Json) :
    Limits (optional payload) k v := by
  intro f x p hmade hp
  obtain ⟨w, hw⟩ := exists_toJson_of_optional_payload hp
  exact hmade.depth_le v hk hw

/-- A list limits the depth where its items do. -/
theorem limits_list {k : Nat} (hk : k < Reader.greatestDepth) {items : List Json}
    (h : ∀ v ∈ items, Limits inner (k + 1) v) : Limits (list inner) k (.array items) := by
  intro f x as hmade has
  cases hmade with
  | deepArray hdeep => exact absurd hk (Nat.not_lt.2 hdeep)
  | array _ hitems =>
    have hle : depthOfItems items ≤ Reader.greatestDepth - (k + 1) := by
      refine depthOfItems_le_iff.2 fun v hv => ?_
      obtain ⟨x, hx, hmade⟩ := hitems.exists_mem hv
      obtain ⟨a, ha⟩ := exists_decoded_of_list has hx
      have := h v hv hmade ha
      omega
    rw [depth]
    omega

theorem limits_ofTexts {k : Nat} (hk : k < Reader.greatestDepth) (texts : List String) :
    Limits (list string) k (ofTexts texts) :=
  limits_list hk (List.forall_mem_map.2 fun _ _ => limits_of_depth_eq_zero hk rfl)

/-- A structure limits the depth of an object where its fields do so for the entries. -/
theorem Shape.limits {s : Shape β α} {k : Nat} (hk : k < Reader.greatestDepth)
    {entries : List (String × Json)}
    (h : ∀ e ∈ entries, ∃ (γ : Type) (inner : Decoder γ) (set : β → γ → β) (hasDefault : Bool),
      s.fields.find? (·.name = e.1) = some (.of e.1 inner set hasDefault) ∧
        Limits inner (k + 1) e.2) : Limits s.decode k (.object entries) := by
  intro f x a hmade ha
  cases hmade with
  | deepObject hdeep => exact absurd hk (Nat.not_lt.2 hdeep)
  | object _ hfields =>
    have hle : depthOfFields entries ≤ Reader.greatestDepth - (k + 1) := by
      refine depthOfFields_le_iff.2 fun e he => ?_
      obtain ⟨x, hx, hmade⟩ := hfields.exists_mem he
      obtain ⟨γ, inner, set, hasDefault, hfind, hlimits⟩ := h e he
      obtain ⟨v, hv⟩ := Shape.exists_decoded ha hx hfind
      have := hlimits hmade hv
      omega
    rw [depth]
    omega

/-- A structure is decoded from an object whose entries are for its fields, in their order. -/
theorem Reads.gives {s : Shape β α} {entries : List (String × Json)} {b : β}
    (hnodup : (s.fields.map Field.name).Nodup) (h : Reads s.fields entries s.empty b) {a : α}
    (hfinish : s.finish b = .ok a) : Gives s.decode (.object entries) a := by
  have hfields : s.fields = [] ++ s.fields := rfl
  have hentries := Reads.readEntries_eq hnodup h hfields (List.forall_mem_nil _)
  rw [Gives, Draft.ofJson, Shape.decode, hentries]
  exact hfinish

/-- Where the fields can be read in every order, the entries can be put in order. -/
theorem Reads.gives_ofList {s : Shape β α} {entries : List (String × Json)} {b : β}
    (hnodup : (s.fields.map Field.name).Nodup) (hind : s.Independent)
    (h : Reads s.fields entries s.empty b) {a : α} (hfinish : s.finish b = .ok a) :
    Gives s.decode (.object (Payload.ofList entries)) a :=
  hind.gives_perm (Payload.perm_ofList (hnodup.sublist h.keys_sublist)).symm
    (h.gives hnodup hfinish)

theorem gives_string (text : String) : Gives string (.string text) text := rfl

theorem gives_double (n : Number) : Gives double (.number n) n.toFloat := rfl

theorem gives_double_iff {v : Json} {x : Float} :
    Gives double v x ↔ ∃ n, v = .number n ∧ n.toFloat = x := by
  cases v with
  | number n =>
    constructor
    · rintro ⟨⟩
      exact ⟨n, rfl, rfl⟩
    · rintro ⟨_, ⟨⟩, rfl⟩
      rfl
  | _ => exact iff_of_false nofun nofun

theorem gives_word32 {n : Nat} (h : n < 2 ^ 32) : Gives word32 (.ofInt n) n := by
  rw [Gives, word32, ofInt, Draft.ofJson, natBelow, if_pos ⟨Int.natCast_nonneg n, h⟩,
    Int.toNat_natCast]

theorem lt_of_gives_word32 {v : Json} {n : Nat} (h : Gives word32 v n) : n < 2 ^ 32 := by
  rw [Gives, word32, natBelow.eq_def] at h
  split at h
  · split at h
    · rename_i hbounds
      obtain rfl := Except.ok.inj h
      exact hbounds.2
    · cases h
  · rename_i d hd
    cases hdraft : Draft.ofJson v <;> rw [hdraft] at h <;> cases h

theorem gives_ofText? (text : Option String) : Gives (optional string) (ofText? text) text := by
  cases text <;> rfl

theorem gives_of_mem_map_string {text : Option String} :
    ∀ v ∈ text.map Json.string, Gives (optional string) v text := by
  intro v hv
  obtain ⟨x, rfl, rfl⟩ := Option.map_eq_some_iff.1 hv
  rfl

theorem gives_ofTexts (texts : List String) : Gives (list string) (ofTexts texts) texts :=
  .list (List.forall₂_map_left_iff.2 (List.forall₂_same.2 fun _ _ => rfl))

theorem exists_gives_payload (f : Number → Number) (p : Payload) :
    ∃ p', Gives payload ((Json.object p).mapNumbers f) p' ∧
      (Json.object p').Within ((Json.object p).mapNumbers f) :=
  exists_payload (mapFields f p)

theorem exists_gives_ofPayload? (f : Number → Number) (p : Option Payload) :
    ∃ p', Gives (optional payload) ((ofPayload? p).mapNumbers f) p' ∧
      (ofPayload? p').Within ((ofPayload? p).mapNumbers f) := by
  cases p with
  | none => exact ⟨none, rfl, .refl _⟩
  | some p =>
    obtain ⟨p', hp', hwithin⟩ := exists_gives_payload f p
    exact ⟨some p', hp'.optional nofun, hwithin⟩

end

end Decoder

namespace Number

theorem exists_reread_float {x : Float} (h : x.isFinite) :
    ∃ y, y.isFinite ∧ (float x).reread = float y := by
  obtain ⟨y, hy, hreads⟩ := exists_readsAs_float h
  exact ⟨y, hy, hreads.reread_eq⟩

theorem reread_integer {i : Int} (hlow : -2 ^ 63 ≤ i) (hhigh : i ≤ largestWord) :
    (integer i).reread = integer i :=
  (readsAs_integer hlow hhigh).reread_eq

end Number

/-- Entries whose values are within those of others, one by one. -/
theorem Within.object_of_forall₂ {fields others : List (String × Json)}
    (h : List.Forall₂ (fun e e' => e.2.Within e'.2) fields others) :
    Within (.object fields) (.object others) :=
  .object fun e he => by
    induction h with
    | nil => cases he
    | cons hfirst _ ih =>
      rcases List.mem_cons.1 he with rfl | he
      · exact ⟨_, List.mem_cons_self, hfirst⟩
      · obtain ⟨e', he', hwithin⟩ := ih he
        exact ⟨e', List.mem_cons_of_mem _ he', hwithin⟩

end Workflow.Json
