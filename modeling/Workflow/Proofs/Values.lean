import Workflow.Proofs.Canonical
import Workflow.Proofs.Fields

/-!
Values that are decoded. What a decoder makes of the draft of a value is said of the value itself:
which values are taken, and what an object or a sequence gives for a field.
-/
namespace Workflow.Json

open Fallible (bind_eq_ok)

namespace Draft

theorem ofItems_eq_map (items : List Json) : ofItems items = items.map ofJson := by
  induction items with
  | nil => rfl
  | cons item rest ih => rw [ofItems, List.map_cons, ih]

theorem ofFields_eq_map (fields : List (String × Json)) :
    ofFields fields = fields.map fun e => (e.1, ofJson e.2) := by
  induction fields with
  | nil => rfl
  | cons e rest ih => rw [ofFields, List.map_cons, ih]

theorem lookup_ofFields (fields : Payload) (key : String) :
    (ofFields fields).lookup key = (Payload.find? fields key).map ofJson := by
  induction fields with
  | nil => rfl
  | cons entry rest ih =>
    obtain ⟨k, v⟩ := entry
    rw [ofFields, List.lookup_cons, Payload.find?]
    by_cases h : k = key
    · rw [if_pos h, h, beq_self_eq_true]
      rfl
    · rw [if_neg h, beq_false_of_ne (Ne.symm h)]
      exact ih

mutual

/-- There are no faults in the draft of a value. -/
theorem firstError_ofJson (v : Json) : (ofJson v).firstError = none := by
  cases v with
  | array items =>
    rw [ofJson, firstError, firstItemError_ofItems items]
    rfl
  | object fields =>
    rw [ofJson, firstError, firstFieldError_ofFields fields]
    rfl
  | null => rfl
  | bool b => rfl
  | number n => rfl
  | string s => rfl

theorem firstItemError_ofItems (items : List Json) : firstItemError (ofItems items) = none := by
  cases items with
  | nil => rfl
  | cons item rest =>
    rw [ofItems, firstItemError, firstError_ofJson item, firstItemError_ofItems rest]
    rfl

theorem firstFieldError_ofFields (fields : List (String × Json)) :
    firstFieldError (ofFields fields) = none := by
  cases fields with
  | nil => rfl
  | cons field rest =>
    rw [ofFields, firstFieldError, firstError_ofJson field.2, firstFieldError_ofFields rest]
    rfl

end

end Draft

namespace Decoder

/-- The value is decoded as `a`. -/
def Gives {α : Type} (decoder : Decoder α) (value : Json) (a : α) : Prop :=
  decoder (.ofJson value) = .ok a

theorem gives_string_iff {v : Json} {x : String} : Gives string v x ↔ v = .string x := by
  cases v with
  | string s => simp [Gives, Draft.ofJson, string]
  | _ => exact iff_of_false nofun nofun

theorem gives_value_iff {v w : Json} : Gives value v w ↔ v.normal = w := by
  rw [Gives, value, toJson_ofJson]
  exact ⟨Except.ok.inj, congrArg Except.ok⟩

theorem gives_payload_iff {v : Json} {p : Payload} :
    Gives payload v p ↔ v.normal = .object p := by
  cases v with
  | object fields =>
    rw [Gives, Draft.ofJson, payload, ← Draft.ofJson, toJson_ofJson, normal]
    exact ⟨fun h => congrArg Json.object (Except.ok.inj h),
      fun h => congrArg Except.ok (Json.object.inj h)⟩
  | _ =>
    constructor
    · intro h
      cases h
    · intro h
      cases h

section

variable {α β : Type} {inner : Decoder α}

theorem gives_optional_iff {v : Json} {o : Option α} :
    Gives (optional inner) v o ↔
      (v = .null ∧ o = none) ∨ (v ≠ .null ∧ ∃ a, o = some a ∧ Gives inner v a) := by
  have hthere (hv : v ≠ .null) (hread : optional inner (.ofJson v) =
      (inner (.ofJson v) >>= fun a => .ok (some a))) : Gives (optional inner) v o ↔
      (v = .null ∧ o = none) ∨ (v ≠ .null ∧ ∃ a, o = some a ∧ Gives inner v a) := by
    rw [Gives, hread, bind_eq_ok, or_iff_right fun h => hv h.1, and_iff_right hv]
    refine exists_congr fun a => and_comm.trans (and_congr_left fun _ => ?_)
    exact ⟨fun h => (Except.ok.inj h).symm, fun h => congrArg Except.ok h.symm⟩
  cases v with
  | null =>
    rw [or_iff_left fun h => h.1 rfl, and_iff_right rfl]
    exact ⟨fun h => (Except.ok.inj h).symm, fun h => congrArg Except.ok h.symm⟩
  | _ => exact hthere nofun rfl

theorem gives_list_iff {v : Json} {as : List α} :
    Gives (list inner) v as ↔ ∃ items, v = .array items ∧ List.Forall₂ (Gives inner) items as := by
  cases v with
  | array items =>
    have hitems : (Draft.ofItems items).mapM inner = .ok as ↔
        List.Forall₂ (Gives inner) items as := by
      rw [Draft.ofItems_eq_map, Fallible.mapM_eq_ok, List.forall₂_map_left_iff]
      rfl
    rw [Gives, Draft.ofJson, list, bind_eq_ok]
    constructor
    · rintro ⟨values, hvalues, ⟨⟩⟩
      exact ⟨items, rfl, hitems.1 hvalues⟩
    · rintro ⟨_, ⟨⟩, h⟩
      exact ⟨as, hitems.2 h, rfl⟩
  | _ => exact iff_of_false nofun nofun

/-- What `inner` reads, for a part that is not there before its field is read. -/
def present (inner : Decoder α) : Decoder (Option α) := fun d => some <$> inner d

@[simp]
theorem present_eq_ok {d : Draft} {o : Option α} :
    present inner d = .ok o ↔ ∃ a, inner d = .ok a ∧ o = some a := by
  rw [present]
  cases inner d with
  | error e => exact iff_of_false nofun nofun
  | ok a => simp [Functor.map, Except.map, eq_comm]

namespace Shape

/-- What a value gives for the field of a name: the entry of this name, or the item at the place of
the field. -/
def given (s : Shape β α) (name : String) : Json → Option Json
  | .object fields => Payload.find? fields name
  | .array items => items[(s.fields.map Field.name).idxOf name]?
  | .null | .bool _ | .number _ | .string _ => none

end Shape

/-- A part is what is given for its field, or as it was before if nothing is given. -/
def Filled (inner : Decoder α) (given : Option Json) (before after : α) : Prop :=
  (given = none ∧ after = before) ∨ ∃ v, given = some v ∧ Gives inner v after

namespace Shape

variable {s : Shape β α} {v : Json} {a : α}

/-- The parts of a structure are filled with what the value gives for their fields. -/
theorem exists_of_gives (hnodup : (s.fields.map Field.name).Nodup) (h : Gives s.decode v a) :
    ∃ b, s.finish b = .ok a ∧
      ∀ {γ : Type} {part : β → γ} {name : String} {decoder : Decoder γ},
        s.Reads part name decoder → Filled decoder (s.given name v) (part s.empty) (part b) := by
  cases v with
  | object fields =>
    obtain ⟨b, hread, h⟩ := bind_eq_ok.1 h
    obtain ⟨⟨⟩, -, hfinish⟩ := bind_eq_ok.1 h
    refine ⟨b, hfinish, fun {γ part name decoder} hreads => ?_⟩
    refine (hreads.part_eq hread).imp ?_ ?_
    · rw [Draft.lookup_ofFields, Option.map_eq_none_iff]
      exact id
    · rintro ⟨-, d, hd, hdecoded⟩
      rw [Draft.lookup_ofFields, Option.map_eq_some_iff] at hd
      obtain ⟨w, hw, rfl⟩ := hd
      exact ⟨w, hw, hdecoded⟩
  | array items =>
    obtain ⟨b, hread, hfinish⟩ := bind_eq_ok.1 h
    refine ⟨b, hfinish, fun {γ part name decoder} hreads => ?_⟩
    refine (hreads.part_eq_of_items (fun _ => id) hnodup hread).imp ?_ ?_
    · rw [Draft.ofItems_eq_map, List.getElem?_map, Option.map_eq_none_iff]
      exact id
    · rintro ⟨d, hd, hdecoded⟩
      rw [Draft.ofItems_eq_map, List.getElem?_map, Option.map_eq_some_iff] at hd
      obtain ⟨w, hw, rfl⟩ := hd
      exact ⟨w, hw, hdecoded⟩
  | null => cases h
  | bool b => cases h
  | number n => cases h
  | string x => cases h

/-- What a value in order gives is in order. -/
theorem canonical_given (hv : v.Canonical) {name : String} {w : Json}
    (hw : s.given name v = some w) : w.Canonical := by
  cases v with
  | object fields =>
    exact canonicalFields_iff.1 hv.2 _ ((Payload.find?_eq_some_iff hv.1.nodup).1 hw)
  | array items => exact canonicalItems_iff.1 hv w (List.mem_of_getElem? hw)
  | null => cases hw
  | bool b => cases hw
  | number n => cases hw
  | string x => cases hw

theorem map_normal_given (hv : v.Canonical) (name : String) :
    (s.given name v).map normal = s.given name v := by
  cases hw : s.given name v with
  | none => rfl
  | some w => exact congrArg some (canonical_given hv hw).normal_eq

/-- What each field keeps when it is read from a value inside is kept by the whole reading. -/
theorem exists_keeps_of_gives {P : β → Prop}
    (hkeeps : ∀ field ∈ s.fields, ∀ w : Json, w.numbers ⊆ v.numbers →
      ∀ b b', P b → field.read (.ofJson w) b = .ok b' → P b')
    (hempty : P s.empty) (h : Gives s.decode v a) : ∃ b, s.finish b = .ok a ∧ P b := by
  cases v with
  | object fields =>
    obtain ⟨b, hread, h⟩ := bind_eq_ok.1 h
    obtain ⟨⟨⟩, -, hfinish⟩ := bind_eq_ok.1 h
    refine ⟨b, hfinish, readEntries_keeps (fun field hfield e he => ?_) hempty hread⟩
    rw [Draft.ofFields_eq_map, List.mem_map] at he
    obtain ⟨⟨key, w⟩, hw, rfl⟩ := he
    exact hkeeps field hfield w fun n hn => mem_numbersOfFields.2 ⟨_, hw, hn⟩
  | array items =>
    obtain ⟨b, hread, hfinish⟩ := bind_eq_ok.1 h
    refine ⟨b, hfinish, readItems_keeps (fun field hfield d hd => ?_) hempty hread⟩
    rw [Draft.ofItems_eq_map, List.mem_map] at hd
    obtain ⟨w, hw, rfl⟩ := hd
    exact hkeeps field hfield w fun n hn => mem_numbersOfItems.2 ⟨w, hw, hn⟩
  | null => cases h
  | bool b => cases h
  | number n => cases h
  | string x => cases h

/-- An entry that is for no field makes no difference. -/
theorem readEntries_erase {name : String} (hname : name ∉ s.fields.map Field.name)
    (entries : Payload) (seen : List String) (b : β) :
    s.readEntries (Draft.ofFields (entries.erase name)) seen b =
      s.readEntries (Draft.ofFields entries) seen b := by
  induction entries generalizing seen b with
  | nil => rfl
  | cons entry rest ih =>
    obtain ⟨key, w⟩ := entry
    by_cases hkey : key = name
    · subst hkey
      have hfield : s.fields.find? (·.name = key) = none := by
        refine List.find?_eq_none.2 fun field hfield heq => hname ?_
        exact List.mem_map.2 ⟨field, hfield, of_decide_eq_true heq⟩
      have herase : Payload.erase ((key, w) :: rest) key = Payload.erase rest key :=
        List.filter_cons_of_neg (by simp)
      rw [herase, ih, Draft.ofFields, readEntries, hfield, Draft.firstError_ofJson]
    · have herase : Payload.erase ((key, w) :: rest) name = (key, w) :: Payload.erase rest name :=
        List.filter_cons_of_pos (by simpa using hkey)
      rw [herase, Draft.ofFields, Draft.ofFields, readEntries, readEntries]
      simp only [ih]

theorem decode_erase {name : String} (hname : name ∉ s.fields.map Field.name) (entries : Payload) :
    Json.decode s.decode (.object (entries.erase name)) =
      Json.decode s.decode (.object entries) := by
  unfold Json.decode
  rw [Draft.ofJson, Draft.ofJson, decode, decode, readEntries_erase hname]

/-- An object gives the same with its entries in another order. -/
theorem Independent.gives_perm (hind : s.Independent) {entries entries' : List (String × Json)}
    (hperm : entries.Perm entries') (h : Gives s.decode (.object entries) a) :
    Gives s.decode (.object entries') a := by
  obtain ⟨b, hread, h⟩ := bind_eq_ok.1 h
  rw [Draft.ofFields_eq_map] at hread
  have hread' := hind.readEntries_perm (hperm.map _) hread
  rw [← Draft.ofFields_eq_map] at hread'
  exact bind_eq_ok.2 ⟨b, hread', h⟩

end Shape

end

end Decoder

end Workflow.Json
