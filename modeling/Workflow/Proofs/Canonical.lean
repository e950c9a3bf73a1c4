import Mathlib.Data.List.Induction
import Mathlib.Data.List.Nodup
import Mathlib.Data.String.Basic
import Workflow.Proofs.Nesting

/-!
The order of the entries of objects. An object that is made from entries lists them in increasing
order of keys, and all of them if no key is repeated. A value whose objects are in order is the
value of its draft; every other one has the same draft as entries in another order.
-/
namespace Workflow

namespace Payload

variable {p entries : Payload} {key : String} {value : Json}

theorem sorted_insert (h : Sorted p) (key : String) (value : Json) :
    Sorted (insert p key value) := by
  induction p with
  | nil => exact List.pairwise_singleton _ _
  | cons e rest ih =>
    obtain ⟨k, v⟩ := e
    obtain ⟨hfirst, hrest⟩ := List.pairwise_cons.1 h
    rw [insert]
    split
    · rename_i hk
      subst hk
      exact List.pairwise_cons.2 ⟨hfirst, hrest⟩
    split
    · rename_i hlt
      refine List.pairwise_cons.2 ⟨fun e he => ?_, h⟩
      rcases List.mem_cons.1 he with rfl | he
      · exact hlt
      · exact lt_trans hlt (hfirst e he)
    · rename_i hne hge
      refine List.pairwise_cons.2 ⟨fun e he => ?_, ih hrest⟩
      rcases mem_of_mem_insert he with rfl | he
      · exact lt_of_le_of_ne (not_lt.1 hge) hne
      · exact hfirst e he

theorem sorted_insertAll (h : Sorted p) (entries : List (String × Json)) :
    Sorted (insertAll p entries) := by
  induction entries generalizing p with
  | nil => exact h
  | cons e rest ih => exact ih (sorted_insert h e.1 e.2)

theorem sorted_ofList (entries : List (String × Json)) : Sorted (ofList entries) :=
  sorted_insertAll List.Pairwise.nil entries

theorem Sorted.nodup (h : Sorted p) : (p.map Prod.fst).Nodup := by
  rw [List.nodup_iff_pairwise_ne, List.pairwise_map]
  exact h.imp ne_of_lt

/-- A key behind all others is put at the end. -/
theorem insert_of_forall_lt (h : ∀ e ∈ p, e.1 < key) :
    insert p key value = p ++ [(key, value)] := by
  induction p with
  | nil => rfl
  | cons e rest ih =>
    obtain ⟨hfirst, hrest⟩ := List.forall_mem_cons.1 h
    rw [insert, if_neg hfirst.ne, if_neg hfirst.not_gt, ih hrest, List.cons_append]

/-- Entries in order are those of the object made from them. -/
theorem ofList_of_sorted (h : Sorted p) : ofList p = p := by
  induction p using List.reverseRecOn with
  | nil => rfl
  | append_singleton rest e ih =>
    obtain ⟨hrest, -, hlast⟩ := List.pairwise_append.1 h
    have hinsert : ofList (rest ++ [e]) = insert (ofList rest) e.1 e.2 :=
      List.foldl_concat _ _ _ _
    rw [hinsert, ih hrest]
    exact insert_of_forall_lt fun e' he' => hlast e' he' e (List.mem_singleton_self e)

theorem perm_insert (h : key ∉ p.map Prod.fst) : (insert p key value).Perm ((key, value) :: p) := by
  induction p with
  | nil => rfl
  | cons e rest ih =>
    obtain ⟨k, v⟩ := e
    obtain ⟨hne, hrest⟩ := not_or.1 (List.mem_cons.not.1 h)
    rw [insert, if_neg (Ne.symm hne)]
    split
    · rfl
    · exact ((ih hrest).cons _).trans (.swap _ _ _)

/-- Where no key is repeated, an object has the entries that it is made from. -/
theorem perm_ofList (h : (entries.map Prod.fst).Nodup) : (ofList entries).Perm entries := by
  induction entries using List.reverseRecOn with
  | nil => rfl
  | append_singleton rest e ih =>
    rw [List.map_append, List.nodup_append] at h
    obtain ⟨hrest, -, hnew⟩ := h
    have hperm := ih hrest
    have hinsert : ofList (rest ++ [e]) = insert (ofList rest) e.1 e.2 :=
      List.foldl_concat _ _ _ _
    rw [hinsert]
    have hkey : e.1 ∉ (ofList rest).map Prod.fst := fun hmem =>
      hnew e.1 ((hperm.map _).mem_iff.1 hmem) e.1 (List.mem_singleton_self _) rfl
    exact (perm_insert hkey).trans ((hperm.cons e).trans (List.perm_append_singleton e rest).symm)

/-- Where no key is repeated, the keys of an object are those of its entries, in increasing order.
-/
theorem keys_ofList {keys : List String} (hkeys : keys.Pairwise (· < ·))
    (h : (entries.map Prod.fst).Perm keys) : (ofList entries).map Prod.fst = keys := by
  have hperm : ((ofList entries).map Prod.fst).Perm keys :=
    ((perm_ofList (h.nodup_iff.2 (hkeys.imp ne_of_lt))).map Prod.fst).trans h
  have hsorted : ((ofList entries).map Prod.fst).Pairwise (· < ·) :=
    List.pairwise_map.2 (sorted_ofList entries)
  exact hperm.eq_of_pairwise (fun _ _ _ _ hlt hgt => absurd hgt hlt.asymm) hsorted hkeys

theorem find?_eq_some_iff (h : (p.map Prod.fst).Nodup) :
    find? p key = some value ↔ (key, value) ∈ p := by
  induction p with
  | nil => exact iff_of_false nofun List.not_mem_nil
  | cons e rest ih =>
    obtain ⟨k, v⟩ := e
    obtain ⟨hnew, hrest⟩ := List.nodup_cons.1 h
    rw [find?, List.mem_cons, Prod.mk.injEq]
    split
    · rename_i hk
      subst hk
      have hmem : (k, value) ∉ rest := fun hmem => hnew (List.mem_map.2 ⟨_, hmem, rfl⟩)
      rw [Option.some_inj, or_iff_left hmem]
      exact ⟨fun hv => ⟨rfl, hv.symm⟩, fun hv => hv.2.symm⟩
    · rename_i hk
      rw [ih hrest, or_iff_right fun heq => hk heq.1.symm]

theorem find?_eq_none_iff : find? p key = none ↔ key ∉ p.map Prod.fst := by
  induction p with
  | nil => exact iff_of_true rfl List.not_mem_nil
  | cons e rest ih =>
    obtain ⟨k, v⟩ := e
    rw [find?, List.map_cons, List.mem_cons]
    split
    · rename_i hk
      exact iff_of_false (Option.some_ne_none v) fun hmem => hmem (Or.inl hk.symm)
    · rename_i hk
      rw [ih, not_or]
      exact (and_iff_right (Ne.symm hk)).symm

theorem find?_erase_of_ne {other : String} (h : other ≠ key) :
    find? (erase p key) other = find? p other := by
  induction p with
  | nil => rfl
  | cons e rest ih =>
    obtain ⟨k, v⟩ := e
    by_cases hk : k = key
    · subst hk
      have herase : erase ((k, v) :: rest) k = erase rest k := List.filter_cons_of_neg (by simp)
      rw [herase, ih, find?, if_neg (Ne.symm h)]
    · have herase : erase ((k, v) :: rest) key = (k, v) :: erase rest key :=
        List.filter_cons_of_pos (by simpa using hk)
      rw [herase, find?, find?, ih]

/-- What stands under a key of an object is what stood there before its entries were put in
order. -/
theorem find?_ofList (h : (entries.map Prod.fst).Nodup) (key : String) :
    find? (ofList entries) key = find? entries key := by
  have hperm := perm_ofList h
  refine Option.ext fun value => ?_
  rw [find?_eq_some_iff (sorted_ofList entries).nodup, find?_eq_some_iff h, hperm.mem_iff]

end Payload

namespace Json

mutual

/-- The value with the entries of its objects in increasing order of keys; of a repeated key the
last entry stays. -/
def normal : Json → Json
  | .array items => .array (normalItems items)
  | .object fields => .object (Payload.ofList (normalFields fields))
  | .null => .null
  | .bool b => .bool b
  | .number n => .number n
  | .string s => .string s

def normalItems : List Json → List Json
  | [] => []
  | item :: rest => normal item :: normalItems rest

def normalFields : List (String × Json) → List (String × Json)
  | [] => []
  | (key, value) :: rest => (key, normal value) :: normalFields rest

end

mutual

/-- Every object in the value has its keys in strictly increasing order. -/
def Canonical : Json → Prop
  | .array items => CanonicalItems items
  | .object fields => Payload.Sorted fields ∧ CanonicalFields fields
  | .null | .bool _ | .number _ | .string _ => True

def CanonicalItems : List Json → Prop
  | [] => True
  | item :: rest => Canonical item ∧ CanonicalItems rest

def CanonicalFields : List (String × Json) → Prop
  | [] => True
  | (_, value) :: rest => Canonical value ∧ CanonicalFields rest

end

theorem canonicalItems_iff {items : List Json} :
    CanonicalItems items ↔ ∀ v ∈ items, v.Canonical := by
  induction items with
  | nil => exact iff_of_true trivial (List.forall_mem_nil _)
  | cons item rest ih => rw [CanonicalItems, List.forall_mem_cons, ih]

theorem canonicalFields_iff {fields : List (String × Json)} :
    CanonicalFields fields ↔ ∀ e ∈ fields, e.2.Canonical := by
  induction fields with
  | nil => exact iff_of_true trivial (List.forall_mem_nil _)
  | cons e rest ih => rw [CanonicalFields, List.forall_mem_cons, ih]

mutual

theorem canonical_normal (v : Json) : v.normal.Canonical := by
  cases v with
  | array items => exact canonicalItems_normalItems items
  | object fields =>
    refine ⟨Payload.sorted_ofList _, canonicalFields_iff.2 fun e he => ?_⟩
    exact canonicalFields_iff.1 (canonicalFields_normalFields fields) e
      (Payload.mem_of_mem_ofList he)
  | null => trivial
  | bool b => trivial
  | number n => trivial
  | string s => trivial

theorem canonicalItems_normalItems (items : List Json) : CanonicalItems (normalItems items) := by
  cases items with
  | nil => trivial
  | cons item rest => exact ⟨canonical_normal item, canonicalItems_normalItems rest⟩

theorem canonicalFields_normalFields (fields : List (String × Json)) :
    CanonicalFields (normalFields fields) := by
  cases fields with
  | nil => trivial
  | cons field rest => exact ⟨canonical_normal field.2, canonicalFields_normalFields rest⟩

end

theorem canonical_ofTexts (texts : List String) : (ofTexts texts).Canonical := by
  refine canonicalItems_iff.2 fun v hv => ?_
  obtain ⟨text, -, rfl⟩ := List.mem_map.1 hv
  trivial

theorem canonical_ofList {entries : List (String × Json)} (h : ∀ e ∈ entries, e.2.Canonical) :
    (Json.object (Payload.ofList entries)).Canonical :=
  ⟨Payload.sorted_ofList _, canonicalFields_iff.2 fun e he => h e (Payload.mem_of_mem_ofList he)⟩

mutual

/-- A value whose objects are in order stays as it is. -/
theorem Canonical.normal_eq {v : Json} (h : v.Canonical) : v.normal = v := by
  cases v with
  | array items => exact congrArg Json.array (normalItems_eq h)
  | object fields =>
    rw [normal, normalFields_eq h.2, Payload.ofList_of_sorted h.1]
  | null => rfl
  | bool b => rfl
  | number n => rfl
  | string s => rfl

theorem normalItems_eq {items : List Json} (h : CanonicalItems items) :
    normalItems items = items := by
  cases items with
  | nil => rfl
  | cons item rest => rw [normalItems, h.1.normal_eq, normalItems_eq h.2]

theorem normalFields_eq {fields : List (String × Json)} (h : CanonicalFields fields) :
    normalFields fields = fields := by
  cases fields with
  | nil => rfl
  | cons field rest =>
    obtain ⟨key, value⟩ := field
    rw [normalFields, Canonical.normal_eq h.1, normalFields_eq h.2]

end

mutual

/-- The value of the draft of a value. -/
theorem toJson_ofJson (v : Json) : (Draft.ofJson v).toJson = .ok v.normal := by
  cases v with
  | array items =>
    rw [Draft.ofJson, Draft.toJson, toItems_ofItems items]
    rfl
  | object fields =>
    rw [Draft.ofJson, Draft.toJson, toFields_ofFields fields]
    rfl
  | null => rfl
  | bool b => rfl
  | number n => rfl
  | string s => rfl

theorem toItems_ofItems (items : List Json) :
    Draft.toItems (Draft.ofItems items) = .ok (normalItems items) := by
  cases items with
  | nil => rfl
  | cons item rest =>
    rw [Draft.ofItems, Draft.toItems, toJson_ofJson item, toItems_ofItems rest]
    rfl

theorem toFields_ofFields (fields : List (String × Json)) :
    Draft.toFields (Draft.ofFields fields) = .ok (normalFields fields) := by
  cases fields with
  | nil => rfl
  | cons field rest =>
    rw [Draft.ofFields, Draft.toFields, toJson_ofJson field.2, toFields_ofFields rest]
    rfl

end

/-- The value in order is nested no deeper and has no other numbers. -/
theorem normal_within (v : Json) : v.normal.Within v := by
  obtain ⟨w, hw, hwithin⟩ := exists_toJson v
  rw [toJson_ofJson, Except.ok.injEq] at hw
  exact hw ▸ hwithin

end Json

end Workflow
