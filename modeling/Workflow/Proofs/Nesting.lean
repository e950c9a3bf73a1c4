import Workflow.Json.Decode

/-!
How deep values are nested, and which numbers they hold. A value that is made from a draft is
nested no deeper than the value that the draft stands for and holds no other numbers, although of
entries with one key only the last one is left.
-/
namespace Workflow.Json

mutual

/-- The greatest number of containers around a place in a value. -/
def depth : Json → Nat
  | .array items => depthOfItems items + 1
  | .object fields => depthOfFields fields + 1
  | .null | .bool _ | .number _ | .string _ => 0

def depthOfItems : List Json → Nat
  | [] => 0
  | item :: rest => max (depth item) (depthOfItems rest)

def depthOfFields : List (String × Json) → Nat
  | [] => 0
  | (_, value) :: rest => max (depth value) (depthOfFields rest)

end

mutual

/-- The numbers in a value, in their order. -/
def numbers : Json → List Number
  | .number n => [n]
  | .array items => numbersOfItems items
  | .object fields => numbersOfFields fields
  | .null | .bool _ | .string _ => []

def numbersOfItems : List Json → List Number
  | [] => []
  | item :: rest => numbers item ++ numbersOfItems rest

def numbersOfFields : List (String × Json) → List Number
  | [] => []
  | (_, value) :: rest => numbers value ++ numbersOfFields rest

end

mutual

/-- The value with other numbers. -/
def mapNumbers (f : Number → Number) : Json → Json
  | .number n => .number (f n)
  | .array items => .array (mapItems f items)
  | .object fields => .object (mapFields f fields)
  | .null => .null
  | .bool b => .bool b
  | .string s => .string s

def mapItems (f : Number → Number) : List Json → List Json
  | [] => []
  | item :: rest => mapNumbers f item :: mapItems f rest

def mapFields (f : Number → Number) : List (String × Json) → List (String × Json)
  | [] => []
  | (key, value) :: rest => (key, mapNumbers f value) :: mapFields f rest

end

theorem depthOfFields_le_iff {fields : List (String × Json)} {n : Nat} :
    depthOfFields fields ≤ n ↔ ∀ e ∈ fields, e.2.depth ≤ n := by
  induction fields with
  | nil => simp [depthOfFields]
  | cons e rest ih =>
    rw [depthOfFields, Nat.max_le, ih, List.forall_mem_cons]

theorem depthOfItems_le_iff {items : List Json} {n : Nat} :
    depthOfItems items ≤ n ↔ ∀ v ∈ items, v.depth ≤ n := by
  induction items with
  | nil => simp [depthOfItems]
  | cons item rest ih =>
    rw [depthOfItems, Nat.max_le, ih, List.forall_mem_cons]

theorem mem_numbersOfFields {fields : List (String × Json)} {n : Number} :
    n ∈ numbersOfFields fields ↔ ∃ e ∈ fields, n ∈ e.2.numbers := by
  induction fields with
  | nil => simp [numbersOfFields]
  | cons e rest ih =>
    simp [numbersOfFields, ih]

theorem mem_numbersOfItems {items : List Json} {n : Number} :
    n ∈ numbersOfItems items ↔ ∃ v ∈ items, n ∈ v.numbers := by
  induction items with
  | nil => simp [numbersOfItems]
  | cons item rest ih =>
    simp [numbersOfItems, ih]

variable (f : Number → Number)

mutual

theorem depth_mapNumbers (v : Json) : (mapNumbers f v).depth = v.depth := by
  cases v with
  | array items => rw [mapNumbers, depth, depth, depthOfItems_mapItems items]
  | object fields => rw [mapNumbers, depth, depth, depthOfFields_mapFields fields]
  | null => rfl
  | bool b => rfl
  | number n => rfl
  | string s => rfl

theorem depthOfItems_mapItems (items : List Json) :
    depthOfItems (mapItems f items) = depthOfItems items := by
  cases items with
  | nil => rfl
  | cons item rest =>
    rw [mapItems, depthOfItems, depthOfItems, depth_mapNumbers item, depthOfItems_mapItems rest]

theorem depthOfFields_mapFields (fields : List (String × Json)) :
    depthOfFields (mapFields f fields) = depthOfFields fields := by
  cases fields with
  | nil => rfl
  | cons field rest =>
    rw [mapFields, depthOfFields, depthOfFields, depth_mapNumbers field.2,
      depthOfFields_mapFields rest]

end

mutual

theorem numbers_mapNumbers (v : Json) : (mapNumbers f v).numbers = v.numbers.map f := by
  cases v with
  | array items => exact numbersOfItems_mapItems items
  | object fields => exact numbersOfFields_mapFields fields
  | null => rfl
  | bool b => rfl
  | number n => rfl
  | string s => rfl

theorem numbersOfItems_mapItems (items : List Json) :
    numbersOfItems (mapItems f items) = (numbersOfItems items).map f := by
  cases items with
  | nil => rfl
  | cons item rest =>
    rw [mapItems, numbersOfItems, numbersOfItems, List.map_append, numbers_mapNumbers item,
      numbersOfItems_mapItems rest]

theorem numbersOfFields_mapFields (fields : List (String × Json)) :
    numbersOfFields (mapFields f fields) = (numbersOfFields fields).map f := by
  cases fields with
  | nil => rfl
  | cons field rest =>
    rw [mapFields, numbersOfFields, numbersOfFields, List.map_append,
      numbers_mapNumbers field.2, numbersOfFields_mapFields rest]

end

mutual

/-- Where the numbers stay as they are, so does the value. -/
theorem mapNumbers_eq_self {v : Json} (h : ∀ n ∈ v.numbers, f n = n) : mapNumbers f v = v := by
  cases v with
  | array items => exact congrArg Json.array (mapItems_eq_self h)
  | object fields => exact congrArg Json.object (mapFields_eq_self h)
  | null => rfl
  | bool b => rfl
  | number n => exact congrArg Json.number (h n (List.mem_singleton_self n))
  | string s => rfl

theorem mapItems_eq_self {items : List Json} (h : ∀ n ∈ numbersOfItems items, f n = n) :
    mapItems f items = items := by
  cases items with
  | nil => rfl
  | cons item rest =>
    rw [numbersOfItems, List.forall_mem_append] at h
    rw [mapItems, mapNumbers_eq_self h.1, mapItems_eq_self h.2]

theorem mapFields_eq_self {fields : List (String × Json)}
    (h : ∀ n ∈ numbersOfFields fields, f n = n) : mapFields f fields = fields := by
  cases fields with
  | nil => rfl
  | cons field rest =>
    obtain ⟨key, value⟩ := field
    rw [numbersOfFields, List.forall_mem_append] at h
    rw [mapFields, mapNumbers_eq_self h.1, mapFields_eq_self h.2]

end

end Json

namespace Payload

variable {p entries : Payload} {e : String × Json}

theorem mem_of_mem_insert {key : String} {value : Json} (h : e ∈ insert p key value) :
    e = (key, value) ∨ e ∈ p := by
  induction p with
  | nil => exact Or.inl (List.mem_singleton.1 h)
  | cons first rest ih =>
    obtain ⟨k, v⟩ := first
    rw [insert] at h
    split at h
    · exact (List.mem_cons.1 h).imp id (List.mem_cons_of_mem _)
    split at h
    · exact List.mem_cons.1 h
    · rcases List.mem_cons.1 h with rfl | h
      · exact Or.inr List.mem_cons_self
      · exact (ih h).imp id (List.mem_cons_of_mem _)

theorem mem_of_mem_insertAll (h : e ∈ insertAll p entries) : e ∈ entries ∨ e ∈ p := by
  induction entries generalizing p with
  | nil => exact Or.inr h
  | cons first rest ih =>
    rcases ih h with hrest | hinserted
    · exact Or.inl (List.mem_cons_of_mem _ hrest)
    · rcases mem_of_mem_insert hinserted with rfl | hp
      · exact Or.inl List.mem_cons_self
      · exact Or.inr hp

/-- An object made from entries has no others. -/
theorem mem_of_mem_ofList (h : e ∈ ofList entries) : e ∈ entries :=
  (mem_of_mem_insertAll h).resolve_right List.not_mem_nil

end Payload

namespace Json

/-- Nested no deeper than another value, and with no other numbers. -/
structure Within (w v : Json) : Prop where
  depth_le : w.depth ≤ v.depth
  numbers_subset : w.numbers ⊆ v.numbers

theorem Within.refl (v : Json) : v.Within v := ⟨Nat.le_refl _, List.Subset.refl _⟩

/-- Entries whose values are within those of others. -/
theorem Within.object {fields others : List (String × Json)}
    (h : ∀ e ∈ fields, ∃ e' ∈ others, e.2.Within e'.2) :
    Within (.object fields) (.object others) where
  depth_le := by
    rw [depth, depth, Nat.add_le_add_iff_right, depthOfFields_le_iff]
    intro e he
    obtain ⟨e', he', hwithin⟩ := h e he
    exact Nat.le_trans hwithin.depth_le (depthOfFields_le_iff.1 (Nat.le_refl _) e' he')
  numbers_subset := by
    intro n hn
    rw [numbers, mem_numbersOfFields] at hn ⊢
    obtain ⟨e, he, hn⟩ := hn
    obtain ⟨e', he', hwithin⟩ := h e he
    exact ⟨e', he', hwithin.numbers_subset hn⟩

theorem Within.array {items others : List Json}
    (h : ∀ v ∈ items, ∃ v' ∈ others, v.Within v') : Within (.array items) (.array others) where
  depth_le := by
    rw [depth, depth, Nat.add_le_add_iff_right, depthOfItems_le_iff]
    intro v hv
    obtain ⟨v', hv', hwithin⟩ := h v hv
    exact Nat.le_trans hwithin.depth_le (depthOfItems_le_iff.1 (Nat.le_refl _) v' hv')
  numbers_subset := by
    intro n hn
    rw [numbers, mem_numbersOfItems] at hn ⊢
    obtain ⟨v, hv, hn⟩ := hn
    obtain ⟨v', hv', hwithin⟩ := h v hv
    exact ⟨v', hv', hwithin.numbers_subset hn⟩

/-! ## Values made from drafts -/

mutual

/-- The draft of a value has a value, within the one that it is the draft of. -/
theorem exists_toJson (v : Json) : ∃ w, (Draft.ofJson v).toJson = .ok w ∧ w.Within v := by
  cases v with
  | array items =>
    obtain ⟨values, hvalues, hwithin⟩ := exists_toItems items
    refine ⟨.array values, ?_, .array hwithin⟩
    rw [Draft.ofJson, Draft.toJson, hvalues]
    rfl
  | object fields =>
    obtain ⟨entries, hentries, hwithin⟩ := exists_toFields fields
    refine ⟨.object (Payload.ofList entries), ?_,
      .object fun e he => hwithin e (Payload.mem_of_mem_ofList he)⟩
    rw [Draft.ofJson, Draft.toJson, hentries]
    rfl
  | null => exact ⟨.null, rfl, .refl _⟩
  | bool b => exact ⟨.bool b, rfl, .refl _⟩
  | number n => exact ⟨.number n, rfl, .refl _⟩
  | string s => exact ⟨.string s, rfl, .refl _⟩

theorem exists_toItems (items : List Json) : ∃ values,
    Draft.toItems (Draft.ofItems items) = .ok values ∧
      ∀ w ∈ values, ∃ v ∈ items, w.Within v := by
  cases items with
  | nil => exact ⟨[], rfl, List.forall_mem_nil _⟩
  | cons item rest =>
    obtain ⟨w, hw, hwithin⟩ := exists_toJson item
    obtain ⟨values, hvalues, hrest⟩ := exists_toItems rest
    refine ⟨w :: values, ?_, List.forall_mem_cons.2 ⟨⟨item, List.mem_cons_self, hwithin⟩, ?_⟩⟩
    · rw [Draft.ofItems, Draft.toItems, hw, hvalues]
      rfl
    · intro w' hw'
      obtain ⟨v, hv, hwithin'⟩ := hrest w' hw'
      exact ⟨v, List.mem_cons_of_mem _ hv, hwithin'⟩

theorem exists_toFields (fields : List (String × Json)) : ∃ entries,
    Draft.toFields (Draft.ofFields fields) = .ok entries ∧
      ∀ e ∈ entries, ∃ e' ∈ fields, e.2.Within e'.2 := by
  cases fields with
  | nil => exact ⟨[], rfl, List.forall_mem_nil _⟩
  | cons field rest =>
    obtain ⟨w, hw, hwithin⟩ := exists_toJson field.2
    obtain ⟨entries, hentries, hrest⟩ := exists_toFields rest
    refine ⟨(field.1, w) :: entries, ?_,
      List.forall_mem_cons.2 ⟨⟨field, List.mem_cons_self, hwithin⟩, ?_⟩⟩
    · rw [Draft.ofFields, Draft.toFields, hw, hentries]
      rfl
    · intro e he
      obtain ⟨e', he', hwithin'⟩ := hrest e he
      exact ⟨e', List.mem_cons_of_mem _ he', hwithin'⟩

end

/-- The draft of an object is read as an object within it. -/
theorem exists_payload (p : Payload) :
    ∃ p', Decoder.payload (Draft.ofJson (.object p)) = .ok p' ∧
      Within (.object p') (.object p) := by
  obtain ⟨entries, hentries, hwithin⟩ := exists_toFields p
  refine ⟨Payload.ofList entries, ?_,
    .object fun e he => hwithin e (Payload.mem_of_mem_ofList he)⟩
  rw [Draft.ofJson, Decoder.payload, Draft.toJson, hentries]
  rfl

end Json

end Workflow
