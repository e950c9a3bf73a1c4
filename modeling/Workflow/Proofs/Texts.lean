import Workflow.Json.Basic

/-!
The texts in a value. Replacing all of them leaves everything else as it is, and the outcome depends
on nothing but what each of them is replaced by.
-/
namespace Workflow.Json

mutual

/-- The texts in a value, in their order; keys are not among them. -/
def texts : Json → List String
  | .string s => [s]
  | .array items => textsOfItems items
  | .object fields => textsOfFields fields
  | .null | .bool _ | .number _ => []

def textsOfItems : List Json → List String
  | [] => []
  | item :: rest => texts item ++ textsOfItems rest

def textsOfFields : List (String × Json) → List String
  | [] => []
  | (_, value) :: rest => texts value ++ textsOfFields rest

end

mutual

/-- The value with other texts. -/
def mapTexts (f : String → String) : Json → Json
  | .string s => .string (f s)
  | .array items => .array (mapTextsOfItems f items)
  | .object fields => .object (mapTextsOfFields f fields)
  | .null => .null
  | .bool b => .bool b
  | .number n => .number n

def mapTextsOfItems (f : String → String) : List Json → List Json
  | [] => []
  | item :: rest => mapTexts f item :: mapTextsOfItems f rest

def mapTextsOfFields (f : String → String) : List (String × Json) → List (String × Json)
  | [] => []
  | (key, value) :: rest => (key, mapTexts f value) :: mapTextsOfFields f rest

end

/-- All of a value but its texts: how it is nested, its keys, and its other leaves. -/
def shape (v : Json) : Json := v.mapTexts fun _ => ""

section

variable {f g : String → String}

mutual

theorem mapTexts_congr {v : Json} (h : ∀ s ∈ v.texts, f s = g s) : v.mapTexts f = v.mapTexts g := by
  cases v with
  | string s => exact congrArg Json.string (h s (List.mem_singleton_self s))
  | array items => exact congrArg Json.array (mapTextsOfItems_congr h)
  | object fields => exact congrArg Json.object (mapTextsOfFields_congr h)
  | null => rfl
  | bool b => rfl
  | number n => rfl

theorem mapTextsOfItems_congr {items : List Json} (h : ∀ s ∈ textsOfItems items, f s = g s) :
    mapTextsOfItems f items = mapTextsOfItems g items := by
  cases items with
  | nil => rfl
  | cons item rest =>
    rw [textsOfItems, List.forall_mem_append] at h
    rw [mapTextsOfItems, mapTextsOfItems, mapTexts_congr h.1, mapTextsOfItems_congr h.2]

theorem mapTextsOfFields_congr {fields : List (String × Json)}
    (h : ∀ s ∈ textsOfFields fields, f s = g s) :
    mapTextsOfFields f fields = mapTextsOfFields g fields := by
  cases fields with
  | nil => rfl
  | cons field rest =>
    obtain ⟨key, value⟩ := field
    rw [textsOfFields, List.forall_mem_append] at h
    rw [mapTextsOfFields, mapTextsOfFields, mapTexts_congr h.1, mapTextsOfFields_congr h.2]

end

end

section

variable (f g : String → String)

mutual

theorem mapTexts_mapTexts (v : Json) : (v.mapTexts f).mapTexts g = v.mapTexts (g ∘ f) := by
  cases v with
  | string s => rfl
  | array items => exact congrArg Json.array (mapTextsOfItems_mapTexts items)
  | object fields => exact congrArg Json.object (mapTextsOfFields_mapTexts fields)
  | null => rfl
  | bool b => rfl
  | number n => rfl

theorem mapTextsOfItems_mapTexts (items : List Json) :
    mapTextsOfItems g (mapTextsOfItems f items) = mapTextsOfItems (g ∘ f) items := by
  cases items with
  | nil => rfl
  | cons item rest =>
    rw [mapTextsOfItems, mapTextsOfItems, mapTextsOfItems, mapTexts_mapTexts item,
      mapTextsOfItems_mapTexts rest]

theorem mapTextsOfFields_mapTexts (fields : List (String × Json)) :
    mapTextsOfFields g (mapTextsOfFields f fields) = mapTextsOfFields (g ∘ f) fields := by
  cases fields with
  | nil => rfl
  | cons field rest =>
    rw [mapTextsOfFields, mapTextsOfFields, mapTextsOfFields, mapTexts_mapTexts field.2,
      mapTextsOfFields_mapTexts rest]

end

theorem shape_mapTexts (v : Json) : (v.mapTexts f).shape = v.shape :=
  mapTexts_mapTexts f _ v

end

end Workflow.Json
