import Workflow.Definition
import Workflow.Proofs.Decoding

/-!
The normal form of definitions. A definition may be given as an object or as the sequence of its
fields, with fields that are not its own and with defaults left out. It is written as an object
whose keys are in order: what has a default is written out, what is optional and absent is left
out, and all else is as it was given. What is written is read as the same definition.
-/
namespace Workflow

open Json.Decoder (Field Shape Filled Gives present present_eq_ok gives_string gives_ofTexts
  gives_of_mem_map_string gives_string_iff gives_payload_iff gives_value_iff gives_optional_iff
  gives_list_iff)

namespace Json

/-- What is given for an optional field, where null counts as absent. -/
def nonNull : Option Json → Option Json
  | none | some .null => none
  | some v => some v

theorem nonNull_of_ne {v : Json} (h : v ≠ .null) : nonNull (some v) = some v := by
  cases v <;> trivial

theorem map_normal_nonNull {given : Option Json} (h : given.map normal = given) :
    (nonNull given).map normal = nonNull given := by
  rw [nonNull.eq_def]
  split
  · rfl
  · rfl
  · exact h

theorem forall_mem_optionalEntry {key : String} {value : Option Json} {P : String × Json → Prop} :
    (∀ e ∈ optionalEntry key value, P e) ↔ ∀ v ∈ value, P (key, v) := by
  cases value <;> simp [optionalEntry]

namespace Decoder.Filled

variable {given : Option Json}

theorem text {x : String} (h : Filled (present string) given none (some x)) :
    given = some (.string x) := by
  rcases h with ⟨-, ⟨⟩⟩ | ⟨v, rfl, h⟩
  obtain ⟨_, hv, ⟨⟩⟩ := present_eq_ok.1 h
  rw [gives_string_iff.1 hv]

theorem textOr {default x : String} (h : Filled string given default x) :
    given.getD (.string default) = .string x := by
  rcases h with ⟨rfl, rfl⟩ | ⟨v, rfl, h⟩
  · rfl
  · exact gives_string_iff.1 h

theorem text? {o : Option String} (h : Filled (optional string) given none o) :
    nonNull given = o.map .string := by
  rcases h with ⟨rfl, rfl⟩ | ⟨v, rfl, h⟩
  · rfl
  · rcases gives_optional_iff.1 h with ⟨rfl, rfl⟩ | ⟨hv, x, rfl, hx⟩
    · rfl
    · rw [nonNull_of_ne hv, gives_string_iff.1 hx]
      rfl

theorem texts {xs : List String} (h : Filled (list string) given [] xs) :
    given.getD (.array []) = .ofTexts xs := by
  rcases h with ⟨rfl, rfl⟩ | ⟨v, rfl, h⟩
  · rfl
  · obtain ⟨items, rfl, hitems⟩ := gives_list_iff.1 h
    refine congrArg Json.array (List.forall₂_eq_eq_eq ▸ ?_)
    rw [List.forall₂_map_right_iff]
    exact hitems.imp fun v x hx => gives_string_iff.1 hx

theorem payload {p : Payload} (h : Filled Decoder.payload given [] p) :
    (given.map normal).getD (.object []) = .object p := by
  rcases h with ⟨rfl, rfl⟩ | ⟨v, rfl, h⟩
  · rfl
  · exact gives_payload_iff.1 h

/-- A value that is not null is still not null with its objects in order. -/
theorem value? {o : Option Json} (h : Filled (optional value) given none o) :
    (nonNull given).map normal = o := by
  rcases h with ⟨rfl, rfl⟩ | ⟨v, rfl, h⟩
  · rfl
  · rcases gives_optional_iff.1 h with ⟨rfl, rfl⟩ | ⟨hv, w, rfl, hw⟩
    · rfl
    · rw [nonNull_of_ne hv, ← gives_value_iff.1 hw]
      rfl

theorem ne_null_of_value? {o : Option Json} (h : Filled (optional value) given none o) :
    ∀ v ∈ o, v ≠ .null ∧ v.Canonical := by
  rcases h with ⟨rfl, rfl⟩ | ⟨v, rfl, h⟩
  · exact nofun
  · rcases gives_optional_iff.1 h with ⟨rfl, rfl⟩ | ⟨hv, w, rfl, hw⟩
    · exact nofun
    · rintro _ ⟨⟩
      rw [← gives_value_iff.1 hw]
      refine ⟨fun hnull => hv ?_, canonical_normal v⟩
      cases v <;> cases hnull
      rfl

theorem items {α : Type} {inner : Decoder α} {as : List α}
    (h : Filled (present (list inner)) given none (some as)) :
    ∃ items, given = some (.array items) ∧ List.Forall₂ (Gives inner) items as := by
  rcases h with ⟨-, ⟨⟩⟩ | ⟨v, rfl, h⟩
  obtain ⟨_, hv, ⟨⟩⟩ := present_eq_ok.1 h
  obtain ⟨items, rfl, hitems⟩ := gives_list_iff.1 hv
  exact ⟨items, rfl, hitems⟩

end Decoder.Filled

end Json

namespace NodeDefinition

/-- The parts of a node that has been read. -/
def parts (n : NodeDefinition) : Parts :=
  ⟨some n.id, some n.name, some n.nodeType, n.config, n.nextNodes, n.onError⟩

theorem finish_eq_ok {p : Parts} {n : NodeDefinition} : p.finish = .ok n ↔ p = n.parts := by
  constructor
  · intro h
    obtain ⟨id, name, nodeType, config, nextNodes, onError⟩ := p
    cases id <;> cases name <;> cases nodeType <;> cases h
    rfl
  · rintro rfl
    rfl

theorem reads_parts : shape.Reads Parts.id "id" (present .string) ∧
    shape.Reads Parts.name "name" (present .string) ∧
    shape.Reads Parts.nodeType "type" (present .string) ∧
    shape.Reads Parts.config "config" .payload ∧
    shape.Reads Parts.nextNodes "next_nodes" (.list .string) ∧
    shape.Reads Parts.onError "on_error" (.optional .string) := by
  and_intros <;> refine ⟨by simp [shape, Field.of], ?_⟩ <;>
    simp only [shape, List.forall_mem_cons, Field.read_of_eq_ok] <;>
    refine ⟨?_, ?_, ?_, ?_, ?_, ?_, List.forall_mem_nil _⟩ <;> rintro d b _ ⟨v, hv, rfl⟩ <;>
    simp [Field.of, hv]

theorem independent_shape : shape.Independent := by
  simp only [Shape.Independent, shape, List.pairwise_cons, List.forall_mem_cons, List.not_mem_nil,
    false_imp_iff, implies_true, List.Pairwise.nil, and_true]
  and_intros <;> exact Field.commutes_of fun _ _ _ => rfl

/-- The entries of a node in the order of its fields. -/
def entries (n : NodeDefinition) : List (String × Json) :=
  [("id", .string n.id), ("name", .string n.name), ("type", .string n.nodeType),
    ("config", .object n.config), ("next_nodes", .ofTexts n.nextNodes)]
    ++ Json.optionalEntry "on_error" (n.onError.map .string)

theorem reads_entries {n : NodeDefinition} (h : (Json.object n.config).Canonical) :
    Json.Decoder.Reads shape.fields n.entries {} n.parts :=
  .cons (gives_string _) (.cons (gives_string _) (.cons (gives_string _)
    (.cons (gives_payload_iff.2 h.normal_eq) (.cons (gives_ofTexts _)
      (.singleOptional gives_of_mem_map_string fun hnone => by
        rw [Option.map_eq_none_iff.1 hnone])))))

/-- What is written is read as the node. -/
theorem gives_toJson {n : NodeDefinition} (h : (Json.object n.config).Canonical) :
    Gives decoder n.toJson n :=
  (reads_entries h).gives_ofList (by decide) independent_shape rfl

theorem canonical_toJson {n : NodeDefinition} (h : (Json.object n.config).Canonical) :
    n.toJson.Canonical := by
  refine Json.canonical_ofList ?_
  simp only [List.forall_mem_append, List.forall_mem_cons, Json.forall_mem_optionalEntry]
  refine ⟨⟨trivial, trivial, trivial, h, Json.canonical_ofTexts _, nofun⟩, fun v hv => ?_⟩
  obtain ⟨x, -, rfl⟩ := Option.map_eq_some_iff.1 hv
  trivial

/-- How a node that is given as `v` is written as `w`; `keep` says how its configuration is kept. -/
structure WritesOut (keep : Json → Json) (v w : Json) : Prop where
  id : w.field? "id" = shape.given "id" v
  name : w.field? "name" = shape.given "name" v
  nodeType : w.field? "type" = shape.given "type" v
  config : w.field? "config" = some (((shape.given "config" v).map keep).getD (.object []))
  nextNodes : w.field? "next_nodes" = some ((shape.given "next_nodes" v).getD (.array []))
  onError : w.field? "on_error" = Json.nonNull (shape.given "on_error" v)
  others : ∀ key, key ∉ shape.fields.map Field.name → w.field? key = none

section

variable {v : Json} {n : NodeDefinition} (h : Gives decoder v n)

include h

theorem canonical_config : (Json.object n.config).Canonical := by
  obtain ⟨b, hfinish, hfilled⟩ := Shape.exists_of_gives (by decide) h
  obtain rfl := finish_eq_ok.1 hfinish
  have hconfig := (hfilled reads_parts.2.2.2.1).payload
  change _ = Json.object n.config at hconfig
  rw [← hconfig]
  cases shape.given "config" v with
  | none => exact ⟨List.Pairwise.nil, trivial⟩
  | some w => exact Json.canonical_normal w

theorem writesOut : WritesOut Json.normal v n.toJson := by
  have hconfig := canonical_config h
  have hkeys := (reads_entries hconfig).keys_sublist
  have hfield key : n.toJson.field? key = Payload.find? n.entries key :=
    Payload.find?_ofList (List.Nodup.sublist hkeys (by decide)) key
  obtain ⟨b, hfinish, hfilled⟩ := Shape.exists_of_gives (by decide) h
  obtain rfl := finish_eq_ok.1 hfinish
  obtain ⟨hid, hname, htype, hconf, hnext, herror⟩ := reads_parts
  constructor
  case id => rw [hfield, (hfilled hid).text]; rfl
  case name => rw [hfield, (hfilled hname).text]; rfl
  case nodeType => rw [hfield, (hfilled htype).text]; rfl
  case config => rw [hfield, (hfilled hconf).payload]; rfl
  case nextNodes => rw [hfield, (hfilled hnext).texts]; rfl
  case onError =>
    rw [hfield, (hfilled herror).text?, entries, parts]
    cases n.onError <;> rfl
  case others =>
    intro key hkey
    rw [hfield, Payload.find?_eq_none_iff]
    exact fun hmem => hkey (hkeys.subset hmem)

end

/-- The configuration of a node that is given in order is kept as it is. -/
theorem WritesOut.of_canonical {v w : Json} (hv : v.Canonical) (h : WritesOut Json.normal v w) :
    WritesOut (fun value => value) v w where
  __ := h
  config := by rw [h.config, Shape.map_normal_given hv, Option.map_id']

end NodeDefinition

namespace Definition

/-- The parts of a definition that has been read. -/
def parts (d : Definition) : Parts :=
  ⟨some d.id, d.name, d.description, some d.nodes, some d.startNode, d.triggerConfig⟩

theorem finish_eq_ok {p : Parts} {d : Definition} : p.finish = .ok d ↔ p = d.parts := by
  constructor
  · intro h
    obtain ⟨id, name, description, nodes, startNode, triggerConfig⟩ := p
    cases id <;> cases nodes <;> cases startNode <;> cases h
    rfl
  · rintro rfl
    rfl

theorem reads_parts : shape.Reads Parts.id "id" (present .string) ∧
    shape.Reads Parts.name "name" .string ∧
    shape.Reads Parts.description "description" (.optional .string) ∧
    shape.Reads Parts.nodes "nodes" (present (.list NodeDefinition.decoder)) ∧
    shape.Reads Parts.startNode "start_node" (present .string) ∧
    shape.Reads Parts.triggerConfig "trigger_config" (.optional .value) := by
  and_intros <;> refine ⟨by simp [shape, Field.of], ?_⟩ <;>
    simp only [shape, List.forall_mem_cons, Field.read_of_eq_ok] <;>
    refine ⟨?_, ?_, ?_, ?_, ?_, ?_, List.forall_mem_nil _⟩ <;> rintro d b _ ⟨v, hv, rfl⟩ <;>
    simp [Field.of, hv]

theorem independent_shape : shape.Independent := by
  simp only [Shape.Independent, shape, List.pairwise_cons, List.forall_mem_cons, List.not_mem_nil,
    false_imp_iff, implies_true, List.Pairwise.nil, and_true]
  and_intros <;> exact Field.commutes_of fun _ _ _ => rfl

/-- The entries of a definition in the order of its fields. -/
def entries (d : Definition) : List (String × Json) :=
  [("id", .string d.id), ("name", .string d.name)] ++
    (Json.optionalEntry "description" (d.description.map .string) ++
      ([("nodes", .array (d.nodes.map NodeDefinition.toJson)),
          ("start_node", .string d.startNode)] ++
        Json.optionalEntry "trigger_config" d.triggerConfig))

theorem toJson_eq (d : Definition) : d.toJson = .object (Payload.ofList d.entries) := by
  simp only [toJson, entries, List.append_assoc]

/-- What is kept as a value is in order, and null is not kept. -/
structure Ordered (d : Definition) : Prop where
  nodes : ∀ n ∈ d.nodes, (Json.object n.config).Canonical
  triggerConfig : ∀ v ∈ d.triggerConfig, v ≠ .null ∧ v.Canonical

namespace Ordered

variable {d : Definition} (h : d.Ordered)

include h

theorem reads_entries : Json.Decoder.Reads shape.fields d.entries {} d.parts := by
  have hnodes : Gives (.list NodeDefinition.decoder) (.array (d.nodes.map NodeDefinition.toJson))
      d.nodes := by
    refine .list ?_
    rw [List.forall₂_map_left_iff, List.forall₂_same]
    exact fun n hn => NodeDefinition.gives_toJson (h.nodes n hn)
  have htrigger : ∀ v ∈ d.triggerConfig, Gives (.optional .value) v d.triggerConfig := by
    intro v hv
    obtain ⟨hne, hcanonical⟩ := h.triggerConfig v hv
    rw [Option.mem_def.1 hv]
    exact .optional hne (gives_value_iff.2 hcanonical.normal_eq)
  exact .cons (gives_string _) (.cons (gives_string _)
    (.consOptional gives_of_mem_map_string (fun hnone => by rw [Option.map_eq_none_iff.1 hnone])
      (.cons hnodes (.cons (gives_string _)
        (.singleOptional htrigger fun hnone => by rw [hnone])))))

/-- What is written is read as the definition. -/
theorem gives_toJson : Gives decoder d.toJson d := by
  rw [toJson_eq]
  exact h.reads_entries.gives_ofList (by decide) independent_shape rfl

theorem canonical_toJson : d.toJson.Canonical := by
  rw [toJson_eq]
  refine Json.canonical_ofList ?_
  simp only [entries, List.forall_mem_append, List.forall_mem_cons, Json.forall_mem_optionalEntry]
  refine ⟨⟨trivial, trivial, nofun⟩, fun v hv => ?_, ⟨?_, trivial, nofun⟩,
    fun v hv => (h.triggerConfig v hv).2⟩
  · obtain ⟨x, -, rfl⟩ := Option.map_eq_some_iff.1 hv
    trivial
  · refine Json.canonicalItems_iff.2 (List.forall_mem_map.2 fun n hn => ?_)
    exact NodeDefinition.canonical_toJson (h.nodes n hn)

end Ordered

/-- How a definition that is given as `v` is written as `w`; `keep` says how the configurations are
kept. -/
structure WritesOut (keep : Json → Json) (v w : Json) : Prop where
  id : w.field? "id" = shape.given "id" v
  name : w.field? "name" = some ((shape.given "name" v).getD (.string ""))
  description : w.field? "description" = Json.nonNull (shape.given "description" v)
  nodes : ∃ items written, shape.given "nodes" v = some (.array items) ∧
    w.field? "nodes" = some (.array written) ∧
    List.Forall₂ (NodeDefinition.WritesOut keep) items written
  startNode : w.field? "start_node" = shape.given "start_node" v
  triggerConfig : w.field? "trigger_config" =
    (Json.nonNull (shape.given "trigger_config" v)).map keep
  others : ∀ key, key ∉ shape.fields.map Field.name → w.field? key = none

section

variable {v : Json} {d : Definition} (h : Gives decoder v d)

include h

theorem ordered_of_gives : d.Ordered := by
  obtain ⟨b, hfinish, hfilled⟩ := Shape.exists_of_gives (by decide) h
  obtain rfl := finish_eq_ok.1 hfinish
  obtain ⟨-, -, -, hnodes, -, htrigger⟩ := reads_parts
  constructor
  case nodes =>
    obtain ⟨items, -, hitems⟩ := (hfilled hnodes).items
    intro n hn
    obtain ⟨v, -, hv⟩ := Fallible.exists_of_mem_forall₂ hitems hn
    exact NodeDefinition.canonical_config hv
  case triggerConfig => exact (hfilled htrigger).ne_null_of_value?

theorem writesOut : WritesOut Json.normal v d.toJson := by
  have hordered := ordered_of_gives h
  have hkeys := hordered.reads_entries.keys_sublist
  have hfield key : d.toJson.field? key = Payload.find? d.entries key := by
    rw [toJson_eq]
    exact Payload.find?_ofList (List.Nodup.sublist hkeys (by decide)) key
  obtain ⟨b, hfinish, hfilled⟩ := Shape.exists_of_gives (by decide) h
  obtain rfl := finish_eq_ok.1 hfinish
  obtain ⟨hid, hname, hdescription, hnodes, hstart, htrigger⟩ := reads_parts
  constructor
  case id => rw [hfield, (hfilled hid).text]; rfl
  case name =>
    have hname' : Filled .string (shape.given "name" v) "" d.name := hfilled hname
    rw [hfield, hname'.textOr]
    rfl
  case description =>
    rw [hfield, (hfilled hdescription).text?, entries, parts]
    cases d.description <;> cases d.triggerConfig <;> rfl
  case nodes =>
    obtain ⟨items, hgiven, hitems⟩ := (hfilled hnodes).items
    refine ⟨items, d.nodes.map NodeDefinition.toJson, hgiven, ?_, ?_⟩
    · rw [hfield, entries]
      cases d.description <;> rfl
    · rw [List.forall₂_map_right_iff]
      exact hitems.imp fun v n hn => NodeDefinition.writesOut hn
  case startNode =>
    rw [hfield, (hfilled hstart).text, entries]
    cases d.description <;> rfl
  case triggerConfig =>
    rw [hfield, (hfilled htrigger).value?, entries, parts]
    cases d.description <;> cases d.triggerConfig <;> rfl
  case others =>
    intro key hkey
    rw [hfield, Payload.find?_eq_none_iff]
    exact fun hmem => hkey (hkeys.subset hmem)

end

/-- What is given in order is kept as it is. -/
theorem WritesOut.of_canonical {v w : Json} (hv : v.Canonical) (h : WritesOut Json.normal v w) :
    WritesOut (fun value => value) v w where
  __ := h
  nodes := by
    obtain ⟨items, written, hgiven, hfield, hitems⟩ := h.nodes
    refine ⟨items, written, hgiven, hfield, ?_⟩
    have hcanonical := Json.canonicalItems_iff.1 (Shape.canonical_given hv hgiven)
    refine ((List.forall₂_and_left _ _).2 ⟨hcanonical, hitems⟩).imp ?_
    rintro item node ⟨hitem, hnode⟩
    exact hnode.of_canonical hitem
  triggerConfig := by
    rw [h.triggerConfig, Option.map_id']
    exact Json.map_normal_nonNull (Shape.map_normal_given hv _)

/-- However a definition is given, it is written in one form: it is read back from there and written
as the same value, whose keys are in order; the defaults are written out, and what is optional and
absent or null is left out. Configurations that are given in order stay as they are. -/
theorem normalForm {v : Json} {d : Definition} (h : Json.decode decoder v = .ok d) :
    Json.decode decoder d.toJson = .ok d ∧
      (Json.decode decoder d.toJson).map toJson = .ok d.toJson ∧ d.toJson.Canonical ∧
      WritesOut Json.normal v d.toJson ∧
      (v.Canonical → WritesOut (fun value => value) v d.toJson) := by
  have hordered := ordered_of_gives h
  have hread : Json.decode decoder d.toJson = .ok d := hordered.gives_toJson
  have hwritten := writesOut h
  exact ⟨hread, by rw [hread]; rfl, hordered.canonical_toJson, hwritten, hwritten.of_canonical⟩

/-- A definition with fields that are not its own and with null for an optional field. Its first
node is the sequence of its fields and ends before the defaults. -/
def mixedForm : Json :=
  .object [("id", .string "w"),
    ("nodes", .array
      [.array [.string "a", .string "First", .string "delay"],
        .object [("config", .object [("retries", .null), ("url", .string "x")]),
          ("id", .string "b"), ("name", .string "Second"),
          ("next_nodes", .array [.string "a", .string "a"]), ("note", .null),
          ("on_error", .string "a"), ("type", .string "http_request")]]),
    ("note", .bool true), ("start_node", .string "a"), ("trigger_config", .null)]

theorem normalForm_mixedForm :
    ∃ d, Json.decode decoder mixedForm = .ok d ∧ Json.decode decoder d.toJson = .ok d ∧
      d.toJson.Canonical ∧ WritesOut (fun value => value) mixedForm d.toJson := by
  obtain ⟨d, h⟩ : ∃ d, Json.decode decoder mixedForm = .ok d := ⟨_, rfl⟩
  obtain ⟨hread, -, hcanonical, -, hkept⟩ := normalForm h
  have hsorted : mixedForm.Canonical := Json.canonical_normal mixedForm
  exact ⟨d, h, hread, hcanonical, hkept hsorted⟩

end Definition

end Workflow
