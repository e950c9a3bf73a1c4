import Workflow.Proofs.States

/-!
States that are read back unchanged. A state as there can be is the one that is read from what is
written of it, as a value and as a text; and whatever value a state is read from, it is such a
state, so that it stays the same when it is written and read again and again.
-/
namespace Workflow

namespace Json

/-- A value as the program holds it: its objects are in order, and its numbers are integers of 64
bits or finite. -/
structure WellFormed (v : Json) : Prop where
  canonical : v.Canonical
  numbers : ∀ n ∈ v.numbers, n.Proper

theorem proper_of_mem_ofPayload? {output : Option Payload}
    (h : ∀ p ∈ output, (object p).WellFormed) : ∀ n ∈ (ofPayload? output).numbers, n.Proper := by
  cases output with
  | none => exact nofun
  | some p => exact (h p rfl).numbers

theorem wellFormed_normal {v : Json} (h : ∀ n ∈ v.numbers, n.Proper) : v.normal.WellFormed :=
  ⟨canonical_normal v, fun n hn => h n ((normal_within v).numbers_subset hn)⟩

end Json

namespace Run

open Json.Decoder (Shape Gives gives_string gives_double gives_double_iff gives_word32
  lt_of_gives_word32 gives_ofText? gives_ofTexts gives_payload_iff gives_optional_iff
  gives_list_iff)

theorem gives_ofPayload? {output : Option Payload}
    (h : ∀ p ∈ output, (Json.object p).Canonical) :
    Gives (.optional .payload) (.ofPayload? output) output := by
  cases output with
  | none => rfl
  | some p => exact .optional nofun (gives_payload_iff.2 (h p rfl).normal_eq)

/-- What is read as an object is one as the program holds it. -/
theorem wellFormed_of_payload {v : Json} (hnumbers : ∀ n ∈ v.numbers, n.Proper) {p : Payload}
    (h : Gives .payload v p) : (Json.object p).WellFormed :=
  gives_payload_iff.1 h ▸ Json.wellFormed_normal hnumbers

theorem wellFormed_of_payload? {v : Json} (hnumbers : ∀ n ∈ v.numbers, n.Proper)
    {output : Option Payload} (h : Gives (.optional .payload) v output) :
    ∀ p ∈ output, (Json.object p).WellFormed := by
  rintro p rfl
  rcases gives_optional_iff.1 h with ⟨-, ⟨⟩⟩ | ⟨-, _, ⟨⟩, hgives⟩
  exact wellFormed_of_payload hnumbers hgives

/-! ## Results -/

namespace Result

/-- A result as there can be. -/
structure WellFormed (r : Result) : Prop where
  proper : r.Proper
  output : ∀ p ∈ r.output, (Json.object p).WellFormed

/-- The parts of a result that has been read. -/
def parts (r : Result) : Parts :=
  ⟨some r.nodeId, some r.nodeName, some r.status, r.output, r.error, some r.seconds,
    some r.nextNodes, some r.attempts⟩

theorem finish_eq_ok {p : Parts} {r : Result} : p.finish = .ok r ↔ p = r.parts := by
  constructor
  · intro h
    obtain ⟨nodeId, nodeName, status, output, error, seconds, nextNodes, attempts⟩ := p
    cases nodeId <;> cases nodeName <;> cases status <;> cases seconds <;> cases nextNodes <;>
      cases attempts <;> cases h
    rfl
  · rintro rfl
    rfl

theorem independent_shape : shape.Independent := by
  simp only [Shape.Independent, shape, List.pairwise_cons, List.forall_mem_cons, List.not_mem_nil,
    false_imp_iff, implies_true, List.Pairwise.nil, and_true]
  and_intros <;> exact Json.Decoder.Field.commutes_of fun _ _ _ => rfl

theorem WellFormed.reads_entries {r : Result} (h : r.WellFormed) :
    Json.Decoder.Reads shape.fields r.entries {} r.parts := by
  rw [entries, Json.ofFloat, if_pos h.proper.seconds]
  exact .cons (gives_string _) (.cons (gives_string _) (.cons (gives_status _)
    (.cons (gives_ofPayload? fun p hp => (h.output p hp).canonical)
      (.cons (gives_ofText? _) (.cons (gives_double _) (.cons (gives_ofTexts _)
        (.cons (gives_word32 h.proper.attempts) (.nil _))))))))

theorem WellFormed.gives_entries {r : Result} (h : r.WellFormed) :
    Gives decoder (.object r.entries) r := h.reads_entries.gives (by decide) rfl

theorem WellFormed.gives_toJson {r : Result} (h : r.WellFormed) : Gives decoder r.toJson r :=
  h.reads_entries.gives_ofList (by decide) independent_shape rfl

theorem WellFormed.numbers_entries {r : Result} (h : r.WellFormed) :
    ∀ n ∈ (Json.object r.entries).numbers, n.Proper := by
  have hattempts := h.proper.attempts
  intro n hn
  have hnone : n ∈ ([] : List Json.Number) → n.Proper := fun hn => absurd hn List.not_mem_nil
  obtain ⟨e, he, hn⟩ := Json.mem_numbersOfFields.1 hn
  revert e
  rw [entries, Json.ofFloat, if_pos h.proper.seconds]
  simp only [List.forall_mem_cons, Json.numbers_ofText?, Json.numbers_ofTexts]
  refine ⟨hnone, hnone, hnone, Json.proper_of_mem_ofPayload? h.output n, hnone, fun hn => ?seconds,
    hnone, fun hn => ?attempts, List.forall_mem_nil _⟩
  case seconds =>
    rw [List.mem_singleton.1 hn]
    exact h.proper.seconds
  case attempts =>
    rw [List.mem_singleton.1 hn]
    refine ⟨by omega, ?_⟩
    rw [Json.Number.largestWord]
    omega

/-- A result as far as it has been read, of what there can be. -/
structure Parts.WellFormed (p : Parts) : Prop where
  seconds : ∀ x ∈ p.seconds, x.isFinite
  attempts : ∀ n ∈ p.attempts, n < 2 ^ 32
  output : ∀ output ∈ p.output, (Json.object output).WellFormed

theorem Parts.WellFormed.read {v : Json} (hv : ∀ n ∈ v.numbers, n.Proper) :
    ∀ field ∈ shape.fields, ∀ p p', Parts.WellFormed p → field.read (.ofJson v) p = .ok p' →
      p'.WellFormed := by
  simp only [shape, List.forall_mem_cons, Json.Decoder.Field.read_of_eq_ok]
  refine ⟨?_, ?_, ?_, ?output, ?_, ?seconds, ?_, ?attempts, nofun⟩ <;>
    rintro p _ hp ⟨c, hc, rfl⟩
  case output => exact { hp with output := wellFormed_of_payload? hv hc }
  case seconds =>
    refine { hp with seconds := ?_ }
    rintro _ ⟨⟩
    obtain ⟨n, rfl, rfl⟩ := gives_double_iff.1 hc
    exact (hv n (List.mem_singleton_self n)).isFinite_toFloat
  case attempts =>
    refine { hp with attempts := ?_ }
    rintro _ ⟨⟩
    exact lt_of_gives_word32 hc
  all_goals exact { hp with }

theorem wellFormed_of_gives {v : Json} (hv : ∀ n ∈ v.numbers, n.Proper) {r : Result}
    (h : Gives decoder v r) : r.WellFormed := by
  have hempty : Parts.WellFormed {} := ⟨nofun, nofun, nofun⟩
  obtain ⟨p, hfinish, hp⟩ := Shape.exists_keeps_of_gives (fun field hfield w hw =>
    Parts.WellFormed.read (fun n hn => hv n (hw hn)) field hfield) hempty h
  obtain rfl := finish_eq_ok.1 hfinish
  exact ⟨⟨hp.seconds _ rfl, hp.attempts _ rfl⟩, hp.output⟩

end Result

/-! ## States -/

namespace State

/-- A state as there can be: its id and its times have texts, its objects are in order, and its
numbers are integers of 64 bits or finite. -/
structure WellFormed (s : State) : Prop where
  id : s.id.Proper
  startTime : ∀ t ∈ s.startTime, t.Proper
  endTime : ∀ t ∈ s.endTime, t.Proper
  input : (Json.object s.input).WellFormed
  output : ∀ p ∈ s.output, (Json.object p).WellFormed
  results : ∀ r ∈ s.results, r.WellFormed
  globalState : (Json.object s.globalState).WellFormed

/-- The parts of a state that has been read. -/
def parts (s : State) : Parts :=
  ⟨some s.id, some s.workflowId, some s.status, s.startTime, s.endTime, some s.input, s.output,
    s.error, some s.results, some s.executed, some s.pending, some s.globalState⟩

theorem finish_eq_ok {p : Parts} {s : State} : p.finish = .ok s ↔ p = s.parts := by
  constructor
  · intro h
    obtain ⟨id, workflowId, status, startTime, endTime, input, output, error, results, executed,
      pending, globalState⟩ := p
    cases id <;> cases workflowId <;> cases status <;> cases input <;> cases results <;>
      cases executed <;> cases pending <;> cases globalState <;> cases h
    rfl
  · rintro rfl
    rfl

theorem independent_shape : shape.Independent := by
  simp only [Shape.Independent, shape, List.pairwise_cons, List.forall_mem_cons, List.not_mem_nil,
    false_imp_iff, implies_true, List.Pairwise.nil, and_true]
  and_intros <;> exact Json.Decoder.Field.commutes_of fun _ _ _ => rfl

namespace WellFormed

variable {s : State} (h : s.WellFormed)

include h

theorem reads_entries {results : List Json}
    (hresults : List.Forall₂ (Gives Result.decoder) results s.results) :
    Json.Decoder.Reads shape.fields (s.entries results) {} s.parts :=
  .cons (Id.decoder_toJson h.id) (.cons (gives_string _) (.cons (gives_status _)
    (.cons (gives_timeJson h.startTime) (.cons (gives_timeJson h.endTime)
      (.cons (gives_payload_iff.2 h.input.canonical.normal_eq)
        (.cons (gives_ofPayload? fun p hp => (h.output p hp).canonical)
          (.cons (gives_ofText? _) (.cons (.list hresults) (.cons (gives_ofTexts _)
            (.cons (gives_ofTexts _)
              (.cons (gives_payload_iff.2 h.globalState.canonical.normal_eq) (.nil _))))))))))))

/-- What is written is read as the state. -/
theorem gives_toJson : Gives decoder s.toJson s := by
  refine (h.reads_entries ?_).gives_ofList (by decide) independent_shape rfl
  rw [List.forall₂_map_left_iff, List.forall₂_same]
  exact fun r hr => (h.results r hr).gives_toJson

theorem gives_document : Gives decoder s.document s := by
  refine (h.reads_entries ?_).gives (by decide) rfl
  rw [List.forall₂_map_left_iff, List.forall₂_same]
  exact fun r hr => (h.results r hr).gives_entries

theorem numbers_document : ∀ n ∈ s.document.numbers, n.Proper := by
  intro n hn
  have hnone : n ∈ ([] : List Json.Number) → n.Proper := fun hn => absurd hn List.not_mem_nil
  obtain ⟨e, he, hn⟩ := Json.mem_numbersOfFields.1 hn
  have htime (time : Option Time.Timestamp) : (timeJson time).numbers = [] := by
    cases time <;> rfl
  revert e
  simp only [entries, List.forall_mem_cons, Json.numbers_ofText?, Json.numbers_ofTexts, htime]
  refine ⟨hnone, hnone, hnone, hnone, hnone, h.input.numbers n,
    Json.proper_of_mem_ofPayload? h.output n, hnone, fun hn => ?_, hnone, hnone,
    h.globalState.numbers n, List.forall_mem_nil _⟩
  obtain ⟨v, hv, hn⟩ := Json.mem_numbersOfItems.1 hn
  obtain ⟨r, hr, rfl⟩ := List.mem_map.1 hv
  exact (h.results r hr).numbers_entries n hn

/-- The text of a state that is not nested too deep is read as the state where the texts of its
floats are read as these. -/
theorem decodeText_compact
    (hfloats : ∀ x, .float x ∈ s.document.numbers → (Json.Number.float x).reread = .float x)
    (hdepth : s.document.depth ≤ Json.Reader.greatestDepth) :
    Json.decodeText decoder s.document.compact = .ok s := by
  have hreread : ∀ n ∈ s.document.numbers, n.reread = n := by
    intro n hn
    cases n with
    | integer i =>
      obtain ⟨hlow, hhigh⟩ := h.numbers_document _ hn
      exact Json.Number.reread_integer hlow hhigh
    | float x => exact hfloats x hn
  have hdraft := Json.readDraft_object _
    (fun n hn => Json.Number.readsAs_reread (h.numbers_document n hn)) hdepth
  have hread : decoder (.ofJson s.document) = .ok s := h.gives_document
  rw [document, Json.decodeText_of_readDraft hdraft, ← document,
    Json.mapNumbers_eq_self _ hreread, hread]

end WellFormed

/-- A state as far as it has been read, of what there can be. -/
structure Parts.WellFormed (p : Parts) : Prop where
  id : ∀ id ∈ p.id, id.Proper
  startTime : ∀ t ∈ p.startTime, t.Proper
  endTime : ∀ t ∈ p.endTime, t.Proper
  input : ∀ input ∈ p.input, (Json.object input).WellFormed
  output : ∀ output ∈ p.output, (Json.object output).WellFormed
  results : ∀ results ∈ p.results, ∀ r ∈ results, r.WellFormed
  globalState : ∀ globalState ∈ p.globalState, (Json.object globalState).WellFormed

theorem proper_of_optional {v : Json} {time : Option Time.Timestamp}
    (h : Gives (.optional Time.Timestamp.decoder) v time) : ∀ t ∈ time, t.Proper := by
  rintro t rfl
  rcases gives_optional_iff.1 h with ⟨-, ⟨⟩⟩ | ⟨-, _, ⟨⟩, hgives⟩
  exact Time.Timestamp.proper_of_decoder hgives

theorem Parts.WellFormed.read {v : Json} (hv : ∀ n ∈ v.numbers, n.Proper) :
    ∀ field ∈ shape.fields, ∀ p p', Parts.WellFormed p → field.read (.ofJson v) p = .ok p' →
      p'.WellFormed := by
  simp only [shape, List.forall_mem_cons, Json.Decoder.Field.read_of_eq_ok]
  refine ⟨?id, ?_, ?_, ?startTime, ?endTime, ?input, ?output, ?_, ?results, ?_, ?_, ?globalState,
    nofun⟩ <;> rintro p _ hp ⟨c, hc, rfl⟩
  case id =>
    refine { hp with id := ?_ }
    rintro _ ⟨⟩
    exact Id.proper_of_decoder hc
  case startTime => exact { hp with startTime := proper_of_optional hc }
  case endTime => exact { hp with endTime := proper_of_optional hc }
  case input =>
    refine { hp with input := ?_ }
    rintro _ ⟨⟩
    exact wellFormed_of_payload hv hc
  case output => exact { hp with output := wellFormed_of_payload? hv hc }
  case results =>
    refine { hp with results := ?_ }
    rintro _ ⟨⟩ r hr
    obtain ⟨items, rfl, hitems⟩ := gives_list_iff.1 hc
    obtain ⟨item, hitem, hgives⟩ := Fallible.exists_of_mem_forall₂ hitems hr
    exact Result.wellFormed_of_gives
      (fun n hn => hv n (Json.mem_numbersOfItems.2 ⟨item, hitem, hn⟩)) hgives
  case globalState =>
    refine { hp with globalState := ?_ }
    rintro _ ⟨⟩
    exact wellFormed_of_payload hv hc
  all_goals exact { hp with }

/-- Whatever value a state is read from, it is one that there can be. -/
theorem wellFormed_of_gives {v : Json} (hv : ∀ n ∈ v.numbers, n.Proper) {s : State}
    (h : Gives decoder v s) : s.WellFormed := by
  have hempty : Parts.WellFormed {} := ⟨nofun, nofun, nofun, nofun, nofun, nofun, nofun⟩
  obtain ⟨p, hfinish, hp⟩ := Shape.exists_keeps_of_gives (fun field hfield w hw =>
    Parts.WellFormed.read (fun n hn => hv n (hw hn)) field hfield) hempty h
  obtain rfl := finish_eq_ok.1 hfinish
  exact ⟨hp.id _ rfl, hp.startTime, hp.endTime, hp.input _ rfl, hp.output, hp.results _ rfl,
    hp.globalState _ rfl⟩

/-- A state that there can be is read back unchanged from what is written of it, and from its text
unless this is nested too deep, where the texts of its floats are read as these. Whatever value a
state is read from, it is such a state. -/
theorem roundTrip :
    (∀ s : State, s.WellFormed →
      Json.decode decoder s.toJson = .ok s ∧ Json.decode decoder s.document = .ok s ∧
      ((∀ x, .float x ∈ s.document.numbers → (Json.Number.float x).reread = .float x) →
        s.document.depth ≤ Json.Reader.greatestDepth →
        Json.decodeText decoder s.document.compact = .ok s)) ∧
    ∀ (v : Json) (s : State), (∀ n ∈ v.numbers, n.Proper) → Json.decode decoder v = .ok s →
      s.WellFormed ∧ Json.decode decoder s.toJson = .ok s := by
  refine ⟨fun s h => ⟨h.gives_toJson, h.gives_document, h.decodeText_compact⟩, ?_⟩
  intro v s hv hread
  have h := wellFormed_of_gives hv hread
  exact ⟨h, h.gives_toJson⟩

/-- A state whose times are absent or name an offset, with a field that is not its own. Its result
is the sequence of its fields. -/
def savedForm : Json :=
  .object [("end_time", .string "2020-01-02T04:04:06.5+01:00"), ("error", .null),
    ("executed_nodes", .array [.string "a"]),
    ("execution_id", .string "11111111-2222-4333-8444-ABCDEFABCDEF"),
    ("global_state", .object [("b", .null), ("a", .number (.integer 1))]),
    ("input_data", .object []),
    ("node_results", .array [.array [.string "a", .string "First", .string "success",
      .object [("n", .number (.integer 2))], .null, .number (.integer 3),
      .array [.string "b", .string "b"], .number (.integer 1)]]),
    ("note", .bool true), ("pending_nodes", .array [.string "b"]),
    ("status", .object [("running", .null)]), ("workflow_id", .string "w")]

/-- What is read from it, up to the time when it ended. -/
def savedState (finish : Time.Timestamp) : State where
  id := ⟨"11111111222243338444abcdefabcdef".toList⟩
  workflowId := "w"
  status := .running
  startTime := none
  endTime := some finish
  input := []
  output := none
  error := none
  results := [⟨"a", "First", .success, some [("n", .number (.integer 2))], none,
    Json.Number.roundInt 3, ["b", "b"], 1⟩]
  executed := ["a"]
  pending := ["b"]
  globalState := [("a", .number (.integer 1)), ("b", .null)]

/-- The text of the seconds that its result took is read as these. -/
theorem reread_three :
    (Json.Number.float (Json.Number.roundInt 3)).reread = .float (Json.Number.roundInt 3) := by
  have htext : (Json.Number.float (Json.Number.roundInt 3)).text = "3.0" := by decide +kernel
  have hread : Json.parse "3.0" = .ok (.number (.float (Json.Number.roundInt 3))) := by
    with_unfolding_all rfl
  rw [Json.Number.reread, htext, hread]

theorem roundTrip_savedForm :
    ∃ s, Json.decode decoder savedForm = .ok s ∧ s.WellFormed ∧
      Json.decode decoder s.toJson = .ok s ∧ Json.decode decoder s.document = .ok s ∧
      Json.decodeText decoder s.document.compact = .ok s := by
  obtain ⟨finish, h⟩ : ∃ finish, Json.decode decoder savedForm = .ok (savedState finish) :=
    ⟨_, rfl⟩
  have hnumbers : ∀ n ∈ savedForm.numbers, n.Proper := by
    have heq : savedForm.numbers = [.integer 1, .integer 2, .integer 3, .integer 1] := rfl
    rw [heq]
    simp [Json.Number.Proper, Json.Number.largestWord]
  have hfloats : ∀ x, .float x ∈ (savedState finish).document.numbers →
      (Json.Number.float x).reread = .float x := by
    have heq : (savedState finish).document.numbers =
      [.integer 2, .float (Json.Number.roundInt 3), .integer 1, .integer 1] := rfl
    intro x hx
    obtain rfl : x = Json.Number.roundInt 3 := by simpa [heq] using hx
    exact reread_three
  have hdepth : (savedState finish).document.depth ≤ Json.Reader.greatestDepth :=
    Nat.le_of_ble_eq_true rfl
  obtain ⟨hs, hread⟩ := roundTrip.2 savedForm _ hnumbers h
  obtain ⟨-, hdocument, htext⟩ := roundTrip.1 _ hs
  exact ⟨_, h, hs, hread, hdocument, htext hfloats hdepth⟩

end State

end Run

end Workflow
