import Workflow.Proofs.Decoding
import Workflow.Proofs.Ids
import Workflow.Proofs.Timestamps
import Workflow.Run.State

/-!
States as texts. The text of a state that is not nested too deep is read as a state that is no
deeper, and the text of one that is nested deeper is not read at all.
-/
namespace Workflow

namespace Run

open Json (Within)
open Json.Decoder (Gives gives_string gives_double gives_word32 gives_ofText? gives_ofTexts Limits
  Shape limits_of_depth_eq_zero limits_list limits_payload limits_optional_payload limits_ofTexts)

namespace Result

/-- The seconds of a result are finite and its attempts are counted in 32 bits. -/
structure Proper (r : Result) : Prop where
  seconds : r.seconds.isFinite
  attempts : r.attempts < 2 ^ 32

theorem gives_status (status : NodeStatus) :
    Gives NodeStatus.decoder (.string status.name) status := by
  cases status <;> rfl

/-- A result that is written is read back, with other numbers where their texts are read so. -/
theorem exists_gives_entries {r : Result} (h : r.Proper) :
    ∃ r', Gives decoder ((Json.object r.entries).mapNumbers Json.Number.reread) r' ∧ r'.Proper ∧
      (Json.object r'.entries).Within ((Json.object r.entries).mapNumbers Json.Number.reread) := by
  obtain ⟨y, hy, hseconds⟩ := Json.Number.exists_reread_float h.seconds
  have hattempts : (Json.Number.integer r.attempts).reread = .integer r.attempts := by
    have := h.attempts
    exact Json.Number.reread_integer (by omega) (by rw [Json.Number.largestWord]; omega)
  obtain ⟨output, houtput, hwithin⟩ :=
    Json.Decoder.exists_gives_ofPayload? Json.Number.reread r.output
  have hentries : (Json.object r.entries).mapNumbers Json.Number.reread =
      .object [("node_id", .string r.nodeId), ("node_name", .string r.nodeName),
        ("status", .string r.status.name),
        ("output", (Json.ofPayload? r.output).mapNumbers Json.Number.reread),
        ("error", .ofText? r.error), ("execution_time", .number (.float y)),
        ("next_nodes", .ofTexts r.nextNodes), ("attempts", .ofInt r.attempts)] := by
    rw [entries, Json.ofFloat, if_pos h.seconds, Json.ofInt]
    simp only [Json.mapNumbers, Json.mapFields, Json.mapNumbers_ofText?,
      Json.mapNumbers_ofTexts, hseconds, hattempts]
  refine ⟨⟨r.nodeId, r.nodeName, r.status, output, r.error, y, r.nextNodes, r.attempts⟩, ?_,
    ⟨hy, h.attempts⟩, ?_⟩
  · rw [hentries]
    exact Json.Decoder.Reads.gives (by decide)
      (.cons (gives_string _) (.cons (gives_string _) (.cons (gives_status _) (.cons houtput
        (.cons (gives_ofText? _) (.cons (gives_double _) (.cons (gives_ofTexts _)
          (.cons (gives_word32 h.attempts) (.nil _))))))))) rfl
  · rw [hentries, entries, Json.ofFloat, if_pos hy]
    exact .object_of_forall₂ (.cons (.refl _) (.cons (.refl _) (.cons (.refl _) (.cons hwithin
      (.cons (.refl _) (.cons (.refl _) (.cons (.refl _) (.cons (.refl _) .nil))))))))

theorem exists_gives_results {results : List Result} (h : ∀ r ∈ results, r.Proper) :
    ∃ results', List.Forall₂ (Gives decoder)
        (results.map fun r => (Json.object r.entries).mapNumbers Json.Number.reread) results' ∧
      (∀ r ∈ results', r.Proper) ∧
      (Json.array (results'.map fun r => .object r.entries)).Within
        (.array (results.map fun r => (Json.object r.entries).mapNumbers Json.Number.reread)) := by
  choose! read hgives hproper hwithin using
    fun r (hr : r ∈ results) => exists_gives_entries (h r hr)
  refine ⟨results.map read, ?_, ?_, .array ?_⟩
  · rw [List.forall₂_map_left_iff, List.forall₂_map_right_iff, List.forall₂_same]
    exact hgives
  · rw [List.forall_mem_map]
    exact hproper
  · rw [List.map_map, List.forall_mem_map]
    exact fun r hr => ⟨_, List.mem_map_of_mem hr, hwithin r hr⟩

theorem limits_entries (r : Result) : Limits decoder 2 (.object r.entries) := by
  refine Shape.limits (by decide) ?_
  simp only [entries, List.forall_mem_cons, List.not_mem_nil, false_implies, implies_true,
    and_true]
  exact ⟨⟨_, _, _, _, rfl, limits_of_depth_eq_zero (by decide) rfl⟩,
    ⟨_, _, _, _, rfl, limits_of_depth_eq_zero (by decide) rfl⟩,
    ⟨_, _, _, _, rfl, limits_of_depth_eq_zero (by decide) rfl⟩,
    ⟨_, _, _, _, rfl, limits_optional_payload (by decide) _⟩,
    ⟨_, _, _, _, rfl, limits_of_depth_eq_zero (by decide) (Json.depth_ofText? _)⟩,
    ⟨_, _, _, _, rfl, limits_of_depth_eq_zero (by decide) (Json.depth_ofFloat _)⟩,
    ⟨_, _, _, _, rfl, limits_ofTexts (by decide) _⟩,
    ⟨_, _, _, _, rfl, limits_of_depth_eq_zero (by decide) rfl⟩⟩

end Result

namespace State

/-- A state as there can be: its id and its times have texts, and its numbers are integers of 64
bits or finite. -/
structure Proper (s : State) : Prop where
  id : s.id.Proper
  startTime : ∀ t ∈ s.startTime, t.Proper
  endTime : ∀ t ∈ s.endTime, t.Proper
  results : ∀ r ∈ s.results, r.Proper
  numbers : ∀ n ∈ s.document.numbers, n.Proper

theorem gives_status (status : Status) : Gives Status.decoder status.toJson status := by
  cases status <;> rfl

theorem gives_timeJson {time : Option Time.Timestamp} (h : ∀ t ∈ time, t.Proper) :
    Gives (Json.Decoder.optional Time.Timestamp.decoder) (timeJson time) time := by
  cases time with
  | none => rfl
  | some t => exact Gives.optional nofun (Time.Timestamp.decoder_toJson (h t rfl))

theorem depth_timeJson (time : Option Time.Timestamp) : (timeJson time).depth = 0 := by
  cases time <;> rfl

theorem mapNumbers_timeJson (f : Json.Number → Json.Number) (time : Option Time.Timestamp) :
    (timeJson time).mapNumbers f = timeJson time := by
  cases time <;> rfl

/-- The numbers of a state are those of its payloads and of its results. -/
theorem mapNumbers_document (f : Json.Number → Json.Number) (s : State) :
    s.document.mapNumbers f =
      .object [("execution_id", s.id.toJson), ("workflow_id", .string s.workflowId),
        ("status", s.status.toJson), ("start_time", timeJson s.startTime),
        ("end_time", timeJson s.endTime), ("input_data", (Json.object s.input).mapNumbers f),
        ("output_data", (Json.ofPayload? s.output).mapNumbers f), ("error", .ofText? s.error),
        ("node_results", .array (s.results.map fun r => (Json.object r.entries).mapNumbers f)),
        ("executed_nodes", .ofTexts s.executed), ("pending_nodes", .ofTexts s.pending),
        ("global_state", (Json.object s.globalState).mapNumbers f)] := by
  rw [document, entries, Id.toJson, Status.toJson]
  simp only [Json.mapNumbers, Json.mapFields, Json.mapItems_eq_map, List.map_map,
    Json.mapNumbers_ofText?, Json.mapNumbers_ofTexts, mapNumbers_timeJson]
  rfl

/-- The document of a state is read back as a state that is nested no deeper, with other numbers
where their texts are read so. -/
theorem exists_gives_document {s : State} (h : s.Proper) :
    ∃ s', Gives decoder (s.document.mapNumbers Json.Number.reread) s' ∧ s'.Proper ∧
      s'.document.depth ≤ s.document.depth ∧ s'.startTime = s.startTime ∧
      s'.workflowId = s.workflowId := by
  obtain ⟨input, hinput, hinput'⟩ :=
    Json.Decoder.exists_gives_payload Json.Number.reread s.input
  obtain ⟨output, houtput, houtput'⟩ :=
    Json.Decoder.exists_gives_ofPayload? Json.Number.reread s.output
  obtain ⟨globalState, hglobal, hglobal'⟩ :=
    Json.Decoder.exists_gives_payload Json.Number.reread s.globalState
  obtain ⟨results, hresults, hproper, hresults'⟩ := Result.exists_gives_results h.results
  let s' : State := ⟨s.id, s.workflowId, s.status, s.startTime, s.endTime, input, output, s.error,
    results, s.executed, s.pending, globalState⟩
  have hwithin : s'.document.Within (s.document.mapNumbers Json.Number.reread) := by
    rw [mapNumbers_document, document, entries]
    exact .object_of_forall₂ (.cons (.refl _) (.cons (.refl _) (.cons (.refl _) (.cons (.refl _)
      (.cons (.refl _) (.cons hinput' (.cons houtput' (.cons (.refl _) (.cons hresults'
        (.cons (.refl _) (.cons (.refl _) (.cons hglobal' .nil))))))))))))
  refine ⟨s', ?_, ⟨h.id, h.startTime, h.endTime, hproper, fun n hn => ?_⟩, ?_, rfl, rfl⟩
  · rw [mapNumbers_document]
    exact Json.Decoder.Reads.gives (by decide)
      (.cons (Id.decoder_toJson h.id) (.cons (gives_string _) (.cons (gives_status _)
        (.cons (gives_timeJson h.startTime) (.cons (gives_timeJson h.endTime) (.cons hinput
          (.cons houtput (.cons (gives_ofText? _) (.cons (.list hresults)
            (.cons (gives_ofTexts _) (.cons (gives_ofTexts _)
              (.cons hglobal (.nil _))))))))))))) rfl
  · have hmem := hwithin.numbers_subset hn
    rw [Json.numbers_mapNumbers, List.mem_map] at hmem
    obtain ⟨m, hm, rfl⟩ := hmem
    exact (h.numbers m hm).reread
  · exact hwithin.depth_le.trans (Nat.le_of_eq (Json.depth_mapNumbers Json.Number.reread _))

open Json.Reader (greatestDepth)

/-- The state that the text of a state is read as. -/
@[irreducible]
def reread (s : State) : State := (Json.decodeText decoder s.document.compact).toOption.getD s

section Shallow

variable {s : State} (h : s.Proper) (hdepth : s.document.depth ≤ greatestDepth)

include h hdepth

theorem exists_decodeText_document :
    ∃ s', Json.decodeText decoder s.document.compact = .ok s' ∧ s'.Proper ∧
      s'.document.depth ≤ greatestDepth ∧ s'.startTime = s.startTime ∧
      s'.workflowId = s.workflowId := by
  obtain ⟨s', hgives, hproper, hle, hsame⟩ := exists_gives_document h
  have hdraft := Json.readDraft_object _ (fun n hn => Json.Number.readsAs_reread (h.numbers n hn))
    hdepth
  have hread : decoder (.ofJson (s.document.mapNumbers Json.Number.reread)) = .ok s' := hgives
  refine ⟨s', ?_, hproper, hle.trans hdepth, hsame⟩
  rw [document, Json.decodeText_of_readDraft hdraft, ← document, hread]

/-- The text of a state that is not nested too deep is read. -/
theorem decodeText_document : Json.decodeText decoder s.document.compact = .ok s.reread := by
  obtain ⟨s', hread, -⟩ := exists_decodeText_document h hdepth
  unfold reread
  rw [hread]
  rfl

/-- What is read can be written and read again, and belongs to the same file. -/
theorem reread_proper : s.reread.Proper ∧ s.reread.document.depth ≤ greatestDepth ∧
    s.reread.startTime = s.startTime ∧ s.reread.workflowId = s.workflowId := by
  obtain ⟨s', hread, hproper⟩ := exists_decodeText_document h hdepth
  rw [decodeText_document h hdepth, Except.ok.injEq] at hread
  rwa [hread]

end Shallow

/-- The decoder of states limits how deep they are nested. -/
theorem limits_document (s : State) : Limits decoder 0 s.document := by
  have hresults : Limits (Json.Decoder.list Result.decoder) 1
      (.array (s.results.map fun r => .object r.entries)) :=
    limits_list (by decide) (List.forall_mem_map.2 fun r _ => r.limits_entries)
  refine Shape.limits (by decide) ?_
  simp only [entries, List.forall_mem_cons, List.not_mem_nil, false_implies, implies_true,
    and_true]
  exact ⟨⟨_, _, _, _, rfl, limits_of_depth_eq_zero (by decide) rfl⟩,
    ⟨_, _, _, _, rfl, limits_of_depth_eq_zero (by decide) rfl⟩,
    ⟨_, _, _, _, rfl, limits_of_depth_eq_zero (by decide) rfl⟩,
    ⟨_, _, _, _, rfl, limits_of_depth_eq_zero (by decide) (depth_timeJson _)⟩,
    ⟨_, _, _, _, rfl, limits_of_depth_eq_zero (by decide) (depth_timeJson _)⟩,
    ⟨_, _, _, _, rfl, limits_payload (by decide) _⟩,
    ⟨_, _, _, _, rfl, limits_optional_payload (by decide) _⟩,
    ⟨_, _, _, _, rfl, limits_of_depth_eq_zero (by decide) (Json.depth_ofText? _)⟩,
    ⟨_, _, _, _, rfl, hresults⟩,
    ⟨_, _, _, _, rfl, limits_ofTexts (by decide) _⟩,
    ⟨_, _, _, _, rfl, limits_ofTexts (by decide) _⟩,
    ⟨_, _, _, _, rfl, limits_payload (by decide) _⟩⟩

/-- The text of a state that is nested too deep is not read. -/
theorem depth_le_of_decodeText {s s' : State} (h : s.Proper)
    (hread : Json.decodeText decoder s.document.compact = .ok s') :
    s.document.depth ≤ greatestDepth := by
  obtain ⟨x, hdraft, hmade⟩ := Json.exists_readDraft_object _
    fun n hn => Json.Number.readsAs_reread (h.numbers n hn)
  rw [document, Json.decodeText_of_readDraft hdraft] at hread
  have hle := s.limits_document hmade hread
  rwa [Nat.zero_add] at hle

end State

end Run

end Workflow
