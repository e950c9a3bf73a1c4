import Workflow.Proofs.NameSets
import Workflow.Proofs.Rendering
import Workflow.Proofs.Texts

/-!
What rendering depends on. The scan for names and the rendering go on at different places after a
brace that begins nothing, and only one of them stops at a brace that is not closed; still, both see
the same placeholders. So a text that is rendered depends on what its names lead to, and on nothing
else of the data, and so does a value, text by text.
-/
namespace Workflow.Template

variable {s : List Char} {d e : Payload} {text n : String}

/-- The name in a piece. -/
def Piece.name? : Piece → Option String
  | .char _ => none
  | .placeholder name => some (String.ofList name)

/-- Without a placeholder there is no name. -/
theorem filterMap_name?_of_notMem {c : Char} (h : c ∉ s) (hc : c = '{' ∨ c = '}') :
    (pieces s).filterMap Piece.name? = [] := by
  rw [List.filterMap_eq_nil_iff]
  intro p hp
  cases p with
  | char c => rfl
  | placeholder name => exact absurd hp (placeholder_notMem_pieces h hc)

theorem filterMap_name?_append {front : List Char} (h : '{' ∉ front) (s : List Char) :
    (pieces (front ++ s)).filterMap Piece.name? = (pieces s).filterMap Piece.name? := by
  have hfront : (front.map Piece.char).filterMap Piece.name? = [] := by
    rw [List.filterMap_map, List.filterMap_eq_nil_iff]
    exact fun c _ => rfl
  rw [pieces_append_of_notMem h, List.filterMap_append, hfront, List.nil_append]

/-- The scan for names finds those of the placeholders among the pieces. -/
theorem names_eq (s : List Char) : names s = (pieces s).filterMap Piece.name? := by
  fun_induction names s with
  | case1 s hopening =>
    exact (filterMap_name?_of_notMem (Text.cut?_eq_none_iff.1 hopening) (Or.inl rfl)).symm
  | case2 s front inner hopening hclosing =>
    obtain ⟨hfront, rfl⟩ := Text.cut?_eq_some_iff.1 hopening
    have hnone : '}' ∉ '{' :: inner := by
      simp [Text.cut?_eq_none_iff.1 hclosing]
    rw [filterMap_name?_append hfront, filterMap_name?_of_notMem hnone (Or.inr rfl)]
  | case3 s front inner hopening name behind hclosing hname ih =>
    obtain ⟨hfront, rfl⟩ := Text.cut?_eq_some_iff.1 hopening
    obtain ⟨-, rfl⟩ := Text.cut?_eq_some_iff.1 hclosing
    rw [ih, filterMap_name?_append hfront, pieces_placeholder hname]
    rfl
  | case4 s front inner hopening name behind hclosing hname ih =>
    obtain ⟨hfront, rfl⟩ := Text.cut?_eq_some_iff.1 hopening
    have hclosed : closed? inner = none := by
      rw [closed?, hclosing, Option.filter_some, if_neg hname]
    rw [ih, filterMap_name?_append hfront, pieces_opening hclosed]
    rfl

theorem mem_placeholders_iff : n ∈ placeholders text ↔ Names text n := by
  rw [placeholders, Text.mem_nameSet, names_eq, List.mem_filterMap, ← mem_pieces_iff_names]
  constructor
  · rintro ⟨p, hp, hname⟩
    cases p with
    | char c => cases hname
    | placeholder name =>
      cases hname
      rwa [String.toList_ofList]
  · intro h
    exact ⟨_, h, congrArg some String.ofList_toList⟩

theorem ofList_mem_placeholders {name : List Char} (h : .placeholder name ∈ pieces text.toList) :
    String.ofList name ∈ placeholders text := by
  rw [mem_placeholders_iff, ← mem_pieces_iff_names, String.toList_ofList]
  exact h

/-- A text depends on what its names lead to. -/
theorem render_congr (h : ∀ n ∈ placeholders text, lookup d n = lookup e n) :
    render d text = render e text := by
  apply String.toList_injective
  rw [toList_render, toList_render]
  apply List.flatMap_congr
  intro p hp
  cases p with
  | char c => rfl
  | placeholder name =>
    rw [Piece.render, Piece.render, resolve?, resolve?, h _ (ofList_mem_placeholders hp)]

theorem render_eq_self (h : ∀ n ∈ placeholders text, lookup d n = none) : render d text = text := by
  apply String.toList_injective
  rw [toList_render]
  apply renderPieces_eq_self
  intro name hname
  rw [resolve?, h _ (ofList_mem_placeholders hname)]
  split <;> rfl

/-! ## Values -/

mutual

/-- A value is rendered text by text. -/
theorem renderValue_eq (d : Payload) (v : Json) : renderValue d v = v.mapTexts (render d) := by
  cases v with
  | string s => rfl
  | array items => exact congrArg Json.array (renderItems_eq d items)
  | object fields => exact congrArg Json.object (renderFields_eq d fields)
  | null => rfl
  | bool b => rfl
  | number n => rfl

theorem renderItems_eq (d : Payload) (items : List Json) :
    renderItems d items = Json.mapTextsOfItems (render d) items := by
  cases items with
  | nil => rfl
  | cons item rest =>
    rw [renderItems, Json.mapTextsOfItems, renderValue_eq d item, renderItems_eq d rest]

theorem renderFields_eq (d : Payload) (fields : List (String × Json)) :
    renderFields d fields = Json.mapTextsOfFields (render d) fields := by
  cases fields with
  | nil => rfl
  | cons field rest =>
    rw [renderFields, Json.mapTextsOfFields, renderValue_eq d field.2, renderFields_eq d rest]

end

/-- The placeholders of a text are what its rendering depends on. They are listed in strictly
increasing order, and are all the names that stand between braces in the text. Data in which each of
them leads to the same value give the same text, and data in which none of them leads anywhere leave
the text as it is. A value depends on the placeholders of its texts in the same way; nothing of it
but its texts is changed. -/
theorem placeholders_determine (text : String) (v : Json) :
    (placeholders text).Pairwise (· < ·) ∧
    (∀ n, n ∈ placeholders text ↔
      ProperName n ∧ ∃ a b, text = a ++ inBraces n ++ b) ∧
    (∀ d e, (∀ n ∈ placeholders text, lookup d n = lookup e n) →
      render d text = render e text) ∧
    (∀ d, (∀ n ∈ placeholders text, lookup d n = none) → render d text = text) ∧
    (∀ d e, (∀ s ∈ v.texts, ∀ n ∈ placeholders s, lookup d n = lookup e n) →
      renderValue d v = renderValue e v) ∧
    ∀ d, (renderValue d v).shape = v.shape := by
  refine ⟨Text.pairwise_nameSet _, fun n => mem_placeholders_iff, fun d e => render_congr,
    fun d => render_eq_self, ?_, ?_⟩
  · intro d e h
    rw [renderValue_eq, renderValue_eq]
    apply Json.mapTexts_congr
    intro s hs
    exact render_congr (h s hs)
  · intro d
    rw [renderValue_eq]
    exact Json.shape_mapTexts (render d) v

/-- A greeting, alone and in a list, with data that differ where it does not look, and without
data. -/
theorem placeholders_determine_greeting :
    let text := "Hi {user.name}, {not a name}"
    let d : Payload := [("user", .object [("name", .string "Ada")])]
    let e : Payload := [("day", .bool true), ("user", .object [("name", .string "Ada")])]
    let v : Json := .array [.string text, .null]
    (∀ n ∈ placeholders text, lookup d n = lookup e n) ∧ render d text = render e text ∧
      (∀ n ∈ placeholders text, lookup [] n = none) ∧ render [] text = text ∧
      (∀ s ∈ v.texts, ∀ n ∈ placeholders s, lookup d n = lookup e n) ∧
      renderValue d v = renderValue e v := by
  intro text d e v
  have hplaceholders : placeholders text = ["user.name"] := by decide +kernel
  have hsame : ∀ n ∈ placeholders text, lookup d n = lookup e n := by
    intro n hn
    rw [hplaceholders, List.mem_singleton] at hn
    rw [hn]
    rfl
  have hnone : ∀ n ∈ placeholders text, lookup [] n = none := by
    intro n hn
    rw [hplaceholders, List.mem_singleton] at hn
    rw [hn]
    rfl
  have htexts : ∀ s ∈ v.texts, ∀ n ∈ placeholders s, lookup d n = lookup e n := by
    intro s hs
    rw [List.mem_singleton.1 hs]
    exact hsame
  obtain ⟨-, -, hrender, hself, hvalue, -⟩ := placeholders_determine text v
  exact ⟨hsame, hrender d e hsame, hnone, hself [] hnone, htexts, hvalue d e htexts⟩

end Workflow.Template
