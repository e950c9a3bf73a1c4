import Workflow.Template.Render

/-!
What a text is made of. Whatever the data, a text is cut into placeholders and single characters,
and put together from them again. A name has no brace in it, so an opening brace in front of a
placeholder takes nothing from it: the pieces around a placeholder are those of the two texts at its
sides. The placeholders among the pieces are therefore all the names that stand between braces.
-/
namespace Workflow.Template

/-! ## Names -/

/-- What a placeholder may name. -/
structure ProperName (n : String) : Prop where
  nonempty : n ≠ ""
  plain : ∀ c ∈ n.toList, Text.isAlphanumeric c = true ∨ c = '_' ∨ c = '-' ∨ c = '.'
  front : n.toList.head? ≠ some '.'
  back : n.toList.getLast? ≠ some '.'

theorem isName_iff {n : String} : isName n.toList = true ↔ ProperName n := by
  simp only [isName, Bool.and_eq_true, Bool.not_eq_true', List.isEmpty_eq_false_iff, bne_iff_ne,
    List.all_eq_true, isNameChar, Bool.or_eq_true, decide_eq_true_eq, or_assoc]
  constructor
  · rintro ⟨⟨⟨hnonempty, hfront⟩, hback⟩, hplain⟩
    exact ⟨fun h => hnonempty (by rw [h]; rfl), hplain, hfront, hback⟩
  · intro h
    exact ⟨⟨⟨fun hnil => h.nonempty (String.toList_eq_nil_iff.1 hnil), h.front⟩, h.back⟩, h.plain⟩

section

variable {name s a b : List Char}

theorem notMem_of_isName {c : Char} (hc : isNameChar c = false) (h : isName name = true) :
    c ∉ name := by
  intro hmem
  unfold isName at h
  rw [Bool.and_eq_true, List.all_eq_true] at h
  rw [h.2 c hmem] at hc
  cases hc

theorem opening_notMem (h : isName name = true) : '{' ∉ name :=
  notMem_of_isName (by decide +kernel) h

theorem closing_notMem (h : isName name = true) : '}' ∉ name :=
  notMem_of_isName (by decide +kernel) h

/-! ## Pieces -/

/-- A piece of a text. -/
inductive Piece where
  | char (c : Char)
  | placeholder (name : List Char)
  deriving Repr, DecidableEq

/-- The text that a piece was cut from. -/
def Piece.text : Piece → List Char
  | .char c => [c]
  | .placeholder name => '{' :: name ++ ['}']

/-- The name in front of the first closing brace and the text behind that brace; the text is that
behind an opening brace. -/
def closed? (s : List Char) : Option (List Char × List Char) :=
  (Text.cut? '}' s).filter fun cut => isName cut.1

theorem closed?_eq_some_iff : closed? s = some (name, b) ↔
    isName name = true ∧ s = name ++ '}' :: b := by
  rw [closed?, Option.filter_eq_some_iff, Text.cut?_eq_some_iff]
  constructor
  · rintro ⟨⟨-, rfl⟩, hname⟩
    exact ⟨hname, rfl⟩
  · rintro ⟨hname, rfl⟩
    exact ⟨⟨closing_notMem hname, rfl⟩, hname⟩

/-- Cuts a text into its pieces. -/
def pieces (s : List Char) : List Piece :=
  match s with
  | [] => []
  | c :: rest =>
    if c = '{' then
      match _h : closed? rest with
      | some (name, behind) => .placeholder name :: pieces behind
      | none => .char c :: pieces rest
    else .char c :: pieces rest
termination_by s.length
decreasing_by
  · obtain ⟨-, rfl⟩ := closed?_eq_some_iff.1 _h
    simp only [List.length_cons, List.length_append]
    omega
  all_goals simp

theorem pieces_nil : pieces [] = [] := by
  rw [pieces]

theorem pieces_cons_of_ne {c : Char} (hc : c ≠ '{') (s : List Char) :
    pieces (c :: s) = .char c :: pieces s := by
  rw [pieces, if_neg hc]

theorem pieces_opening (h : closed? s = none) :
    pieces ('{' :: s) = .char '{' :: pieces s := by
  rw [pieces, if_pos rfl]
  split
  · rename_i heq
    rw [h] at heq
    cases heq
  · rfl

theorem pieces_placeholder (h : isName name = true) (b : List Char) :
    pieces ('{' :: (name ++ '}' :: b)) = .placeholder name :: pieces b := by
  have hclosed : closed? (name ++ '}' :: b) = some (name, b) :=
    closed?_eq_some_iff.2 ⟨h, rfl⟩
  rw [pieces, if_pos rfl]
  split
  · rename_i heq
    rw [hclosed] at heq
    cases heq
    rfl
  · rename_i heq
    rw [hclosed] at heq
    cases heq

theorem pieces_append_of_notMem (h : '{' ∉ a) (s : List Char) :
    pieces (a ++ s) = a.map .char ++ pieces s := by
  induction a with
  | nil => rfl
  | cons c rest ih =>
    rw [List.mem_cons, not_or] at h
    rw [List.cons_append, pieces_cons_of_ne (Ne.symm h.1), ih h.2, List.map_cons, List.cons_append]

/-- The pieces of a text put together are the text. -/
theorem flatMap_text_pieces (s : List Char) : (pieces s).flatMap Piece.text = s := by
  fun_induction pieces s with
  | case1 => rfl
  | case2 rest name behind hclosed ih =>
    obtain ⟨-, rfl⟩ := closed?_eq_some_iff.1 hclosed
    rw [List.flatMap_cons, ih]
    simp [Piece.text]
  | case3 rest _ ih => rw [List.flatMap_cons, ih]; rfl
  | case4 c rest _ ih => rw [List.flatMap_cons, ih]; rfl

theorem isName_of_mem_pieces (h : .placeholder name ∈ pieces s) : isName name = true := by
  fun_induction pieces s with
  | case1 => cases h
  | case2 rest n behind hclosed ih =>
    rcases List.mem_cons.1 h with heq | hbehind
    · cases heq
      exact (closed?_eq_some_iff.1 hclosed).1
    · exact ih hbehind
  | case3 rest _ ih => exact ih ((List.mem_cons.1 h).resolve_left Piece.noConfusion)
  | case4 c rest _ ih => exact ih ((List.mem_cons.1 h).resolve_left Piece.noConfusion)

/-- An opening brace that begins no placeholder begins none either when a placeholder follows: the
brace of that one is not in a name. -/
theorem closed?_append (h : closed? a = none) (name b : List Char) :
    closed? (a ++ '{' :: (name ++ '}' :: b)) = none := by
  rw [Option.eq_none_iff_forall_ne_some]
  rintro ⟨n, behind⟩ hsome
  obtain ⟨hn, heq⟩ := closed?_eq_some_iff.1 hsome
  rcases List.append_eq_append_iff.1 heq with ⟨w, rfl, hw⟩ | ⟨w, rfl, hw⟩
  · cases w with
    | nil =>
      rw [List.nil_append, List.cons.injEq] at hw
      exact absurd hw.1 (by decide)
    | cons c rest =>
      rw [List.cons_append, List.cons.injEq] at hw
      apply opening_notMem hn
      rw [hw.1]
      exact List.mem_append_right _ List.mem_cons_self
  · cases w with
    | nil =>
      rw [List.nil_append, List.cons.injEq] at hw
      exact absurd hw.1.symm (by decide)
    | cons c rest =>
      rw [List.cons_append, List.cons.injEq] at hw
      rw [closed?_eq_some_iff.2 ⟨hn, by rw [hw.1]⟩] at h
      cases h

/-- The pieces around a placeholder are those of the texts at its sides. -/
theorem pieces_append (h : isName name = true) (a b : List Char) :
    pieces (a ++ '{' :: (name ++ '}' :: b)) =
      pieces a ++ .placeholder name :: pieces b := by
  fun_induction pieces a with
  | case1 => rw [List.nil_append, List.nil_append, pieces_placeholder h]
  | case2 rest n behind hclosed ih =>
    obtain ⟨hn, rfl⟩ := closed?_eq_some_iff.1 hclosed
    rw [List.cons_append, List.append_assoc, List.cons_append, pieces_placeholder hn, ih,
      List.cons_append]
  | case3 rest hopen ih =>
    rw [List.cons_append, pieces_opening (closed?_append hopen name b), ih, List.cons_append]
  | case4 c rest hc ih => rw [List.cons_append, pieces_cons_of_ne hc, ih, List.cons_append]

/-- The placeholders of a text are the names that stand between braces. -/
theorem mem_pieces_iff : .placeholder name ∈ pieces s ↔
    isName name = true ∧ ∃ a b, s = a ++ '{' :: (name ++ '}' :: b) := by
  constructor
  · intro h
    refine ⟨isName_of_mem_pieces h, ?_⟩
    obtain ⟨before, after, hpieces⟩ := List.append_of_mem h
    refine ⟨before.flatMap Piece.text, after.flatMap Piece.text, ?_⟩
    rw [← flatMap_text_pieces s, hpieces, List.flatMap_append, List.flatMap_cons]
    simp [Piece.text]
  · rintro ⟨hname, a, b, rfl⟩
    rw [pieces_append hname]
    exact List.mem_append_right _ List.mem_cons_self

/-- Without one of the braces there is no placeholder. -/
theorem placeholder_notMem_pieces {c : Char} (h : c ∉ s) (hc : c = '{' ∨ c = '}') :
    .placeholder name ∉ pieces s := by
  intro hname
  obtain ⟨-, a, b, rfl⟩ := mem_pieces_iff.1 hname
  apply h
  rcases hc with rfl | rfl <;> simp

end

/-- A text in braces. -/
def inBraces (inner : String) : String := "\x7b" ++ inner ++ "\x7d"

@[simp]
theorem toList_inBraces (inner : String) :
    (inBraces inner).toList = '{' :: (inner.toList ++ ['}']) := by
  simp [inBraces]

theorem toList_placed (a n b : String) : (a ++ inBraces n ++ b).toList =
    a.toList ++ '{' :: (n.toList ++ '}' :: b.toList) := by
  simp

/-- A name stands in braces in a text. -/
def Names (text n : String) : Prop := ProperName n ∧ ∃ a b, text = a ++ inBraces n ++ b

theorem mem_pieces_iff_names {text n : String} :
    .placeholder n.toList ∈ pieces text.toList ↔ Names text n := by
  rw [mem_pieces_iff, isName_iff, Names]
  refine and_congr_right fun _ => ⟨?_, ?_⟩
  · rintro ⟨a, b, h⟩
    refine ⟨.ofList a, .ofList b, String.toList_injective ?_⟩
    rw [toList_placed, String.toList_ofList, String.toList_ofList]
    exact h
  · rintro ⟨a, b, rfl⟩
    exact ⟨a.toList, b.toList, toList_placed a n b⟩

end Workflow.Template
