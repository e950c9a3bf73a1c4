import Mathlib.Data.List.Basic
import Workflow.Proofs.Templates

/-!
What rendering makes of a text. A round of the loop replaces the next placeholder, or does an
opening brace that begins none, so the pieces that are left still give the rest of the outcome.
Hence a text is rendered piece by piece, and a placeholder anywhere in it cuts its rendering in two;
what is put in for it is not looked at again. Every round uses up an opening brace of the text.
-/
namespace Workflow.Template

variable {data : Payload} {s name : List Char} {r r' : Rendering}

/-! ## Pieces -/

def Piece.render (data : Payload) : Piece → List Char
  | .char c => [c]
  | .placeholder name => (resolve? data name).getD (Piece.placeholder name).text

/-- What becomes of the pieces of a text. -/
def renderPieces (data : Payload) (s : List Char) : List Char :=
  (pieces s).flatMap (Piece.render data)

/-- A text whose placeholders do not resolve stays as it is. -/
theorem renderPieces_eq_self
    (h : ∀ name, .placeholder name ∈ pieces s → resolve? data name = none) :
    renderPieces data s = s := by
  have hpieces : renderPieces data s = (pieces s).flatMap Piece.text := by
    apply List.flatMap_congr
    intro p hp
    cases p with
    | char c => rfl
    | placeholder name => rw [Piece.render, h name hp, Option.getD_none]
  rw [hpieces, flatMap_text_pieces]

theorem renderPieces_of_notMem {c : Char} (h : c ∉ s) (hc : c = '{' ∨ c = '}') :
    renderPieces data s = s :=
  renderPieces_eq_self fun _ hname => absurd hname (placeholder_notMem_pieces h hc)

theorem renderPieces_append_of_notMem {front : List Char} (h : '{' ∉ front) (s : List Char) :
    renderPieces data (front ++ s) = front ++ renderPieces data s := by
  unfold renderPieces
  rw [pieces_append_of_notMem h, List.flatMap_append]
  congr 1
  induction front with
  | nil => rfl
  | cons c rest ih =>
    rw [List.mem_cons, not_or] at h
    rw [List.map_cons, List.flatMap_cons, ih h.2]
    rfl

theorem renderPieces_placeholder {value : List Char} (h : resolve? data name = some value)
    (behind : List Char) :
    renderPieces data ('{' :: (name ++ '}' :: behind)) = value ++ renderPieces data behind := by
  have hname : isName name = true := by
    by_contra hname
    rw [resolve?, if_neg hname] at h
    cases h
  unfold renderPieces
  rw [pieces_placeholder hname, List.flatMap_cons, Piece.render, h, Option.getD_some]

/-- An opening brace stands for itself where what it begins does not resolve. -/
theorem renderPieces_opening {behind : List Char} (hcut : Text.cut? '}' s = some (name, behind))
    (h : resolve? data name = none) :
    renderPieces data ('{' :: s) = '{' :: renderPieces data s := by
  by_cases hname : isName name = true
  · obtain ⟨-, rfl⟩ := Text.cut?_eq_some_iff.1 hcut
    have hfront : '{' ∉ name ++ ['}'] := by
      simp [opening_notMem hname]
    have hinner : renderPieces data (name ++ '}' :: behind) =
        name ++ ['}'] ++ renderPieces data behind := by
      rw [← renderPieces_append_of_notMem hfront, List.append_assoc, List.singleton_append]
    rw [hinner]
    unfold renderPieces
    rw [pieces_placeholder hname, List.flatMap_cons, Piece.render, h, Option.getD_none, Piece.text]
    rfl
  · have hclosed : closed? s = none := by
      rw [closed?, hcut, Option.filter_some, if_neg hname]
    unfold renderPieces
    rw [pieces_opening hclosed]
    rfl

/-! ## Rounds -/

/-- What comes of a text: what is done, and the pieces that are left. -/
def Rendering.outcome (data : Payload) (r : Rendering) : List Char :=
  r.done ++ renderPieces data r.left

theorem Rendering.outcome_of_over (h : r.next? data = none) :
    r.outcome data = r.done ++ r.left := by
  have hopening : Text.cut? '{' r.left = none := by
    unfold next? at h
    split at h
    · assumption
    · split at h
      · cases h
      · split at h <;> cases h
  rw [outcome, renderPieces_of_notMem (Text.cut?_eq_none_iff.1 hopening) (Or.inl rfl)]

/-- A round changes what is left to do, and not what comes of it. -/
theorem Rendering.outcome_next (h : r.next? data = some r') : r'.outcome data = r.outcome data := by
  unfold next? at h
  split at h
  · cases h
  rename_i front inner hopening
  obtain ⟨hfront, hleft⟩ := Text.cut?_eq_some_iff.1 hopening
  have houtcome : r.outcome data = r.done ++ (front ++ renderPieces data ('{' :: inner)) := by
    rw [outcome, hleft, renderPieces_append_of_notMem hfront]
  rw [houtcome]
  split at h
  · rename_i hclosing
    have hnone : '}' ∉ '{' :: inner := by
      simp [Text.cut?_eq_none_iff.1 hclosing]
    cases h
    rw [outcome, renderPieces_of_notMem hnone (Or.inr rfl)]
    simp [renderPieces, pieces_nil]
  rename_i name behind hclosing
  split at h
  · rename_i hresolve
    cases h
    rw [outcome, renderPieces_opening hclosing hresolve]
    simp
  · rename_i value hresolve
    obtain ⟨-, hinner⟩ := Text.cut?_eq_some_iff.1 hclosing
    cases h
    rw [outcome, hinner, renderPieces_placeholder hresolve]
    simp

theorem Rendering.finish_eq (data : Payload) (r : Rendering) :
    r.finish data = r.outcome data := by
  fun_induction Rendering.finish data r with
  | case1 r h => exact (outcome_of_over h).symm
  | case2 r r' h ih => rw [ih, outcome_next h]

theorem toList_render (data : Payload) (text : String) :
    (render data text).toList = renderPieces data text.toList := by
  rw [render, String.toList_ofList, Rendering.finish_eq]
  rfl

/-- The text after a number of rounds. -/
def Rendering.after (data : Payload) : Nat → Rendering → Option Rendering
  | 0, r => some r
  | k + 1, r => (r.next? data).bind (after data k)

theorem Rendering.count_next (h : r.next? data = some r') :
    r'.left.count '{' < r.left.count '{' := by
  unfold next? at h
  split at h
  · cases h
  rename_i front inner hopening
  obtain ⟨-, hleft⟩ := Text.cut?_eq_some_iff.1 hopening
  have hcount : inner.count '{' < r.left.count '{' := by
    rw [hleft, List.count_append, List.count_cons_self]
    omega
  split at h
  · cases h
    exact Nat.zero_lt_of_lt hcount
  rename_i name behind hclosing
  obtain ⟨-, hinner⟩ := Text.cut?_eq_some_iff.1 hclosing
  split at h
  · cases h
    exact hcount
  · cases h
    refine Nat.lt_of_le_of_lt ?_ hcount
    rw [hinner]
    exact ((List.suffix_cons _ _).trans (List.suffix_append _ _)).count_le _

/-- All rounds are over after as many of them as there are opening braces, at most. -/
theorem Rendering.exists_after (data : Payload) (r : Rendering) :
    ∃ k ≤ r.left.count '{', ∃ last, after data k r = some last ∧ last.next? data = none ∧
      r.finish data = last.done ++ last.left := by
  fun_induction Rendering.finish data r with
  | case1 r h => exact ⟨0, Nat.zero_le _, r, rfl, h, rfl⟩
  | case2 r r' h ih =>
    obtain ⟨k, hk, last, hafter, hover, hfinish⟩ := ih
    have hcount := count_next h
    refine ⟨k + 1, by omega, last, ?_, hover, hfinish⟩
    rw [after, h, Option.bind_some, hafter]

/-! ## Texts -/

/-- What stands in the place of a placeholder: the text of the value that its name leads to, or the
placeholder itself. -/
def inserted (data : Payload) (n : String) : String :=
  match lookup data n with
  | some value => value.plainText
  | none => inBraces n

theorem render_placeholder {n : String} (h : ProperName n) :
    (Piece.placeholder n.toList).render data = (inserted data n).toList := by
  rw [Piece.render, resolve?, if_pos (isName_iff.2 h), String.ofList_toList, inserted]
  cases lookup data n with
  | some value => rfl
  | none =>
    rw [Option.map_none, Option.getD_none, Piece.text]
    simp

/-- Rendering is exact. A placeholder anywhere in a text is replaced by the text of its value, just
as it is, or else stays, and what is on its sides is rendered as if it stood alone. A text without
placeholders stays as it is. Every text is done after as many rounds as it has opening braces, at
most. -/
theorem render_exact (data : Payload) :
    (∀ a b n, ProperName n → render data (a ++ inBraces n ++ b) =
      render data a ++ inserted data n ++ render data b) ∧
    (∀ text, (∀ n, ¬ Names text n) → render data text = text) ∧
    ∀ text, ∃ k ≤ text.toList.count '{', ∃ last,
      Rendering.after data k ⟨[], text.toList⟩ = some last ∧ last.next? data = none ∧
      render data text = String.ofList (last.done ++ last.left) := by
  refine ⟨?_, ?_, ?_⟩
  · intro a b n hn
    apply String.toList_injective
    rw [String.toList_append, String.toList_append, toList_render, toList_render, toList_render,
      toList_placed, renderPieces, pieces_append (isName_iff.2 hn), List.flatMap_append,
      List.flatMap_cons, render_placeholder hn, List.append_assoc]
    rfl
  · intro text hnone
    apply String.toList_injective
    rw [toList_render]
    apply renderPieces_eq_self
    intro name hname
    rw [← String.toList_ofList (l := name), mem_pieces_iff_names] at hname
    exact absurd hname (hnone _)
  · intro text
    obtain ⟨k, hk, last, hafter, hover, hfinish⟩ :=
      Rendering.exists_after data ⟨[], text.toList⟩
    exact ⟨k, hk, last, hafter, hover, by rw [render, hfinish]⟩

/-- A placeholder between braces, whose value looks like a placeholder, and a text with a brace that
is not closed. -/
theorem render_exact_nested :
    let data : Payload := [("k", .string "{k}")]
    ProperName "k" ∧
      render data (inBraces (inBraces "k")) = "{{k}}" ∧
      (∀ n, ¬ Names "open \x7bk" n) ∧ render data "open \x7bk" = "open \x7bk" := by
  intro data
  have hname : ProperName "k" := isName_iff.1 (by decide +kernel)
  have hnone : ∀ n, ¬ Names "open \x7bk" n := by
    rintro n ⟨-, a, b, h⟩
    have hclosing : '}' ∈ "open \x7bk".toList := by
      rw [h, toList_placed]
      simp
    exact absurd hclosing (by decide)
  obtain ⟨hplaced, hplain, -⟩ := render_exact data
  have hopening : render data "\x7b" = "\x7b" := by decide +kernel
  have hend : render data "\x7d" = "\x7d" := by decide +kernel
  refine ⟨hname, ?_, hnone, hplain _ hnone⟩
  rw [inBraces, hplaced _ _ _ hname, hopening, hend]
  decide +kernel

end Workflow.Template
