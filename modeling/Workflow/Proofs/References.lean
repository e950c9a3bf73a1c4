import Workflow.Node.Delay
import Workflow.Proofs.Templates
import Workflow.Proofs.Trimming

/-!
References to names. A text is a reference when it is a name between double braces, with blanks
around the name and around the braces, and nothing else. A name has no blank and no brace in it, so
trimming gives back just the name, and a reference has two braces of each kind.
-/
namespace Workflow.Template

open Text (Blank Padded Trimmed)

/-! ## Fronts and backs -/

theorem behind?_eq_some_iff {front s rest : List Char} :
    behind? front s = some rest ↔ s = front ++ rest := by
  unfold behind?
  constructor
  · intro h
    split at h
    · rename_i hprefix
      obtain ⟨rest', rfl⟩ := List.isPrefixOf_iff_prefix.1 hprefix
      rw [List.drop_left, Option.some.injEq] at h
      rw [h]
    · cases h
  · rintro rfl
    rw [if_pos (List.isPrefixOf_iff_prefix.2 (List.prefix_append front rest)), List.drop_left]

theorem before?_eq_some_iff {back s rest : List Char} :
    before? back s = some rest ↔ s = rest ++ back := by
  have htake (rest : List Char) :
      (rest ++ back).take ((rest ++ back).length - back.length) = rest := by
    rw [List.length_append, Nat.add_sub_cancel, List.take_left]
  unfold before?
  constructor
  · intro h
    split at h
    · rename_i hsuffix
      obtain ⟨rest', rfl⟩ := List.isSuffixOf_iff_suffix.1 hsuffix
      rw [htake, Option.some.injEq] at h
      rw [h]
    · cases h
  · rintro rfl
    rw [if_pos (List.isSuffixOf_iff_suffix.2 (List.suffix_append rest back)), htake]

/-! ## Names and braces among blanks -/

theorem isNameChar_of_isBlank {c : Char} (h : Text.isBlank c = true) : isNameChar c = false := by
  have hcodes : ∀ n ∈ Text.blankCodes, isNameChar (Char.ofNat n) = false := by decide +kernel
  rw [← Char.ofNat_toNat c]
  exact hcodes _ (Text.isBlank_iff_mem.1 h)

theorem isBlank_of_mem {name : List Char} {c : Char} (h : isName name = true) (hc : c ∈ name) :
    Text.isBlank c = false := by
  by_contra hblank
  rw [Bool.not_eq_false] at hblank
  exact notMem_of_isName (isNameChar_of_isBlank hblank) h hc

theorem trimmed_of_isName {name : List Char} (h : isName name = true) : Trimmed name :=
  Trimmed.of_forall fun _ hc => isBlank_of_mem h hc

/-- A text between double braces. -/
def braced (inner : List Char) : List Char := ['{', '{'] ++ (inner ++ ['}', '}'])

theorem trimmed_braced (inner : List Char) : Trimmed (braced inner) where
  front := by
    rintro c ⟨⟩
    decide
  back := by
    intro c hc
    rw [braced, List.getLast?_append, List.getLast?_append] at hc
    obtain rfl : '}' = c := Option.some.inj hc
    decide

theorem count_braced {c : Char} (hc : c = '{' ∨ c = '}') (inner : List Char) :
    (braced inner).count c = inner.count c + 2 := by
  rcases hc with rfl | rfl <;> simp [braced]

/-! ## References -/

/-- A text is a reference to a name. -/
def Refers (text n : String) : Prop :=
  ProperName n ∧ ∃ w₁ w₂ w₃ w₄ : String,
    Blank w₁.toList ∧ Blank w₂.toList ∧ Blank w₃.toList ∧ Blank w₄.toList ∧
      text = w₁ ++ inBraces (inBraces (w₂ ++ n ++ w₃)) ++ w₄

theorem toList_braced (a inner b : String) : (a ++ inBraces (inBraces inner) ++ b).toList =
    a.toList ++ braced inner.toList ++ b.toList := by
  simp [braced]

theorem toList_reference (w₁ w₂ n w₃ w₄ : String) :
    (w₁ ++ inBraces (inBraces (w₂ ++ n ++ w₃)) ++ w₄).toList =
      w₁.toList ++ braced (w₂.toList ++ n.toList ++ w₃.toList) ++ w₄.toList := by
  rw [toList_braced, String.toList_append, String.toList_append]

/-- A reference has its name inside the braces, with blanks around both. -/
theorem refers_iff {text n : String} : Refers text n ↔
    ProperName n ∧ ∃ inner, Padded text.toList (braced inner) ∧ Padded inner n.toList := by
  refine and_congr_right fun _ => ⟨?_, ?_⟩
  · rintro ⟨w₁, w₂, w₃, w₄, h₁, h₂, h₃, h₄, rfl⟩
    exact ⟨_, ⟨_, _, h₁, h₄, toList_reference w₁ w₂ n w₃ w₄⟩, _, _, h₂, h₃, rfl⟩
  · rintro ⟨_, ⟨w₁, w₄, h₁, h₄, htext⟩, w₂, w₃, h₂, h₃, rfl⟩
    have hlist (w : List Char) : (String.ofList w).toList = w := String.toList_ofList
    refine ⟨.ofList w₁, .ofList w₂, .ofList w₃, .ofList w₄, by rwa [hlist], by rwa [hlist],
      by rwa [hlist], by rwa [hlist], String.toList_injective ?_⟩
    rw [toList_reference, hlist, hlist, hlist, hlist, htext]

theorem parseReference_eq_some_iff {text n : String} :
    parseReference text = some n ↔ Refers text n := by
  rw [refers_iff]
  constructor
  · intro h
    obtain ⟨back, hfront, h⟩ := Option.bind_eq_some_iff.1 h
    obtain ⟨inner, hback, h⟩ := Option.bind_eq_some_iff.1 h
    have htext : Text.trimChars text.toList = braced inner := by
      rw [behind?_eq_some_iff.1 hfront, before?_eq_some_iff.1 hback, braced]
    dsimp only at h
    split at h
    · rename_i hname
      cases h
      rw [← isName_iff, String.toList_ofList]
      exact ⟨hname, inner, (Text.trimChars_eq_iff.1 htext).2, Text.padded_trimChars inner⟩
    · cases h
  · rintro ⟨hname, inner, htext, hinner⟩
    have hname := isName_iff.2 hname
    have htrim : Text.trimChars inner = n.toList :=
      Text.trimChars_eq_iff.2 ⟨trimmed_of_isName hname, hinner⟩
    unfold parseReference
    rw [Text.trimChars_eq_iff.2 ⟨trimmed_braced inner, htext⟩, braced,
      behind?_eq_some_iff.2 rfl, Option.bind_eq_bind, Option.bind_some, before?_eq_some_iff.2 rfl,
      Option.bind_some]
    dsimp only
    rw [htrim, if_pos hname, String.ofList_toList]

/-! ## Other texts -/

section

variable {text n : String} {c : Char}

theorem Refers.count_eq (h : Refers text n) (hc : c = '{' ∨ c = '}') :
    text.toList.count c = 2 := by
  obtain ⟨hname, inner, ⟨w₁, w₄, h₁, h₄, htext⟩, w₂, w₃, h₂, h₃, rfl⟩ := refers_iff.1 h
  have hblank : Text.isBlank c = false := by
    rcases hc with rfl | rfl <;> decide
  have hn : c ∉ n.toList := by
    apply notMem_of_isName _ (isName_iff.2 hname)
    rcases hc with rfl | rfl <;> decide +kernel
  simp only [htext, List.count_append, count_braced hc, List.count_eq_zero.2 hn,
    List.count_eq_zero.2 (h₁.notMem hblank), List.count_eq_zero.2 (h₂.notMem hblank),
    List.count_eq_zero.2 (h₃.notMem hblank), List.count_eq_zero.2 (h₄.notMem hblank)]

/-- A reference has characters that are no blanks and no braces, those of its name. -/
theorem Refers.exists_mem (h : Refers text n) :
    ∃ c ∈ text.toList, Text.isBlank c = false ∧ c ≠ '{' ∧ c ≠ '}' := by
  obtain ⟨hname, inner, ⟨w₁, w₄, -, -, htext⟩, w₂, w₃, -, -, rfl⟩ := refers_iff.1 h
  have hne : n.toList ≠ [] := fun hnil => hname.nonempty (String.toList_eq_nil_iff.1 hnil)
  obtain ⟨c, hc⟩ := List.exists_mem_of_ne_nil _ hne
  have hisName := isName_iff.2 hname
  refine ⟨c, by simp [htext, braced, hc], isBlank_of_mem hisName hc, ?_, ?_⟩
  · rintro rfl
    exact opening_notMem hisName hc
  · rintro rfl
    exact closing_notMem hisName hc

/-- The ways in which a text with braces fails to be a reference: some are missing or there are too
many, there are more of them inside, there are two references, or there is no name. -/
inductive Spoiled : String → Prop where
  | braces {text : String} {c : Char} (hc : c = '{' ∨ c = '}')
      (h : text.toList.count c ≠ 2) : Spoiled text
  | inner {c : Char} (a b : String) {inner : String} (hc : c = '{' ∨ c = '}')
      (h : c ∈ inner.toList) : Spoiled (a ++ inBraces (inBraces inner) ++ b)
  | two {s t m n : String} (between : String) (hs : Refers s m) (ht : Refers t n) :
      Spoiled (s ++ between ++ t)
  | nameless {w₁ w₂ w₃ : String} (h₁ : Blank w₁.toList) (h₂ : Blank w₂.toList)
      (h₃ : Blank w₃.toList) : Spoiled (w₁ ++ inBraces (inBraces w₂) ++ w₃)

theorem Spoiled.not_refers (h : Spoiled text) : ¬ Refers text n := by
  intro hrefers
  cases h with
  | braces hc h => exact h (hrefers.count_eq hc)
  | @inner c a b inner hc h =>
    have hcount := hrefers.count_eq hc
    have hinner : 0 < inner.toList.count c := List.count_pos_iff.2 h
    rw [toList_braced, List.count_append, List.count_append, count_braced hc] at hcount
    omega
  | two between hs ht =>
    have hcount := hrefers.count_eq (Or.inl rfl)
    rw [String.toList_append, String.toList_append, List.count_append, List.count_append,
      hs.count_eq (Or.inl rfl), ht.count_eq (Or.inl rfl)] at hcount
    omega
  | nameless h₁ h₂ h₃ =>
    obtain ⟨c, hc, hblank, hopening, hclosing⟩ := hrefers.exists_mem
    simp [h₁.notMem hblank, h₂.notMem hblank, h₃.notMem hblank, hopening,
      hclosing] at hc

end

/-! ## Exactness -/

/-- A wait is for the seconds that stand in its input just when its own are a reference. -/
theorem seconds_eq_fromInput_iff {i : Node.Init} {text n : String} :
    Node.Delay.seconds i (.string text) = .ok (.fromInput n) ↔ Refers text n := by
  rw [← parseReference_eq_some_iff]
  unfold Node.Delay.seconds
  dsimp only
  cases parseReference text with
  | some name => simp
  | none =>
    have hfixed (x : Float) : Node.Delay.seconds.checked i x ≠ .ok (.fromInput n) := by
      unfold Node.Delay.seconds.checked
      split
      · nofun
      · nofun
    refine iff_of_false ?_ nofun
    dsimp only
    split
    · exact hfixed _
    · nofun

/-- References are recognised exactly. A text refers to a name just when it is that name between
double braces, with blanks around the name and around the braces; so it refers to one name at most,
and no other text is taken for a reference. The seconds of a wait are looked up in the input just
when they are given by a reference. -/
theorem parseReference_exact (text : String) :
    (∀ n, parseReference text = some n ↔ ProperName n ∧ ∃ w₁ w₂ w₃ w₄ : String,
      Blank w₁.toList ∧ Blank w₂.toList ∧ Blank w₃.toList ∧ Blank w₄.toList ∧
        text = w₁ ++ inBraces (inBraces (w₂ ++ n ++ w₃)) ++ w₄) ∧
    (∀ m n, Refers text m → Refers text n → m = n) ∧
    (parseReference text = none ↔ ∀ n, ¬ Refers text n) ∧
    (Spoiled text → parseReference text = none) ∧
    ∀ i n, Node.Delay.seconds i (.string text) = .ok (.fromInput n) ↔ Refers text n := by
  have hnone : parseReference text = none ↔ ∀ n, ¬ Refers text n := by
    simp only [← parseReference_eq_some_iff, Option.eq_none_iff_forall_ne_some, ne_eq]
  refine ⟨fun n => parseReference_eq_some_iff, ?_, hnone, ?_, ?_⟩
  · intro m n hm hn
    rw [← parseReference_eq_some_iff] at hm hn
    exact Option.some.inj (hm.symm.trans hn)
  · intro h
    exact hnone.2 fun n => h.not_refers
  · intro i n
    exact seconds_eq_fromInput_iff

/-- A reference among blanks, and two references. -/
theorem parseReference_exact_wait :
    let text := "\u2003{{ wait.secs }}\n"
    let two := "{{a}} {{b}}"
    Refers text "wait.secs" ∧ parseReference text = some "wait.secs" ∧
      (∀ n, Refers text n → n = "wait.secs") ∧ Spoiled two ∧ parseReference two = none := by
  intro text two
  obtain ⟨hparse, hunique, -⟩ := parseReference_exact text
  obtain ⟨-, -, -, hspoiled, -⟩ := parseReference_exact two
  have hname : ProperName "wait.secs" := isName_iff.1 (by decide +kernel)
  have hrefers : Refers text "wait.secs" :=
    ⟨hname, "\u2003", " ", " ", "\n", by decide, by decide, by decide, by decide, by decide⟩
  have htwo : Spoiled two := .braces (Or.inl rfl) (by decide)
  exact ⟨hrefers, (hparse _).2 hrefers, fun n hn => hunique _ _ hn hrefers, htwo, hspoiled htwo⟩

example : ["{{}}", "{{{{a}}}}"].map parseReference = [none, none] := by
  decide +kernel

end Workflow.Template
