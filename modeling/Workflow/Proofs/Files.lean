import Mathlib.Data.List.Infix
import Mathlib.Data.List.Nodup
import Workflow.Storage.Tree

/-!
What the operations on trees of files change. Making the directories on the way to a place makes
what is on the way a directory, writing a file makes its place a file, and nothing else changes;
both work below a place just as they work on the tree that is there.
-/
namespace Workflow.Storage.Tree

/-! ## Entries -/

section Entries

variable {entries : List (String × Tree)} {name other : String} {t u : Tree}

theorem child?_setEntry_self (name : String) (t : Tree) (entries : List (String × Tree)) :
    child? (setEntry name t entries) name = some t := by
  induction entries with
  | nil => simp [child?, setEntry]
  | cons entry rest ih =>
    obtain ⟨n, v⟩ := entry
    rw [setEntry]
    split
    · rename_i heq
      simp [child?, heq]
    · rename_i hne
      rw [child?, List.find?_cons_of_neg (by simpa using hne)]
      exact ih

theorem child?_setEntry_of_ne (t : Tree) (entries : List (String × Tree)) (h : other ≠ name) :
    child? (setEntry name t entries) other = child? entries other := by
  induction entries with
  | nil => simp [child?, setEntry, Ne.symm h]
  | cons entry rest ih =>
    obtain ⟨n, v⟩ := entry
    rw [setEntry]
    split
    · rename_i heq
      subst heq
      simp [child?, Ne.symm h]
    · by_cases hother : n = other
      · simp [child?, hother]
      · rw [child?, List.find?_cons_of_neg (by simpa using hother), child?,
          List.find?_cons_of_neg (by simpa using hother)]
        exact ih

theorem mem_fst_setEntry : other ∈ (setEntry name t entries).map Prod.fst ↔
    other = name ∨ other ∈ entries.map Prod.fst := by
  induction entries with
  | nil => simp [setEntry]
  | cons entry rest ih =>
    obtain ⟨n, v⟩ := entry
    rw [setEntry]
    split
    · rename_i heq
      simp [heq]
    · rw [List.map_cons, List.mem_cons, ih, List.map_cons, List.mem_cons]
      exact or_left_comm

theorem nodup_setEntry (name : String) (t : Tree) (h : (entries.map Prod.fst).Nodup) :
    ((setEntry name t entries).map Prod.fst).Nodup := by
  induction entries with
  | nil => simp [setEntry]
  | cons entry rest ih =>
    obtain ⟨n, v⟩ := entry
    rw [setEntry]
    split
    · exact h
    · rename_i hne
      obtain ⟨hnew, hrest⟩ := List.nodup_cons.1 h
      refine List.nodup_cons.2 ⟨?_, ih hrest⟩
      rw [mem_fst_setEntry, not_or]
      exact ⟨hne, hnew⟩

/-- Where no name is used twice, every entry is found under its name. -/
theorem child?_eq_some_iff (h : (entries.map Prod.fst).Nodup) :
    child? entries name = some t ↔ (name, t) ∈ entries := by
  induction entries with
  | nil => simp [child?]
  | cons entry rest ih =>
    obtain ⟨n, v⟩ := entry
    obtain ⟨hnew, hrest⟩ := List.nodup_cons.1 h
    by_cases heq : n = name
    · subst heq
      have habsent : (n, t) ∉ rest := fun hmem => hnew (List.mem_map.2 ⟨_, hmem, rfl⟩)
      simp [child?, habsent, eq_comm]
    · rw [child?, List.find?_cons_of_neg (by simpa using heq), ← child?, ih hrest, List.mem_cons,
        Prod.mk.injEq]
      exact ⟨Or.inr, fun h => h.resolve_left fun hfirst => heq hfirst.1.symm⟩

end Entries

/-! ## Places -/

@[simp]
theorem look_nil (t : Tree) : t.look [] = .ok t := by
  cases t <;> rfl

theorem look_append_eq (t : Tree) (p q : Path) :
    t.look (p ++ q) = t.look p >>= fun u => u.look q := by
  induction p generalizing t with
  | nil => rw [List.nil_append, look_nil]; rfl
  | cons name p ih =>
    cases t with
    | file content => rfl
    | directory entries =>
      rw [List.cons_append, look, look]
      cases child? entries name with
      | none => rfl
      | some u => exact ih u

theorem look_append {t u : Tree} {base : Path} (h : t.look base = .ok u) (p : Path) :
    t.look (base ++ p) = u.look p := by
  rw [look_append_eq, h]
  rfl

/-- What has something behind a first step is a directory with an entry for that step. -/
theorem exists_child_of_look {t u : Tree} {name : String} {p : Path}
    (h : t.look (name :: p) = .ok u) :
    ∃ entries v, t = directory entries ∧ child? entries name = some v ∧ v.look p = .ok u := by
  cases t with
  | file content => cases h
  | directory entries =>
    rw [look] at h
    cases hchild : child? entries name with
    | none =>
      rw [hchild] at h
      cases h
    | some v =>
      rw [hchild] at h
      exact ⟨entries, v, rfl, hchild, h⟩

theorem look_setEntry (name : String) (u : Tree) (entries : List (String × Tree)) (other : String)
    (p : Path) : (directory (setEntry name u entries)).look (other :: p) =
      if other = name then u.look p else (directory entries).look (other :: p) := by
  rw [look]
  by_cases h : other = name
  · rw [h, child?_setEntry_self, if_pos rfl]
  · rw [child?_setEntry_of_ne _ _ h, if_neg h, look]

/-- What is at a place, whatever may be in a directory. -/
inductive Spot where
  | missing
  | file (content : Content)
  | directory

/-- What is at a place of a tree. -/
def spot (t : Tree) (p : Path) : Spot :=
  match t.look p with
  | .error _ => .missing
  | .ok (.file content) => .file content
  | .ok (.directory _) => .directory

theorem spot_append {t u : Tree} {base : Path} (h : t.look base = .ok u) (p : Path) :
    t.spot (base ++ p) = u.spot p := by
  rw [spot, spot, look_append h]

theorem spot_setEntry (name : String) (u : Tree) (entries : List (String × Tree)) (other : String)
    (p : Path) : (directory (setEntry name u entries)).spot (other :: p) =
      if other = name then u.spot p else (directory entries).spot (other :: p) := by
  rw [spot, look_setEntry]
  by_cases h : other = name
  · rw [if_pos h, if_pos h, spot]
  · rw [if_neg h, if_neg h, spot]

theorem spot_child {entries : List (String × Tree)} {name : String} {u : Tree}
    (h : child? entries name = some u) (p : Path) :
    (directory entries).spot (name :: p) = u.spot p := by
  rw [spot, look, h]
  rfl

theorem spot_of_child?_eq_none {entries : List (String × Tree)} {name : String}
    (h : child? entries name = none) (p : Path) :
    (directory entries).spot (name :: p) = .missing := by
  rw [spot, look, h]

@[simp]
theorem spot_directory_nil (entries : List (String × Tree)) :
    (directory entries).spot [] = .directory := rfl

/-- What is behind an entry that an operation goes into; where there is none, directories are
made in an empty one. -/
theorem spot_getD_child? (entries : List (String × Tree)) (name : String) (p : Path) :
    ((child? entries name).getD (directory [])).spot p =
      if p = [] ∧ child? entries name = none then .directory
      else (directory entries).spot (name :: p) := by
  cases h : child? entries name with
  | some u =>
    rw [spot_child h]
    simp
  | none =>
    rw [spot_of_child?_eq_none h]
    cases p with
    | nil => simp
    | cons other p => rfl

/-! ## Making directories -/

theorem isName_iff {name : String} :
    isName name = true ↔ name.utf8ByteSize ≤ 255 ∧ '\x00' ∉ name.toList := by
  rw [isName, Bool.and_eq_true, decide_eq_true_iff, decide_eq_true_iff]

theorem makeDirectories_cons (name : String) (p : Path) (entries : List (String × Tree)) :
    (directory entries).makeDirectories (name :: p) =
      if isName name then
        (((child? entries name).getD (directory [])).makeDirectories p).map fun u =>
          directory (setEntry name u entries)
      else none := by
  rw [makeDirectories]
  cases isName name with
  | false => rfl
  | true =>
    cases ((child? entries name).getD (directory [])).makeDirectories p with
    | none => rfl
    | some u => rfl

/-- Directories are made in a directory, in the entry of the first name. -/
theorem eq_of_makeDirectories_cons {name : String} {p : Path} {t t' : Tree}
    (h : t.makeDirectories (name :: p) = some t') :
    ∃ entries u, t = directory entries ∧
      ((child? entries name).getD (directory [])).makeDirectories p = some u ∧
      t' = directory (setEntry name u entries) := by
  cases t with
  | file content => cases h
  | directory entries =>
    rw [makeDirectories_cons] at h
    split at h
    · obtain ⟨u, hmade, rfl⟩ := Option.map_eq_some_iff.1 h
      exact ⟨entries, u, rfl, hmade, rfl⟩
    · cases h

/-- Whatever is on the way is a directory then, and nothing else changes. -/
theorem spot_makeDirectories {p : Path} {t t' : Tree} (h : t.makeDirectories p = some t')
    (q : Path) : t'.spot q = if q <+: p then .directory else t.spot q := by
  induction p generalizing t t' q with
  | nil =>
    cases t with
    | file content => cases h
    | directory entries =>
      cases h
      by_cases hq : q = []
      · simp [hq]
      · rw [if_neg (by simpa using hq)]
  | cons name p ih =>
    obtain ⟨entries, u, rfl, hmade, rfl⟩ := eq_of_makeDirectories_cons h
    cases q with
    | nil => simp
    | cons other q =>
      rw [spot_setEntry]
      by_cases hother : other = name
      · subst hother
        rw [if_pos rfl, ih hmade, spot_getD_child?]
        by_cases hq : q <+: p
        · simp [List.cons_prefix_cons, hq]
        · have hne : q ≠ [] := by
            rintro rfl
            exact hq List.nil_prefix
          simp [List.cons_prefix_cons, hq, hne]
      · simp [List.cons_prefix_cons, hother]

/-- Directories are only made where no file is on the way. -/
theorem spot_ne_file_of_makeDirectories {p : Path} {t t' : Tree}
    (h : t.makeDirectories p = some t') {q : Path} (hq : q <+: p) (content : Content) :
    t.spot q ≠ .file content := by
  induction p generalizing t t' q with
  | nil =>
    obtain rfl := List.prefix_nil.1 hq
    cases t with
    | file content => cases h
    | directory entries => nofun
  | cons name p ih =>
    obtain ⟨entries, u, rfl, hmade, rfl⟩ := eq_of_makeDirectories_cons h
    cases q with
    | nil => nofun
    | cons other q =>
      obtain ⟨rfl, hrest⟩ := List.cons_prefix_cons.1 hq
      intro hspot
      refine ih hmade hrest ?_
      rw [spot_getD_child?, if_neg, hspot]
      rintro ⟨-, hnone⟩
      rw [spot_of_child?_eq_none hnone] at hspot
      cases hspot

/-- Directories can be made where no file is on the way, under names that there can be. -/
theorem exists_makeDirectories {p : Path} {t : Tree} (hnames : ∀ name ∈ p, isName name = true)
    (h : ∀ q, q <+: p → ∀ content, t.spot q ≠ .file content) :
    ∃ t', t.makeDirectories p = some t' := by
  induction p generalizing t with
  | nil =>
    cases t with
    | file content => exact absurd rfl (h [] List.nil_prefix content)
    | directory entries => exact ⟨_, rfl⟩
  | cons name p ih =>
    cases t with
    | file content => exact absurd rfl (h [] List.nil_prefix content)
    | directory entries =>
      obtain ⟨hname, hnames⟩ := List.forall_mem_cons.1 hnames
      obtain ⟨u, hmade⟩ := ih (t := (child? entries name).getD (directory [])) hnames (by
        intro q hq content
        rw [spot_getD_child?]
        split
        · nofun
        · exact h (name :: q) (List.cons_prefix_cons.2 ⟨rfl, hq⟩) content)
      rw [makeDirectories_cons, if_pos hname, hmade]
      exact ⟨_, rfl⟩

/-! ## Writing files -/

theorem write_singleton (content : Content) (name : String) (entries : List (String × Tree)) :
    (directory entries).write content [name] =
      if ((child? entries name).any isDirectory) || !isName name then none
      else some (directory (setEntry name (.file content) entries)) := rfl

theorem write_cons (content : Content) (name other : String) (p : Path)
    (entries : List (String × Tree)) :
    (directory entries).write content (name :: other :: p) =
      ((child? entries name).bind (write content (other :: p))).map fun u =>
        directory (setEntry name u entries) := by
  simp only [write, Option.bind_eq_bind, Option.pure_def]
  cases child? entries name with
  | none => rfl
  | some u =>
    rw [Option.bind_some, Option.bind_some]
    cases u.write content (other :: p) with
    | none => rfl
    | some u' => rfl

/-- A file is written in a directory: as the entry of the only name, where no directory is, or in
the entry of the first name. -/
theorem write_cons_cases {content : Content} {name : String} {p : Path} {t t' : Tree}
    (h : t.write content (name :: p) = some t') : ∃ entries, t = directory entries ∧
      ((p = [] ∧ (child? entries name).any isDirectory = false ∧
          t' = directory (setEntry name (.file content) entries)) ∨
        ∃ u u', child? entries name = some u ∧ u.write content p = some u' ∧
          t' = directory (setEntry name u' entries)) := by
  cases t with
  | file content => cases p <;> cases h
  | directory entries =>
    refine ⟨entries, rfl, ?_⟩
    cases p with
    | nil =>
      rw [write_singleton] at h
      split at h
      · cases h
      · rename_i hfree
        cases h
        rw [Bool.not_eq_true, Bool.or_eq_false_iff] at hfree
        exact Or.inl ⟨rfl, hfree.1, rfl⟩
    | cons second p =>
      rw [write_cons, Option.map_eq_some_iff] at h
      obtain ⟨u', hwrite, rfl⟩ := h
      obtain ⟨u, hu, hwritten⟩ := Option.bind_eq_some_iff.1 hwrite
      exact Or.inr ⟨u, u', hu, hwritten, rfl⟩

/-- Behind a name that is free for a file there is nothing. -/
theorem spot_of_free {entries : List (String × Tree)} {name : String}
    (h : (child? entries name).any isDirectory = false) (second : String) (p : Path) :
    (directory entries).spot (name :: second :: p) = .missing := by
  cases hu : child? entries name with
  | none => exact spot_of_child?_eq_none hu _
  | some u =>
    rw [spot_child hu]
    cases u with
    | file content => rfl
    | directory inner => simp [hu, isDirectory] at h

/-- A file that is written is where it should be, and nothing else changes. -/
theorem spot_write {content : Content} {p : Path} {t t' : Tree} (h : t.write content p = some t')
    (q : Path) : t'.spot q = if q = p then .file content else t.spot q := by
  induction p generalizing t t' q with
  | nil => cases h
  | cons name p ih =>
    obtain ⟨entries, rfl, ⟨rfl, hfree, rfl⟩ | ⟨u, u', hu, hwritten, rfl⟩⟩ := write_cons_cases h
    · cases q with
      | nil => rfl
      | cons other q =>
        rw [spot_setEntry]
        by_cases hother : other = name
        · subst hother
          rw [if_pos rfl]
          cases q with
          | nil => simp [spot]
          | cons second q =>
            rw [if_neg (by simp), spot_of_free hfree]
            rfl
        · simp [hother]
    · cases q with
      | nil => rfl
      | cons other q =>
        rw [spot_setEntry]
        by_cases hother : other = name
        · subst hother
          rw [if_pos rfl, ih hwritten, spot_child hu]
          simp
        · simp [hother]

/-- A file can be written to a directory that is there, unless there is a directory in its place. -/
theorem exists_write (content : Content) {p : Path} {name : String} {t : Tree}
    (hp : t.spot p = .directory) (hname : isName name = true)
    (h : t.spot (p ++ [name]) ≠ .directory) : ∃ t', t.write content (p ++ [name]) = some t' := by
  induction p generalizing t with
  | nil =>
    cases t with
    | file content => cases hp
    | directory entries =>
      have hfree : (child? entries name).any isDirectory = false := by
        cases hu : child? entries name with
        | none => rfl
        | some u =>
          rw [List.nil_append, spot_child hu] at h
          cases u with
          | file content => rfl
          | directory entries => exact absurd rfl h
      rw [List.nil_append, write_singleton, hfree, hname]
      exact ⟨_, rfl⟩
  | cons first p ih =>
    cases t with
    | file content => cases hp
    | directory entries =>
      cases hu : child? entries first with
      | none =>
        rw [spot_of_child?_eq_none hu] at hp
        cases hp
      | some u =>
        rw [spot_child hu] at hp
        rw [List.cons_append, spot_child hu] at h
        obtain ⟨u', hwrite⟩ := ih hp h
        obtain ⟨second, rest, hrest⟩ : ∃ second rest, p ++ [name] = second :: rest :=
          List.exists_cons_of_ne_nil (List.concat_ne_nil name p)
        rw [hrest] at hwrite
        rw [List.cons_append, hrest, write_cons, hu, Option.bind_some, hwrite]
        exact ⟨_, rfl⟩

/-- There is no file under a name that is too long. -/
theorem write_eq_none (content : Content) {name : String} (hname : isName name = false) (p : Path)
    (t : Tree) : t.write content (p ++ [name]) = none := by
  induction p generalizing t with
  | nil =>
    cases t with
    | file content => rfl
    | directory entries =>
      rw [List.nil_append, write_singleton, hname, Bool.not_false, Bool.or_true, if_pos rfl]
  | cons first p ih =>
    obtain ⟨second, rest, hrest⟩ : ∃ second rest, p ++ [name] = second :: rest :=
      List.exists_cons_of_ne_nil (List.concat_ne_nil name p)
    rw [hrest] at ih
    cases t with
    | file content =>
      rw [List.cons_append, hrest]
      rfl
    | directory entries =>
      rw [List.cons_append, hrest, write_cons]
      cases child? entries first with
      | none => rfl
      | some u => rw [Option.bind_some, ih, Option.map_none]

/-! ## Below a place -/

section Below

variable {base p : Path} {t u u' : Tree}

theorem exists_makeDirectories_append (h : t.look base = .ok u)
    (hnames : ∀ name ∈ base, isName name = true) (hmade : u.makeDirectories p = some u') :
    ∃ t', t.makeDirectories (base ++ p) = some t' ∧ t'.look base = .ok u' := by
  induction base generalizing t with
  | nil =>
    rw [look_nil] at h
    cases h
    exact ⟨u', hmade, look_nil u'⟩
  | cons name base ih =>
    obtain ⟨entries, v, rfl, hchild, h⟩ := exists_child_of_look h
    obtain ⟨hname, hnames⟩ := List.forall_mem_cons.1 hnames
    obtain ⟨v', hv', hlook⟩ := ih h hnames
    refine ⟨directory (setEntry name v' entries), ?_, ?_⟩
    · rw [List.cons_append, makeDirectories_cons, if_pos hname, hchild, Option.getD_some, hv',
        Option.map_some]
    · rw [look_setEntry, if_pos rfl, hlook]

theorem exists_write_append {content : Content} (h : t.look base = .ok u)
    (hwrite : u.write content p = some u') :
    ∃ t', t.write content (base ++ p) = some t' ∧ t'.look base = .ok u' := by
  induction base generalizing t with
  | nil =>
    rw [look_nil] at h
    cases h
    exact ⟨u', hwrite, look_nil u'⟩
  | cons name base ih =>
    obtain ⟨entries, v, rfl, hchild, h⟩ := exists_child_of_look h
    obtain ⟨v', hv', hlook⟩ := ih h
    refine ⟨directory (setEntry name v' entries), ?_, ?_⟩
    · obtain ⟨second, rest, hrest⟩ : ∃ second rest, base ++ p = second :: rest := by
        refine List.exists_cons_of_ne_nil fun hnil => ?_
        rw [hnil] at hv'
        cases hv'
      rw [hrest] at hv'
      rw [List.cons_append, hrest, write_cons, hchild, Option.bind_some, hv', Option.map_some]
    · rw [look_setEntry, if_pos rfl, hlook]

end Below

/-! ## Distinct names -/

/-- No directory of the tree has two entries of one name. -/
def Tidy (t : Tree) : Prop :=
  ∀ p entries, t.look p = .ok (.directory entries) → (entries.map Prod.fst).Nodup

section Tidy

variable {entries : List (String × Tree)} {name : String} {p : Path} {t t' u : Tree}

theorem tidy_file (content : Content) : (file content).Tidy := by
  intro p entries h
  cases p <;> cases h

theorem tidy_empty : (directory []).Tidy := by
  intro p entries h
  cases p with
  | nil =>
    cases h
    exact List.nodup_nil
  | cons name p => cases h

theorem Tidy.nodup (h : (directory entries).Tidy) : (entries.map Prod.fst).Nodup :=
  h [] entries rfl

theorem Tidy.child (h : (directory entries).Tidy) (hu : child? entries name = some u) :
    u.Tidy := by
  intro p inner hlook
  refine h (name :: p) inner ?_
  rw [look, hu]
  exact hlook

theorem Tidy.of_look {base : Path} (h : t.Tidy) (hlook : t.look base = .ok u) : u.Tidy := by
  intro p inner hinner
  exact h (base ++ p) inner ((look_append hlook p).trans hinner)

theorem Tidy.setEntry (h : (directory entries).Tidy) (name : String) (hu : u.Tidy) :
    (directory (Tree.setEntry name u entries)).Tidy := by
  intro p inner hlook
  cases p with
  | nil =>
    cases hlook
    exact nodup_setEntry name u h.nodup
  | cons other p =>
    rw [look_setEntry] at hlook
    split at hlook
    · exact hu p inner hlook
    · exact h (other :: p) inner hlook

theorem Tidy.makeDirectories (h : t.Tidy) (hmade : t.makeDirectories p = some t') : t'.Tidy := by
  induction p generalizing t t' with
  | nil =>
    cases t with
    | file content => cases hmade
    | directory entries =>
      cases hmade
      exact h
  | cons name p ih =>
    obtain ⟨entries, u, rfl, hinner, rfl⟩ := eq_of_makeDirectories_cons hmade
    refine h.setEntry name (ih ?_ hinner)
    cases hchild : child? entries name with
    | none => exact tidy_empty
    | some v => exact h.child hchild

theorem Tidy.write {content : Content} (h : t.Tidy) (hwrite : t.write content p = some t') :
    t'.Tidy := by
  induction p generalizing t t' with
  | nil => cases hwrite
  | cons name p ih =>
    obtain ⟨entries, rfl, ⟨rfl, -, rfl⟩ | ⟨u, u', hu, hwritten, rfl⟩⟩ := write_cons_cases hwrite
    · exact h.setEntry name (tidy_file content)
    · exact h.setEntry name (ih (h.child hu) hwritten)

end Tidy

end Workflow.Storage.Tree
