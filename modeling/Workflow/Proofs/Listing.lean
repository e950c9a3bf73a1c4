import Workflow.Proofs.Entries
import Workflow.Proofs.NameSets
import Workflow.Storage.Definitions

/-!
The definitions in a directory: which ids are listed, and which can be loaded. An id is listed if
there is an entry with the id as its name and one of the two endings. It can be loaded if it is a
single name besides, so the two agree but for ids that are dots or have a backslash.
-/
namespace Workflow.Storage

/-! ## Endings -/

/-- A name is cut at its last point, unless this is at the front. -/
theorem splitEnding_append (stem : String) {ending : String} (h : '.' ∉ ending.toList) :
    splitEnding (stem ++ "." ++ ending) =
      if stem ++ "." ++ ending = ".." ∨ stem = "" then (stem ++ "." ++ ending, none)
      else (stem, some ending) := by
  have hname : (stem ++ "." ++ ending).toList = stem.toList ++ '.' :: ending.toList := by simp
  have hending : ((stem ++ "." ++ ending).toList.reverse.takeWhile (· ≠ '.')).reverse =
      ending.toList := by
    rw [hname, List.reverse_append, List.reverse_cons, List.append_assoc,
      List.takeWhile_append_of_pos]
    · simp
    · intro c hc
      exact decide_eq_true fun hdot => h (hdot ▸ List.mem_reverse.1 hc)
  have hstem : (stem ++ "." ++ ending).toList.take
      ((stem ++ "." ++ ending).toList.length - ending.toList.length - 1) = stem.toList := by
    rw [hname]
    refine List.take_left' ?_
    rw [List.length_append, List.length_cons]
    omega
  have hdot : '.' ∈ (stem ++ "." ++ ending).toList := by simp
  unfold splitEnding
  simp only [hending, hstem, hdot, not_true_eq_false, decide_false, Bool.or_false, Bool.or_eq_true,
    decide_eq_true_eq, List.isEmpty_iff, String.toList_eq_nil_iff, String.ofList_toList]

theorem splitEnding_eq_some_iff {name stem ending : String} :
    splitEnding name = (stem, some ending) ↔
      name ≠ ".." ∧ stem ≠ "" ∧ '.' ∉ ending.toList ∧ name = stem ++ "." ++ ending := by
  constructor
  · intro h
    by_cases hdot : '.' ∈ name.toList
    · obtain ⟨back, front, hname, hback⟩ :=
        List.eq_append_cons_of_mem (List.mem_reverse.2 hdot)
      have hcut : name = String.ofList front.reverse ++ "." ++ String.ofList back.reverse := by
        rw [← String.toList_inj, ← List.reverse_reverse name.toList, hname]
        simp
      have hpoint : '.' ∉ (String.ofList back.reverse).toList := by simpa using hback
      rw [hcut, splitEnding_append _ hpoint] at h
      split at h
      · cases h
      · rename_i hfront
        cases h
        rw [not_or] at hfront
        exact ⟨hcut ▸ hfront.1, hfront.2, hpoint, hcut⟩
    · unfold splitEnding at h
      simp [hdot] at h
  · rintro ⟨hdots, hstem, hending, rfl⟩
    rw [splitEnding_append _ hending, if_neg (not_or.2 ⟨hdots, hstem⟩)]

/-- A name has an id if it is the id with one of the two endings. -/
theorem idOf?_eq_some_iff {name id : String} :
    idOf? name = some id ↔ id ≠ "" ∧ (name = id ++ ".json" ∨ name = id ++ ".toml") := by
  have hsplit (ending : String) (hpoint : '.' ∉ ending.toList) (hlength : 2 ≤ ending.length) :
      splitEnding name = (id, some ending) ↔ id ≠ "" ∧ name = id ++ "." ++ ending := by
    rw [splitEnding_eq_some_iff, and_iff_right hpoint, and_iff_right_of_imp]
    rintro ⟨-, rfl⟩ hdots
    have hsame := congrArg String.length hdots
    simp only [String.length_append] at hsame
    have htwo : ".".length + 2 ≤ "..".length := by omega
    exact absurd htwo (by decide)
  have hjson := hsplit "json" (by decide) (by decide)
  have htoml := hsplit "toml" (by decide) (by decide)
  rw [String.append_assoc] at hjson htoml
  change _ ↔ id ≠ "" ∧ name = id ++ ".json" at hjson
  change _ ↔ id ≠ "" ∧ name = id ++ ".toml" at htoml
  rw [and_or_left, ← hjson, ← htoml]
  unfold idOf?
  split
  · rename_i stem h
    simp [h]
  · rename_i stem h
    simp [h]
  · rename_i h h'
    refine iff_of_false nofun ?_
    rintro (hsame | hsame)
    · exact h _ hsame
    · exact h' _ hsame

/-! ## Ids -/

/-- An id that is a single name: it leads nowhere else, and has no separator of any kind. -/
structure IsSingle (id : String) : Prop where
  not_empty : id ≠ ""
  not_dots : id ∉ [".", ".."]
  no_slash : '/' ∉ id.toList
  no_backslash : '\\' ∉ id.toList

theorem isName_iff {id : String} : isName id = true ↔ IsSingle id := by
  unfold isName
  simp only [Bool.and_eq_true, decide_eq_true_eq, List.mem_cons (a := id) (b := ""), not_or]
  constructor
  · rintro ⟨⟨⟨hempty, hdots⟩, hslash⟩, hbackslash⟩
    exact ⟨hempty, hdots, hslash, hbackslash⟩
  · rintro ⟨hempty, hdots, hslash, hbackslash⟩
    exact ⟨⟨⟨hempty, hdots⟩, hslash⟩, hbackslash⟩

theorem isEntry_append {id ending : String} (hid : '/' ∉ id.toList) (hending : '/' ∉ ending.toList)
    (hlength : 2 < ending.length) : IsEntry (id ++ ending) where
  not_empty h := by
    have hsame := congrArg String.length h
    rw [String.length_append] at hsame
    change _ = 0 at hsame
    omega
  not_dots h := by
    have hshort : (id ++ ending).length ≤ 2 := by
      simp only [List.mem_cons, List.not_mem_nil, or_false] at h
      rcases h with h | h <;> rw [h] <;> decide
    rw [String.length_append] at hshort
    omega
  no_slash h := by
    rw [String.toList_append, List.mem_append] at h
    exact h.elim hid hending

theorem isEntry_json {id : String} (h : '/' ∉ id.toList) : IsEntry (id ++ ".json") :=
  isEntry_append h (by decide) (by decide)

theorem isEntry_toml {id : String} (h : '/' ∉ id.toList) : IsEntry (id ++ ".toml") :=
  isEntry_append h (by decide) (by decide)

/-- The entries of the directory at a path that is not empty; one that is not there has none. -/
structure Holds (t : Tree) (base : String) (entries : List (String × Tree)) : Prop where
  not_empty : base ≠ ""
  found : t.find base = .ok (.directory entries) ∨ (t.find base = .error .notFound ∧ entries = [])

section

variable {t : Tree} {base : String} {entries : List (String × Tree)} (h : Holds t base entries)

include h

theorem find_join_iff {name : String} (hname : IsEntry name) {u : Tree} :
    t.find (join base name) = .ok u ↔ Tree.child? entries name = some u := by
  rw [Tree.find_join t base hname]
  rcases h.found with hbase | ⟨hbase, rfl⟩
  · rw [hbase]
    change (Tree.directory entries).look [name] = .ok u ↔ _
    rw [Tree.look]
    cases Tree.child? entries name <;> simp
  · rw [hbase]
    simp [Tree.child?, bind, Except.bind]

theorem contains_join_iff {name : String} (hname : IsEntry name) :
    t.contains (join base name) = true ↔ name ∈ entries.map Prod.fst := by
  rw [← Tree.exists_child?_iff]
  simp only [← find_join_iff h hname]
  unfold Tree.contains
  cases t.find (join base name) with
  | error reason => exact iff_of_false nofun nofun
  | ok u => exact iff_of_true rfl ⟨u, rfl⟩

theorem list_eq : list t base = .ok (Text.nameSet (entries.filterMap fun e => idOf? e.1)) := by
  unfold list
  rw [if_neg (by simpa using h.not_empty)]
  rcases h.found with hbase | ⟨hbase, rfl⟩
  · rw [hbase]
  · rw [hbase]
    rfl

end

theorem mem_ids_iff {entries : List (String × Tree)} {id : String} :
    id ∈ Text.nameSet (entries.filterMap fun e => idOf? e.1) ↔
      id ≠ "" ∧ (id ++ ".json" ∈ entries.map Prod.fst ∨ id ++ ".toml" ∈ entries.map Prod.fst) := by
  simp only [Text.mem_nameSet, List.mem_filterMap, idOf?_eq_some_iff, List.mem_map]
  constructor
  · rintro ⟨e, he, hid, hname | hname⟩
    · exact ⟨hid, Or.inl ⟨e, he, hname⟩⟩
    · exact ⟨hid, Or.inr ⟨e, he, hname⟩⟩
  · rintro ⟨hid, ⟨e, he, hname⟩ | ⟨e, he, hname⟩⟩
    · exact ⟨e, he, hid, Or.inl hname⟩
    · exact ⟨e, he, hid, Or.inr hname⟩

theorem load_of_not_isSingle (t : Tree) (base : String) {id : String} (hid : ¬ IsSingle id) :
    load t base id = .error (.invalidId id) := by
  unfold load candidates
  rw [if_neg (by rwa [isName_iff])]
  rfl

/-- The first of the two files is loaded that there is. -/
theorem load_of_isSingle (t : Tree) (base : String) {id : String} (hid : IsSingle id) :
    load t base id =
      if t.contains (join base (id ++ ".json")) then loadFile t (join base (id ++ ".json"))
      else if t.contains (join base (id ++ ".toml")) then loadFile t (join base (id ++ ".toml"))
      else .error (.notFound id base) := by
  have hcandidates : candidates base id =
      .ok [join base (id ++ ".json"), join base (id ++ ".toml")] := if_pos (isName_iff.2 hid)
  rw [load, hcandidates]
  simp only [bind, Except.bind]
  rw [List.find?_cons, List.find?_cons, List.find?_nil]
  cases t.contains (join base (id ++ ".json")) with
  | true => rfl
  | false =>
    cases t.contains (join base (id ++ ".toml")) with
    | true => rfl
    | false => rfl

/-- A file is chosen, whatever comes of reading it. -/
def Selects (answer : Except LoadFailure Definition) : Prop :=
  ∀ id base, answer ≠ .error (.invalidId id) ∧ answer ≠ .error (.notFound id base)

theorem selects_loadFile (t : Tree) (path : String) : Selects (loadFile t path) := by
  intro id base
  unfold loadFile
  cases t.readText? path with
  | none => exact ⟨nofun, nofun⟩
  | some text =>
    dsimp only
    split
    · cases Toml.decode? Definition.decoder text with
      | none => exact ⟨nofun, nofun⟩
      | some d => exact ⟨nofun, nofun⟩
    · cases Json.decodeText Definition.decoder text with
      | error cause => exact ⟨nofun, nofun⟩
      | ok d => exact ⟨nofun, nofun⟩

/-! ## Listing and loading -/

section

variable {t : Tree} {base : String} {entries : List (String × Tree)} (h : Holds t base entries)
  {id : String}

include h

/-- The entry that is loaded for an id. -/
theorem load_eq (hid : IsSingle id) :
    load t base id =
      if id ++ ".json" ∈ entries.map Prod.fst then loadFile t (join base (id ++ ".json"))
      else if id ++ ".toml" ∈ entries.map Prod.fst then loadFile t (join base (id ++ ".toml"))
      else .error (.notFound id base) := by
  rw [load_of_isSingle t base hid]
  simp only [contains_join_iff h (isEntry_json hid.no_slash),
    contains_join_iff h (isEntry_toml hid.no_slash)]

theorem selects_load_iff : Selects (load t base id) ↔ IsSingle id ∧
    (id ++ ".json" ∈ entries.map Prod.fst ∨ id ++ ".toml" ∈ entries.map Prod.fst) := by
  by_cases hid : IsSingle id
  · rw [load_eq h hid, and_iff_right hid]
    split_ifs with hjson htoml
    · exact iff_of_true (selects_loadFile t _) (Or.inl hjson)
    · exact iff_of_true (selects_loadFile t _) (Or.inr htoml)
    · exact iff_of_false (fun hselects => (hselects id base).2 rfl) (not_or.2 ⟨hjson, htoml⟩)
  · rw [load_of_not_isSingle t base hid]
    exact iff_of_false (fun hselects => (hselects id base).1 rfl) fun hand => hid hand.1

end

/-- Ids of entries have no slash. -/
theorem no_slash_of_mem {entries : List (String × Tree)} {id : String}
    (hnames : ∀ e ∈ entries, '/' ∉ e.1.toList)
    (hid : id ++ ".json" ∈ entries.map Prod.fst ∨ id ++ ".toml" ∈ entries.map Prod.fst) :
    '/' ∉ id.toList := by
  have hfront {ending : String} (hmem : id ++ ending ∈ entries.map Prod.fst) :
      '/' ∉ id.toList := by
    obtain ⟨e, he, hname⟩ := List.mem_map.1 hmem
    have hslash := hnames e he
    rw [hname, String.toList_append, List.mem_append, not_or] at hslash
    exact hslash.1
  exact hid.elim hfront hfront

/-- Listing and loading agree on the definitions in a directory. The ids that are listed are in
strictly increasing order. An id is listed just if an entry is chosen for it: the one with the
ending of JSON if there is one, and otherwise that with the ending of TOML. Only ids that are dots
or have a backslash are never loaded, but listed like the others. -/
theorem list_agrees {t : Tree} {base : String} {entries : List (String × Tree)}
    (h : Holds t base entries) (hnames : ∀ e ∈ entries, '/' ∉ e.1.toList) :
    ∃ ids, list t base = .ok ids ∧ ids.Pairwise (· < ·) ∧ ∀ id,
      (id ∉ [".", ".."] → '\\' ∉ id.toList → (id ∈ ids ↔ Selects (load t base id))) ∧
      (Selects (load t base id) → IsSingle id ∧ ∃ name u,
        name = (if id ++ ".json" ∈ entries.map Prod.fst then id ++ ".json" else id ++ ".toml") ∧
        Tree.child? entries name = some u ∧ t.find (join base name) = .ok u ∧
        load t base id = loadFile t (join base name)) ∧
      (id ∈ [".", ".."] ∨ '\\' ∈ id.toList → load t base id = .error (.invalidId id) ∧
        (id ∈ ids ↔ id ++ ".json" ∈ entries.map Prod.fst ∨
          id ++ ".toml" ∈ entries.map Prod.fst)) := by
  refine ⟨_, list_eq h, Text.pairwise_nameSet _, ?_⟩
  intro id
  refine ⟨?_, ?_, ?_⟩
  · intro hdots hbackslash
    rw [mem_ids_iff, selects_load_iff h]
    refine and_congr_left fun hfile => ?_
    constructor
    · intro hempty
      exact ⟨hempty, hdots, no_slash_of_mem hnames hfile, hbackslash⟩
    · exact IsSingle.not_empty
  · intro hselects
    obtain ⟨hid, hfile⟩ := (selects_load_iff h).1 hselects
    refine ⟨hid, ?_⟩
    have hchosen {name : String} (hname : IsEntry name) (hmem : name ∈ entries.map Prod.fst) :
        ∃ u, Tree.child? entries name = some u ∧ t.find (join base name) = .ok u := by
      obtain ⟨u, hu⟩ := Tree.exists_child?_iff.2 hmem
      exact ⟨u, hu, (find_join_iff h hname).2 hu⟩
    rw [load_eq h hid]
    by_cases hjson : id ++ ".json" ∈ entries.map Prod.fst
    · obtain ⟨u, hu, hfind⟩ := hchosen (isEntry_json hid.no_slash) hjson
      rw [if_pos hjson, if_pos hjson]
      exact ⟨_, u, rfl, hu, hfind, rfl⟩
    · have htoml := hfile.resolve_left hjson
      obtain ⟨u, hu, hfind⟩ := hchosen (isEntry_toml hid.no_slash) htoml
      rw [if_neg hjson, if_neg hjson, if_pos htoml]
      exact ⟨_, u, rfl, hu, hfind, rfl⟩
  · intro hid
    have hsingle : ¬ IsSingle id := by
      intro hsingle
      exact hid.elim hsingle.not_dots hsingle.no_backslash
    refine ⟨load_of_not_isSingle t base hsingle, ?_⟩
    rw [mem_ids_iff, and_iff_right]
    rintro rfl
    rcases hid with hid | hid
    · revert hid
      decide
    · cases hid

/-- Files and a directory on a shelf of definitions. -/
def shelved : List (String × Tree) :=
  [("x.y.toml", .file (.text "")), ("both.toml", .file (.text "")), ("both.json", .directory []),
    (".json", .file (.text "")), ("notes.txt", .file (.text "")), ("a\\b.json", .file (.text ""))]

def shelf : Tree := .directory [("flows", .directory shelved)]

theorem list_agrees_shelf :
    Holds shelf "flows/" shelved ∧ (∀ e ∈ shelved, '/' ∉ e.1.toList) ∧
      list shelf "flows/" = .ok ["a\\b", "both", "x.y"] ∧
      load shelf "flows/" "both" = loadFile shelf "flows/both.json" ∧
      load shelf "flows/" "x.y" = loadFile shelf "flows/x.y.toml" ∧
      load shelf "flows/" "a\\b" = .error (.invalidId "a\\b") := by
  have hholds : Holds shelf "flows/" shelved := ⟨by decide, Or.inl rfl⟩
  have hnames : ∀ e ∈ shelved, '/' ∉ e.1.toList := by
    simp only [shelved, List.forall_mem_cons]
    decide
  obtain ⟨ids, hlist, -, hids⟩ := list_agrees hholds hnames
  have hlisted : list shelf "flows/" = .ok ["a\\b", "both", "x.y"] := by rfl
  rw [hlisted] at hlist
  cases hlist
  have hchosen (id : String) (hmem : id ∈ ["both", "x.y"]) :
      load shelf "flows/" id = loadFile shelf (join "flows/" (if id ++ ".json" ∈
        shelved.map Prod.fst then id ++ ".json" else id ++ ".toml")) := by
    have hplain : ∀ id ∈ ["both", "x.y"], id ∉ [".", ".."] ∧ '\\' ∉ id.toList ∧
        id ∈ ["a\\b", "both", "x.y"] := by decide
    obtain ⟨hdots, hbackslash, hid⟩ := hplain id hmem
    obtain ⟨-, name, u, rfl, -, -, hload⟩ := (hids id).2.1 (((hids id).1 hdots hbackslash).1 hid)
    exact hload
  refine ⟨hholds, hnames, hlisted, ?_, ?_, ?_⟩
  · exact (hchosen "both" (by decide)).trans (congrArg (loadFile shelf) (by decide +kernel))
  · exact (hchosen "x.y" (by decide)).trans (congrArg (loadFile shelf) (by decide +kernel))
  · exact ((hids "a\\b").2.2 (by decide)).1

/-- An id with a backslash is listed, but it is no id that could be loaded. -/
theorem list_backslash :
    ∃ t : Tree, list t "flows" = .ok ["a\\b"] ∧ ¬ Selects (load t "flows" "a\\b") := by
  refine ⟨.directory [("flows", .directory [("a\\b.json", .file (.text ""))])], rfl, ?_⟩
  intro hselects
  exact (hselects "a\\b" "flows").1 rfl

end Workflow.Storage
