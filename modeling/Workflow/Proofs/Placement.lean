import Workflow.Proofs.Listing
import Workflow.Proofs.Readability

/-!
Ids cannot lead out of the directories that they are for. Whatever the id of a workflow is, its runs
are written to one file whose name has only letters, digits, `-` and `_`, in the directory of a day
in the log, and a query reads nothing but files of this name there; a definition is read from an
entry of its own directory, or not at all.
-/
namespace Workflow.Storage

namespace RunLog

open Run (State)
open Time (Timestamp)

/-! ## Names -/

/-- A name that is not empty and has only letters and digits of ASCII, `-` and `_`. -/
def IsPlainName (name : String) : Prop :=
  name ≠ "" ∧ ∀ c ∈ name.toList, c.isAlphanum = true ∨ c = '-' ∨ c = '_'

theorem isPlainName_stem (workflow : String) : IsPlainName (stem workflow) := by
  unfold stem
  split
  · exact ⟨by decide, by simp⟩
  · rename_i hempty
    constructor
    · intro hstem
      rw [← String.toList_inj, String.toList_ofList] at hstem
      rw [List.map_eq_nil_iff.1 hstem |> String.toList_eq_nil_iff.1] at hempty
      exact hempty rfl
    · intro c hc
      rw [String.toList_ofList, List.mem_map] at hc
      obtain ⟨d, -, rfl⟩ := hc
      split
      · rename_i hplain
        simpa [isPlain, or_assoc] using hplain
      · exact Or.inr (Or.inr rfl)

/-! ## Writing -/

variable {t t' : Tree} {base : Path} {r : Recording}

/-- A recording makes the directory of its day, reads its file and writes it. -/
theorem exists_of_record (h : record t base r.run r.now = .ok t') :
    ∃ t₁ content, t.makeDirectories (base ++ r.day) = some t₁ ∧
      t₁.write content (base ++ r.place) = some t' := by
  unfold record at h
  simp only [r.place_eq, r.dropLast_place] at h
  cases hmade : t.makeDirectories (base ++ r.day) with
  | none =>
    rw [hmade] at h
    cases h
  | some t₁ =>
    rw [hmade] at h
    obtain ⟨runs, hruns, h⟩ := Fallible.bind_eq_ok.1 h
    refine ⟨t₁, .compressed (linesOf (runs ++ [r.run])), rfl, ?_⟩
    split at h
    · rename_i hwrite
      cases h
      exact hwrite
    · cases h

/-- A recording writes its file, and every other file is as it was. -/
theorem file_iff_of_record (h : record t base r.run r.now = .ok t') :
    (∃ content, t'.spot (base ++ r.place) = .file content) ∧
      ∀ p, p ≠ base ++ r.place → ∀ content,
        t'.spot p = .file content ↔ t.spot p = .file content := by
  obtain ⟨t₁, content, hmade, hwrite⟩ := exists_of_record h
  constructor
  · exact ⟨content, by rw [Tree.spot_write hwrite, if_pos rfl]⟩
  · intro p hp content'
    rw [Tree.spot_write hwrite, if_neg hp, Tree.spot_makeDirectories hmade]
    split_ifs with hstart
    · exact iff_of_false nofun (Tree.spot_ne_file_of_makeDirectories hmade hstart content')
    · exact Iff.rfl

theorem file_iff_of_attempt (t : Tree) (base : Path) (r : Recording) {p : Path}
    (hp : p ≠ base ++ r.place) (content : Content) :
    (attempt t base r).spot p = .file content ↔ t.spot p = .file content := by
  unfold attempt
  cases hrecord : record t base r.run r.now with
  | error reason => exact Iff.rfl
  | ok t' => exact (file_iff_of_record hrecord).2 p hp content

/-! ## Reading -/

/-- Trees that differ at most in what is of no concern to a query for files of some name: they have
the same directories in the log, and the same files of the name in the directories of days. -/
structure Agree (base : Path) (file : String) (t u : Tree) : Prop where
  root : t.spot (base ++ [root]) = u.spot (base ++ [root])
  directories : ∀ p : Path, t.spot (base ++ RunLog.root :: p) = .directory ↔
    u.spot (base ++ RunLog.root :: p) = .directory
  files : ∀ day : Path, day.length = 3 →
    t.spot (base ++ RunLog.root :: day ++ [file]) = u.spot (base ++ RunLog.root :: day ++ [file])

theorem runsAt_congr {u : Tree} {p q : Path} (h : t.spot p = u.spot q) :
    runsAt t p = runsAt u q := by
  unfold Tree.spot at h
  unfold runsAt
  cases ht : t.look p with
  | error reason =>
    cases hu : u.look q with
    | error reason' => rfl
    | ok v => cases v <;> simp [ht, hu] at h
  | ok v =>
    cases hu : u.look q with
    | error reason => cases v <;> simp [ht, hu] at h
    | ok w =>
      cases v with
      | file content =>
        cases w with
        | file content' =>
          rw [ht, hu] at h
          cases h
          rfl
        | directory entries => simp [ht, hu] at h
      | directory entries =>
        cases w with
        | file content' => simp [ht, hu] at h
        | directory entries' => rfl

/-- The directories of days are the directories three levels below that of the log. -/
theorem mem_directories_log {v : Tree} (htidy : t.Tidy) (hlog : t.look (base ++ [root]) = .ok v)
    (hv : v.isDirectory = true) {day : Path} :
    day ∈ directories 3 v ↔ day.length = 3 ∧ t.spot (base ++ root :: day) = .directory := by
  rw [mem_directories (htidy.of_look hlog) hv, ← Tree.spot_append hlog, List.append_assoc]
  rfl

theorem length_of_mem_days {found : List Path} {written : String} (htidy : t.Tidy)
    (h : days t base written = .ok found) : ∀ day ∈ found, day.length = 3 := by
  intro day hday
  unfold days at h
  split at h
  · cases h
    cases hday
  · cases h
  · rename_i v hfile hlog
    cases h
    have hv : v.isDirectory = true := by
      cases v with
      | file content => exact absurd rfl (hfile content)
      | directory entries => rfl
    exact ((mem_directories_log htidy hlog hv).1 (List.mem_mergeSort.1 hday)).1

theorem mergeSort_eq {paths paths' : List Path} (h : paths.Perm paths') :
    (paths.mergeSort fun a b => @decide (List.instLE.le a b) (List.decidableLE a b)) =
      paths'.mergeSort fun a b => @decide (List.instLE.le a b) (List.decidableLE a b) := by
  have hsorted (paths : List Path) :
      (paths.mergeSort fun a b => @decide (List.instLE.le a b) (List.decidableLE a b)).Pairwise
        fun a b => List.instLE.le a b := by
    refine (List.pairwise_mergeSort ?_ ?_ paths).imp fun hle => of_decide_eq_true hle
    · intro a b c hab hbc
      exact decide_eq_true (List.le_trans (of_decide_eq_true hab) (of_decide_eq_true hbc))
    · intro a b
      rw [Bool.or_eq_true, decide_eq_true_iff, decide_eq_true_iff]
      exact List.le_total a b
  refine List.Perm.eq_of_pairwise (fun _ _ _ _ => List.le_antisymm) (hsorted paths)
    (hsorted paths') ?_
  exact ((List.mergeSort_perm _ _).trans h).trans (List.mergeSort_perm _ _).symm

theorem days_congr {u : Tree} {file : String} (ht : t.Tidy) (hu : u.Tidy)
    (h : Agree base file t u) (written : String) : days t base written = days u base written := by
  have hroot := h.root
  unfold Tree.spot at hroot
  unfold days
  cases hlog : t.look (base ++ [root]) with
  | error reason =>
    cases hlog' : u.look (base ++ [root]) with
    | error reason' => rfl
    | ok v => cases v <;> simp [hlog, hlog'] at hroot
  | ok v =>
    cases hlog' : u.look (base ++ [root]) with
    | error reason => cases v <;> simp [hlog, hlog'] at hroot
    | ok w =>
      cases v with
      | file content =>
        cases w with
        | file content' => rfl
        | directory entries => simp [hlog, hlog'] at hroot
      | directory entries =>
        cases w with
        | file content => simp [hlog, hlog'] at hroot
        | directory entries' =>
          refine congrArg Except.ok (mergeSort_eq ?_)
          rw [List.perm_ext_iff_of_nodup (nodup_directories 3 (ht.of_look hlog))
            (nodup_directories 3 (hu.of_look hlog'))]
          intro day
          rw [mem_directories_log ht hlog rfl, mem_directories_log hu hlog' rfl, h.directories]

/-- A query for the runs of a workflow reads nothing but files of its name in the log. -/
theorem runs_congr {u : Tree} {workflow : String} (ht : t.Tidy) (hu : u.Tidy)
    (h : Agree base (fileName workflow) t u) (written : String) :
    runs t base written workflow = runs u base written workflow := by
  unfold runs
  rw [days_congr ht hu h written]
  cases hdays : days u base written with
  | error reason => rfl
  | ok found =>
    have hsame : ∀ day ∈ found, runsAt t (base ++ root :: day ++ [fileName workflow]) =
        runsAt u (base ++ root :: day ++ [fileName workflow]) := by
      intro day hday
      exact runsAt_congr (h.files day (length_of_mem_days hu hdays day hday))
    simp only [bind, Except.bind]
    rw [Fallible.mapM_congr hsame]

end RunLog

/-! ## Definitions -/

theorem loadFile_congr {t u : Tree} {path : String} (h : t.find path = u.find path) :
    loadFile t path = loadFile u path := by
  have htext : t.readText? path = u.readText? path := by
    unfold Tree.readText?
    rw [h]
  unfold loadFile
  rw [htext]

theorem load_congr {t u : Tree} {base id : String} (hid : IsSingle id)
    (h : ∀ ending ∈ [".json", ".toml"],
      t.find (join base (id ++ ending)) = u.find (join base (id ++ ending))) :
    load t base id = load u base id := by
  have hjson := h ".json" (by decide)
  have htoml := h ".toml" (by decide)
  rw [load_of_isSingle t base hid, load_of_isSingle u base hid, loadFile_congr hjson,
    loadFile_congr htoml]
  unfold Tree.contains
  rw [hjson, htoml]

/-! ## All ids -/

/-- An id cannot lead out of the directories that it is for. There is a plain name for it such that
a recording changes no file but that of this name in the directory of its day, and that a query
reads no other files in the log. A definition of this id is refused, or the id is a single name and
only the two entries of the directory that have it as their name are read. -/
theorem ids_stay_inside (id : String) :
    (∃ name, RunLog.IsPlainName name ∧
      (∀ (t : Tree) (base : Path) (r : RunLog.Recording), r.run.workflowId = id →
        let date := r.moment.date
        let place := base ++ ["executions", RunLog.yearName date.year, Time.padded 2 date.month,
          Time.padded 2 date.day, name ++ ".jsonl.gz"]
        (∀ t', RunLog.record t base r.run r.now = .ok t' →
          ∃ content, t'.spot place = .file content) ∧
        ∀ p, p ≠ place → ∀ content,
          (RunLog.attempt t base r).spot p = .file content ↔ t.spot p = .file content) ∧
      ∀ (t u : Tree) (base : Path) (written : String), t.Tidy → u.Tidy →
        RunLog.Agree base (name ++ ".jsonl.gz") t u →
        RunLog.runs t base written id = RunLog.runs u base written id) ∧
    ∀ base, (¬ IsSingle id ∧ ∀ t, load t base id = .error (.invalidId id)) ∨
      IsSingle id ∧
        (∀ ending ∈ [".json", ".toml"], ∀ t : Tree,
          t.find (join base (id ++ ending)) = t.find base >>= fun u => u.look [id ++ ending]) ∧
        ∀ t u : Tree, (∀ ending ∈ [".json", ".toml"],
            t.find (join base (id ++ ending)) = u.find (join base (id ++ ending))) →
          load t base id = load u base id := by
  constructor
  · refine ⟨RunLog.stem id, RunLog.isPlainName_stem id, ?_, ?_⟩
    · rintro t base r rfl
      intro date place
      have hplace : place = base ++ r.place := rfl
      rw [hplace]
      constructor
      · intro t' hrecord
        exact (RunLog.file_iff_of_record hrecord).1
      · intro p hp
        exact RunLog.file_iff_of_attempt t base r hp
    · intro t u base written ht hu hagree
      exact RunLog.runs_congr ht hu hagree written
  · intro base
    by_cases hid : IsSingle id
    · refine Or.inr ⟨hid, ?_, fun t u => load_congr hid⟩
      have hentry : ∀ ending ∈ [".json", ".toml"], IsEntry (id ++ ending) := by
        rw [List.forall_mem_cons, List.forall_mem_singleton]
        exact ⟨isEntry_json hid.no_slash, isEntry_toml hid.no_slash⟩
      intro ending hending t
      exact t.find_join base (hentry ending hending)
    · exact Or.inl ⟨hid, fun t => load_of_not_isSingle t base hid⟩

/-- A directory for a log beside a definition that is not in it. -/
def home (text : String) : Tree :=
  .directory [("log", .directory []), ("up.json", .file (.text text))]

theorem tidy_home (text : String) : (home text).Tidy := by
  have hlog : Tree.Tidy (.directory [("log", .directory [])]) :=
    Tree.tidy_empty.setEntry "log" Tree.tidy_empty
  exact hlog.setEntry "up.json" (Tree.tidy_file _)

theorem agree_home (file text text' : String) :
    RunLog.Agree ["log"] file (home text) (home text') where
  root := rfl
  directories _ := Iff.rfl
  files _ _ := rfl

/-- An id that leads up, and the one that it would lead to. -/
theorem ids_stay_inside_dots :
    (∃ name t', RunLog.IsPlainName name ∧
      RunLog.record (home "private") ["log"] (RunLog.visit "../up" none) ⟨0, 0⟩ = .ok t' ∧
      (∃ content, t'.spot ["log", "executions", "1970", "01", "01", name ++ ".jsonl.gz"] =
        .file content) ∧
      t'.spot ["up.json"] = .file (.text "private") ∧
      RunLog.runs (home "private") ["log"] "log" "../up" =
        RunLog.runs (home "public") ["log"] "log" "../up") ∧
    load (home "private") "log" "../up" = .error (.invalidId "../up") ∧
    load (home "private") "log" "up" = load (home "public") "log" "up" := by
  obtain ⟨⟨name, hname, hwrites, hreads⟩, hload⟩ := ids_stay_inside "../up"
  refine ⟨?_, ?_, ?_⟩
  · obtain ⟨t', hrecord⟩ : ∃ t', RunLog.record (home "private") ["log"]
        (RunLog.visit "../up" none) ⟨0, 0⟩ = .ok t' := ⟨_, rfl⟩
    obtain ⟨hplace, hothers⟩ :=
      hwrites (home "private") ["log"] ⟨RunLog.visit "../up" none, ⟨0, 0⟩⟩ rfl
    refine ⟨name, t', hname, hrecord, hplace t' hrecord, ?_, ?_⟩
    · have hkept := (hothers ["up.json"] (by simp) (.text "private")).2 rfl
      unfold RunLog.attempt at hkept
      rw [hrecord] at hkept
      exact hkept
    · exact hreads _ _ _ _ (tidy_home _) (tidy_home _) (agree_home _ _ _)
  · rcases hload "log" with ⟨-, hrefused⟩ | ⟨hid, -⟩
    · exact hrefused (home "private")
    · exact absurd (by decide) hid.no_slash
  · rcases (ids_stay_inside "up").2 "log" with ⟨hid, -⟩ | ⟨-, hentry, hsame⟩
    · exact absurd ⟨by decide, by decide, by decide, by decide⟩ hid
    · refine hsame (home "private") (home "public") ?_
      intro ending hending
      rw [hentry ending hending, hentry ending hending]
      rfl

end Workflow.Storage
