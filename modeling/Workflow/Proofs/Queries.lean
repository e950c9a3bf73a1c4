import Workflow.Proofs.Reading
import Workflow.Proofs.Recording

/-!
What a query finds. It goes through the directories of all days, so it finds every run that was
recorded, and sorting brings runs that start together, which are all filed under one day, into the
order in which they were recorded.
-/
namespace Workflow.Storage.RunLog

open Run (Id State Status)
open Time (Timestamp)

/-! ## Directories at a level -/

theorem spot_nil_of_isDirectory {t : Tree} (h : t.isDirectory = true) : t.spot [] = .directory := by
  cases t with
  | file content => cases h
  | directory entries => rfl

theorem isDirectory_of_spot {t : Tree} {p : Path} (h : t.spot p = .directory) :
    t.isDirectory = true := by
  cases t with
  | file content => cases p <;> cases h
  | directory entries => rfl

/-- The directories at a level are found by their names, where no name is used twice. -/
theorem mem_directories {levels : Nat} {t : Tree} (htidy : t.Tidy) (ht : t.isDirectory = true)
    {p : Path} : p ∈ directories levels t ↔ p.length = levels ∧ t.spot p = .directory := by
  induction levels generalizing t p with
  | zero =>
    rw [directories, List.mem_singleton, List.length_eq_zero_iff]
    constructor
    · rintro rfl
      exact ⟨rfl, spot_nil_of_isDirectory ht⟩
    · exact And.left
  | succ levels ih =>
    cases t with
    | file content => cases ht
    | directory entries =>
      simp only [directories, List.mem_flatMap, List.mem_filter, List.mem_map, Prod.exists]
      constructor
      · rintro ⟨name, u, ⟨hmem, hu⟩, q, hq, rfl⟩
        have hchild := (Tree.child?_eq_some_iff htidy.nodup).2 hmem
        obtain ⟨hlength, hspot⟩ := (ih (htidy.child hchild) hu).1 hq
        rw [Tree.spot_child hchild]
        exact ⟨congrArg (· + 1) hlength, hspot⟩
      · rintro ⟨hlength, hspot⟩
        obtain ⟨name, q, rfl⟩ := List.exists_cons_of_length_eq_add_one hlength
        cases hchild : Tree.child? entries name with
        | none =>
          rw [Tree.spot_of_child?_eq_none hchild] at hspot
          cases hspot
        | some u =>
          rw [Tree.spot_child hchild] at hspot
          have hu := isDirectory_of_spot hspot
          have hmem := (Tree.child?_eq_some_iff htidy.nodup).1 hchild
          have hq := (ih (htidy.child hchild) hu).2 ⟨Nat.succ.inj hlength, hspot⟩
          exact ⟨name, u, ⟨hmem, hu⟩, q, hq, rfl⟩

theorem nodup_directories (levels : Nat) {t : Tree} (htidy : t.Tidy) :
    (directories levels t).Nodup := by
  induction levels generalizing t with
  | zero => exact List.nodup_singleton _
  | succ levels ih =>
    cases t with
    | file content => exact List.nodup_nil
    | directory entries =>
      rw [directories, List.nodup_flatMap]
      constructor
      · rintro ⟨name, u⟩ hmem
        have hchild := (Tree.child?_eq_some_iff htidy.nodup).2 (List.mem_filter.1 hmem).1
        exact (ih (htidy.child hchild)).map fun p q hpq => (List.cons.inj hpq).2
      · have hnames : entries.Pairwise fun a b => a.1 ≠ b.1 := List.pairwise_map.1 htidy.nodup
        refine (hnames.filter _).imp ?_
        rintro ⟨name, u⟩ ⟨other, v⟩ hne p hp hq
        obtain ⟨p', -, rfl⟩ := List.mem_map.1 hp
        obtain ⟨q', -, heq⟩ := List.mem_map.1 hq
        exact hne (List.cons.inj heq).1.symm

/-! ## Days -/

section Query

variable {base : Path} {t u : Tree} {records : List Recording}

/-- The days of a log are those of the runs that are recorded, each once. -/
theorem exists_days (hlook : t.look base = .ok u) (h : Keeps records u) (name : String) :
    ∃ found, days t base name = .ok found ∧ found.Nodup ∧ (∀ day ∈ found, day.length = 3) ∧
      ∀ r ∈ records, ∃ day ∈ found, r.day = root :: day := by
  have hroot := Tree.look_append hlook [root]
  rw [days, hroot]
  cases hlog : u.look [root] with
  | error reason =>
    have hspot : u.spot [root] = .missing := by rw [Tree.spot, hlog]
    refine ⟨[], rfl, List.nodup_nil, List.forall_mem_nil _, fun r hr => ?_⟩
    obtain ⟨day, -, hday⟩ := r.exists_day_eq
    have hdirectory := (h.directory_iff [root]).2 (Or.inr ⟨r, hr, ⟨day, hday.symm⟩⟩)
    rw [hspot] at hdirectory
    cases hdirectory
  | ok log =>
    cases log with
    | file content =>
      have hspot : u.spot [root] = .file content := by rw [Tree.spot, hlog]
      exact absurd (filed_eq_nil (by decide)) ((h.file_iff _ _).1 hspot).1
    | directory entries =>
      have htidy : (Tree.directory entries).Tidy := fun p inner hinner =>
        h.tidy ([root] ++ p) inner ((Tree.look_append hlog p).trans hinner)
      have hsorted := List.mergeSort_perm (directories 3 (.directory entries))
        fun a b => @decide (List.instLE.le a b) (List.decidableLE a b)
      refine ⟨_, rfl, hsorted.nodup_iff.2 (nodup_directories 3 htidy), fun day hday => ?_,
        fun r hr => ?_⟩
      · exact ((mem_directories htidy rfl).1 (hsorted.mem_iff.1 hday)).1
      · obtain ⟨day, hlength, hday⟩ := r.exists_day_eq
        refine ⟨day, hsorted.mem_iff.2 ((mem_directories htidy rfl).2 ⟨hlength, ?_⟩), hday⟩
        rw [← Tree.spot_append hlog, h.directory_iff]
        exact Or.inr ⟨r, hr, ⟨[], by rw [List.append_nil, hday]; rfl⟩⟩

/-- A query collects what is filed under its days, and keeps and sorts the runs of its workflow. -/
theorem exists_runs (hlook : t.look base = .ok u) (h : Keeps records u)
    (hreads : ∀ r ∈ records, ReadsBack r.run) (name workflow : String) :
    ∃ found : List Path, found.Nodup ∧ (∀ r ∈ records, ∃ day ∈ found, r.day = root :: day) ∧
      runs t base name workflow =
        .ok (((found.flatMap fun day =>
          filed records (root :: day ++ [fileName workflow])).filter
            (·.workflowId = workflow)).mergeSort startsBy) := by
  obtain ⟨found, hdays, hnodup, hlength, hfound⟩ := exists_days hlook h name
  refine ⟨found, hnodup, hfound, ?_⟩
  have hread : ∀ day ∈ found, runsAt t (base ++ root :: day ++ [fileName workflow]) =
      .ok (filed records (root :: day ++ [fileName workflow])) := by
    intro day hday
    refine h.runsAt_eq hreads ?_ ?_
    · rw [List.append_assoc, Tree.spot_append hlook]
    · simp [hlength day hday]
  rw [runs, hdays]
  simp only [bind, Except.bind]
  rw [Fallible.mapM_eq_map hread]
  rfl

/-- Where all members of a list but one are made into nothing, that one is left. -/
theorem flatMap_eq_of_mem {α β : Type} {as : List α} (hnodup : as.Nodup) {f : α → List β} {a : α}
    (ha : a ∈ as) (h : ∀ b ∈ as, b ≠ a → f b = []) : as.flatMap f = f a := by
  induction as with
  | nil => cases ha
  | cons first rest ih =>
    obtain ⟨hnew, hrest⟩ := List.nodup_cons.1 hnodup
    obtain ⟨hfirst, hothers⟩ := List.forall_mem_cons.1 h
    rw [List.flatMap_cons]
    by_cases heq : first = a
    · subst heq
      rw [List.flatMap_eq_nil_iff.2, List.append_nil]
      exact fun b hb => hothers b hb fun hba => hnew (hba ▸ hb)
    · rw [hfirst heq, List.nil_append]
      exact ih hrest ((List.mem_cons.1 ha).resolve_left (Ne.symm heq)) hothers

/-- The runs of a workflow that are filed under a day. -/
theorem filter_filed (day : Path) (workflow : String) (start : Option Timestamp) :
    ((filed records (root :: day ++ [fileName workflow])).filter (·.workflowId = workflow)).filter
        (·.startTime = start) =
      ((records.filter fun r => r.run.workflowId = workflow ∧ r.run.startTime = start).filter
        (·.day = root :: day)).map Recording.run := by
  rw [filed, List.filter_map, List.filter_map, List.filter_filter, List.filter_filter,
    List.filter_filter]
  congr 1
  apply List.filter_congr
  intro r _
  by_cases hworkflow : r.run.workflowId = workflow
  · have hplace : r.place = root :: day ++ [fileName workflow] ↔ r.day = root :: day := by
      rw [Recording.place, hworkflow, List.append_left_inj]
    rw [List.cons_append] at hplace
    simp [hworkflow, hplace, Bool.and_comm]
  · simp [hworkflow]

/-- The recordings of a workflow whose runs start together. -/
theorem filter_recorded (records : List Recording) (workflow : String)
    (start : Option Timestamp) :
    ((records.map Recording.run).filter (·.workflowId = workflow)).filter (·.startTime = start) =
      (records.filter fun r => r.run.workflowId = workflow ∧ r.run.startTime = start).map
        Recording.run := by
  rw [List.filter_map, List.filter_map, List.filter_filter]
  congr 1
  apply List.filter_congr
  intro r _
  simp [Bool.and_comm]

/-- Runs that start together and are filed under one day are found in the order in which they were
recorded. -/
theorem filter_found {found : List Path} (hnodup : found.Nodup)
    (hfound : ∀ r ∈ records, ∃ day ∈ found, r.day = root :: day) (workflow : String)
    {start : Option Timestamp}
    (hday : ∀ r ∈ records, ∀ r' ∈ records, r.run.startTime = start → r'.run.startTime = start →
      r.day = r'.day) :
    ((found.flatMap fun day => filed records (root :: day ++ [fileName workflow])).filter
        (·.workflowId = workflow)).filter (·.startTime = start) =
      ((records.map Recording.run).filter (·.workflowId = workflow)).filter
        (·.startTime = start) := by
  rw [List.filter_flatMap, List.filter_flatMap, filter_recorded]
  simp only [filter_filed]
  cases hwanted : records.filter fun r =>
    r.run.workflowId = workflow ∧ r.run.startTime = start with
  | nil => simp
  | cons first rest =>
    rw [← hwanted]
    have hin {r : Recording} (hr : r ∈ records.filter fun r =>
        r.run.workflowId = workflow ∧ r.run.startTime = start) :
        r ∈ records ∧ r.run.startTime = start := by
      obtain ⟨hmem, hr⟩ := List.mem_filter.1 hr
      exact ⟨hmem, (of_decide_eq_true hr).2⟩
    have hfirst := hin (hwanted ▸ List.mem_cons_self)
    obtain ⟨day, hmem, hroot⟩ := hfound first hfirst.1
    -- All of them are filed under the day of the first one.
    have hall : ∀ r ∈ records.filter fun r =>
        r.run.workflowId = workflow ∧ r.run.startTime = start, r.day = root :: day := by
      intro r hr
      rw [← hroot]
      exact hday r (hin hr).1 first hfirst.1 (hin hr).2 hfirst.2
    rw [flatMap_eq_of_mem hnodup hmem]
    · rw [List.filter_eq_self.2]
      exact fun r hr => decide_eq_true (hall r hr)
    · intro other _ hne
      rw [List.map_eq_nil_iff, List.filter_eq_nil_iff]
      intro r hr hother
      rw [hall r hr] at hother
      exact hne (List.cons.inj (of_decide_eq_true hother)).2.symm

end Query

/-- Runs that are recorded so that nothing gets in the way: each of them can be, below a directory
that there can be, and those without a start are recorded on one day. -/
structure History (base : Path) (records : List Recording) : Prop where
  names : ∀ name ∈ base, Tree.isName name = true
  recordable : ∀ r ∈ records, Recordable r
  oneDay : ∀ r ∈ records, ∀ r' ∈ records, r.run.startTime = none → r'.run.startTime = none →
    r.now.date = r'.now.date

theorem History.of_append {base : Path} {records later : List Recording}
    (h : History base (records ++ later)) : History base records where
  names := h.names
  recordable r hr := h.recordable r (List.mem_append_left _ hr)
  oneDay r hr r' hr' := h.oneDay r (List.mem_append_left _ hr) r' (List.mem_append_left _ hr')

theorem History.day_eq {base : Path} {records : List Recording} (h : History base records)
    {start : Option Timestamp} {r r' : Recording} (hr : r ∈ records) (hr' : r' ∈ records)
    (hstart : r.run.startTime = start) (hstart' : r'.run.startTime = start) : r.day = r'.day := by
  cases start with
  | some x =>
    rw [Recording.day, Recording.day, Recording.moment, Recording.moment, hstart, hstart',
      Option.getD_some, Option.getD_some]
  | none =>
    have hdate := h.oneDay r hr r' hr' hstart hstart'
    rw [Recording.day, Recording.day, Recording.moment, Recording.moment, hstart, hstart',
      Option.getD_none, Option.getD_none, dayPath, dayPath, hdate]

/-- A query of a log finds the runs of its workflow as they were recorded. -/
theorem exists_runs_recordAll {base : Path} {t : Tree}
    (hempty : t.look base = .ok (.directory [])) {records : List Recording}
    (h : History base records) (name workflow : String) :
    ∃ t' answer, recordAll t base records = .ok t' ∧
      runs t' base name workflow = .ok answer ∧
      Chronicle ((records.map Recording.run).filter (·.workflowId = workflow)) answer := by
  obtain ⟨t', u, hall, hlook, hkeeps⟩ :=
    exists_recordAll h.names h.recordable hempty .empty (List.forall_mem_nil _)
  have hreads : ∀ r ∈ records, ReadsBack r.run := fun r hr => (h.recordable r hr).readsBack
  obtain ⟨found, hnodup, hfound, hruns⟩ := exists_runs hlook hkeeps hreads name workflow
  refine ⟨t', _, hall, hruns, .mergeSort fun start => ?_⟩
  exact filter_found hnodup hfound workflow fun r hr r' hr' => h.day_eq hr hr'

/-- The log keeps every run exactly once. Over a directory that is empty at first, all recordings
succeed, and a query then finds the recorded runs of its workflow, each as often as it was recorded,
sorted by their start, and in the order of the recordings where they start together. Recording a run
of another workflow does not change what is found. -/
theorem runs_recordAll {base : Path} {t : Tree} (hempty : t.look base = .ok (.directory []))
    {records : List Recording} (h : History base records) (name : String) :
    ∃ t', recordAll t base records = .ok t' ∧ ∀ workflow, ∃ answer,
      runs t' base name workflow = .ok answer ∧
      answer.Perm ((records.map Recording.run).filter (·.workflowId = workflow)) ∧
      Chronicle ((records.map Recording.run).filter (·.workflowId = workflow)) answer ∧
      ∀ r, History base (records ++ [r]) → r.run.workflowId ≠ workflow →
        ∃ t'', record t' base r.run r.now = .ok t'' ∧
          runs t'' base name workflow = .ok answer := by
  obtain ⟨t', -, hall, -⟩ := exists_runs_recordAll hempty h name ""
  refine ⟨t', hall, fun workflow => ?_⟩
  obtain ⟨t₁, answer, hall₁, hruns, hchronicle⟩ := exists_runs_recordAll hempty h name workflow
  rw [hall] at hall₁
  cases hall₁
  refine ⟨answer, hruns, hchronicle.perm, hchronicle, fun r hr hother => ?_⟩
  obtain ⟨t'', answer', hall', hruns', hchronicle'⟩ :=
    exists_runs_recordAll hempty hr name workflow
  have hsame : ((records ++ [r]).map Recording.run).filter (·.workflowId = workflow) =
      (records.map Recording.run).filter (·.workflowId = workflow) := by
    simp [hother]
  rw [hsame] at hchronicle'
  obtain rfl := hchronicle.unique hchronicle'
  refine ⟨t'', ?_, hruns'⟩
  rw [recordAll, List.foldlM_append, ← recordAll, hall] at hall'
  simp only [List.foldlM_cons, List.foldlM_nil, bind_pure] at hall'
  exact hall'

def visit (workflow : String) (start : Option Timestamp) : State :=
  { State.new ⟨List.replicate 32 '0'⟩ workflow [] with startTime := start }

/-- Runs of two workflows that share their files; one of them is recorded twice. -/
def visits : List Recording :=
  [⟨visit "a/b" (some ⟨3600, 0⟩), ⟨0, 0⟩⟩, ⟨visit "a_b" none, ⟨86400, 0⟩⟩,
    ⟨visit "a/b" (some ⟨3600, 0⟩), ⟨0, 0⟩⟩]

def lateVisit : Recording := ⟨visit "a_b" none, ⟨90000, 0⟩⟩

/-- A run without numbers that is not nested too deep is read back if its document is. -/
theorem readsBack_of_numbers_eq_nil {s : State} (hnumbers : s.document.numbers = [])
    (hdepth : s.document.depth ≤ Json.Reader.greatestDepth)
    (hdecode : State.decoder (.ofJson s.document) = .ok s) : ReadsBack s := by
  have hnone : ∀ n ∈ s.document.numbers, n.ReadsAs n := by simp [hnumbers]
  have hdraft := Json.readDraft_object (f := id) _ hnone hdepth
  rw [ReadsBack, State.document, Json.decodeText_of_readDraft hdraft,
    Json.mapNumbers_eq_self id fun _ _ => rfl, ← State.document, hdecode]

theorem readsBack_visits : ∀ r ∈ visits ++ [lateVisit], ReadsBack r.run := by
  have hfirst : ReadsBack (visit "a/b" (some ⟨3600, 0⟩)) :=
    readsBack_of_numbers_eq_nil rfl (by decide) rfl
  have hsecond : ReadsBack (visit "a_b" none) := readsBack_of_numbers_eq_nil rfl (by decide) rfl
  simp only [visits, lateVisit, List.cons_append, List.nil_append, List.forall_mem_cons]
  exact ⟨hfirst, hsecond, hfirst, hsecond, List.forall_mem_nil _⟩

theorem history_visits : History ["log"] (visits ++ [lateVisit]) where
  names := by decide +kernel
  recordable r hr := ⟨by revert r; decide +kernel, readsBack_visits r hr⟩
  oneDay := by decide +kernel

theorem runs_recordAll_visits :
    ∃ t', recordAll (.directory [("log", .directory [])]) ["log"] visits = .ok t' ∧
      runs t' ["log"] "log" "a/b" = .ok (List.replicate 2 (visit "a/b" (some ⟨3600, 0⟩))) ∧
      ∃ t'', record t' ["log"] lateVisit.run lateVisit.now = .ok t'' ∧
        runs t'' ["log"] "log" "a/b" = .ok (List.replicate 2 (visit "a/b" (some ⟨3600, 0⟩))) := by
  have hempty : Tree.look (.directory [("log", .directory [])]) ["log"] =
      .ok (.directory []) := rfl
  have hfound : (visits.map Recording.run).filter (·.workflowId = "a/b") =
      List.replicate 2 (visit "a/b" (some ⟨3600, 0⟩)) := rfl
  obtain ⟨t', hall, hquery⟩ := runs_recordAll hempty history_visits.of_append "log"
  obtain ⟨answer, hruns, hperm, -, hothers⟩ := hquery "a/b"
  rw [hfound, List.perm_replicate] at hperm
  subst hperm
  exact ⟨t', hall, hruns, hothers lateVisit history_visits (by decide)⟩

end Workflow.Storage.RunLog
