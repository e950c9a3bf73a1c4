import Workflow.Proofs.Chronicle
import Workflow.Proofs.Files
import Workflow.Proofs.Lines

/-!
What is recorded is kept. Below the directory of the log there are, at every moment, the directories
of the days of the recorded runs, and in them the files with the runs of each day and file name in
the order in which they were recorded; this is what a query collects, filters and sorts.
-/
namespace Workflow.Storage.RunLog

open Run (State)
open Time (Timestamp)

/-! ## Names -/

theorem null_notMem_padded (width n : Nat) : '\x00' ∉ (Time.padded width n).toList := by
  have hdigits : '\x00' ∉ Nat.toDigits 10 n := Decimal.notMem_toDigits rfl n
  simp [Time.padded, List.mem_replicate, hdigits]

theorem null_notMem_yearName (year : Int) : '\x00' ∉ (yearName year).toList := by
  rw [yearName]
  split
  · simp [String.toList_append, null_notMem_padded]
  · exact null_notMem_padded 4 _

/-- Whatever the id has, its name in the log has no zero character. -/
theorem null_notMem_stem (workflow : String) : '\x00' ∉ (stem workflow).toList := by
  rw [stem]
  split
  · decide
  · intro h
    rw [String.toList_ofList, List.mem_map] at h
    obtain ⟨c, -, hc⟩ := h
    split at hc
    · rename_i hplain
      rw [hc] at hplain
      cases hplain
    · cases hc

theorem null_notMem_fileName (workflow : String) : '\x00' ∉ (fileName workflow).toList := by
  rw [fileName, String.toList_append, List.mem_append, not_or]
  exact ⟨null_notMem_stem workflow, by decide⟩

/-! ## Recordings -/

/-- A run, and the moment when it is recorded. -/
structure Recording where
  run : State
  now : Timestamp

namespace Recording

/-- The moment whose day the recording is filed under. -/
def moment (r : Recording) : Timestamp := r.run.startTime.getD r.now

def day (r : Recording) : Path := dayPath r.moment

/-- The place of the file, below the directory of the log. -/
def place (r : Recording) : Path := r.day ++ [fileName r.run.workflowId]

theorem length_day (r : Recording) : r.day.length = 4 := rfl

theorem length_place (r : Recording) : r.place.length = 5 := rfl

/-- All days are in the directory of the log. -/
theorem exists_day_eq (r : Recording) : ∃ day : Path, day.length = 3 ∧ r.day = root :: day := by
  rw [day, dayPath]
  exact ⟨_, rfl, rfl⟩

theorem length_le_of_prefix_day {r : Recording} {p : Path} (h : p <+: r.day) : p.length ≤ 4 :=
  h.length_le

/-- No file is on the way to the directory of a day. -/
theorem place_not_prefix_day (r r' : Recording) : ¬ r.place <+: r'.day := fun h =>
  absurd (length_le_of_prefix_day h) (by rw [r.length_place]; decide)

/-- No directory is where a file is: the place of a file is too long. -/
theorem place_not_directory (r : Recording) (records : List Recording) :
    ¬ (r.place = [] ∨ ∃ r' ∈ records, r.place <+: r'.day) := by
  rintro (hnil | ⟨r', -, hprefix⟩)
  · have hlength := r.length_place
    rw [hnil] at hlength
    cases hlength
  · exact r.place_not_prefix_day r' hprefix

theorem place_eq (base : Path) (r : Recording) :
    RunLog.place base (r.run.startTime.getD r.now) r.run.workflowId = base ++ r.place :=
  List.append_assoc _ _ _

theorem dropLast_place (base : Path) (r : Recording) :
    (base ++ r.place).dropLast = base ++ r.day := by
  rw [place, ← List.append_assoc, List.dropLast_concat]

/-- The names that lead to a file are those of files unless they are too long. -/
theorem isName_of_mem_place {r : Recording} {name : String} (h : name ∈ r.place)
    (hlength : name.utf8ByteSize ≤ 255) : Tree.isName name = true := by
  refine Tree.isName_iff.2 ⟨hlength, ?_⟩
  rw [place, day, dayPath, List.mem_append, List.mem_singleton] at h
  rcases h with hday | rfl
  · simp only [List.mem_cons, List.not_mem_nil, or_false] at hday
    rcases hday with rfl | rfl | rfl | rfl
    · decide
    · exact null_notMem_yearName _
    · exact null_notMem_padded 2 _
    · exact null_notMem_padded 2 _
  · exact null_notMem_fileName _

end Recording

def recordAll (t : Tree) (base : Path) (records : List Recording) : Except LogFailure Tree :=
  records.foldlM (fun t r => record t base r.run r.now) t

/-- The runs that are filed at a place, in the order in which they were recorded. -/
def filed (records : List Recording) (p : Path) : List State :=
  (records.filter (·.place = p)).map Recording.run

theorem filed_append (records : List Recording) (r : Recording) (p : Path) :
    filed (records ++ [r]) p = filed records p ++ if r.place = p then [r.run] else [] := by
  rw [filed, List.filter_append, List.map_append]
  by_cases h : r.place = p
  · simp [filed, h]
  · simp [filed, h]

theorem filed_eq_nil {records : List Recording} {p : Path} (h : p.length ≠ 5) :
    filed records p = [] := by
  rw [filed, List.map_eq_nil_iff, List.filter_eq_nil_iff]
  intro r _ hr
  rw [← of_decide_eq_true hr] at h
  exact h r.length_place

/-- What is on the way to the days of some recordings, when one more day is among them. -/
theorem exists_prefix_day_iff {records records' : List Recording} {day : Path}
    (hdays : records'.map Recording.day = records.map Recording.day ++ [day]) (q : Path) :
    (∃ r ∈ records', q <+: r.day) ↔ (∃ r ∈ records, q <+: r.day) ∨ q <+: day := by
  have hmem (list : List Recording) : (∃ r ∈ list, q <+: r.day) ↔
      ∃ d ∈ list.map Recording.day, q <+: d := by simp
  rw [hmem, hdays, hmem]
  simp [or_and_right, exists_or]

/-- What there is below the directory of the log when some runs are recorded. -/
structure Keeps (records : List Recording) (u : Tree) : Prop where
  tidy : u.Tidy
  directory_iff : ∀ p, u.spot p = .directory ↔ p = [] ∨ ∃ r ∈ records, p <+: r.day
  file_iff : ∀ p content, u.spot p = .file content ↔
    filed records p ≠ [] ∧ content = .compressed (linesOf (filed records p))

namespace Keeps

variable {records : List Recording} {u : Tree}

theorem empty : Keeps [] (.directory []) where
  tidy := Tree.tidy_empty
  directory_iff p := by
    cases p with
    | nil => simp
    | cons name p => simp [Tree.spot, Tree.look, Tree.child?]
  file_iff p content := by
    cases p with
    | nil => simp [filed]
    | cons name p => simp [Tree.spot, Tree.look, Tree.child?, filed]

theorem length_le_of_directory (h : Keeps records u) {p : Path} (hp : u.spot p = .directory) :
    p.length ≤ 4 := by
  rcases (h.directory_iff p).1 hp with rfl | ⟨r, -, hprefix⟩
  · exact Nat.zero_le _
  · exact Recording.length_le_of_prefix_day hprefix

/-- The runs in a file are read from what is filed there; there is no file where there are none. -/
theorem runsAt_eq_runsOf (h : Keeps records u) {t : Tree} {q p : Path}
    (hspot : t.spot q = u.spot p) (hlength : 4 < p.length) :
    runsAt t q = runsOf (linesOf (filed records p)) := by
  rw [runsAt]
  rw [Tree.spot] at hspot
  cases hlook : t.look q with
  | error reason =>
    rw [hlook] at hspot
    by_cases hnil : filed records p = []
    · rw [hnil, runsOf_linesOf_eq]
      rfl
    · rw [(h.file_iff p _).2 ⟨hnil, rfl⟩] at hspot
      cases hspot
  | ok v =>
    rw [hlook] at hspot
    cases v with
    | file content =>
      obtain ⟨-, rfl⟩ := (h.file_iff p content).1 hspot.symm
      rfl
    | directory entries =>
      have hle := h.length_le_of_directory hspot.symm
      omega

theorem runsAt_eq (h : Keeps records u) (hreads : ∀ r ∈ records, ReadsBack r.run) {t : Tree}
    {q p : Path} (hspot : t.spot q = u.spot p) (hlength : 4 < p.length) :
    runsAt t q = .ok (filed records p) := by
  rw [h.runsAt_eq_runsOf hspot hlength, runsOf_linesOf]
  intro s hs
  obtain ⟨r, hr, rfl⟩ := List.mem_map.1 hs
  exact hreads r (List.mem_filter.1 hr).1

/-- The directory of a day can be made: there are no files on the way to it. -/
theorem exists_makeDay (h : Keeps records u) {r : Recording}
    (hnames : ∀ name ∈ r.day, Tree.isName name = true) :
    ∃ u₁, u.makeDirectories r.day = some u₁ := by
  refine Tree.exists_makeDirectories hnames fun q hq content hspot => ?_
  have hfiled := ((h.file_iff q content).1 hspot).1
  have hle := Recording.length_le_of_prefix_day hq
  exact hfiled (filed_eq_nil (by omega))

/-- Making the directory of a day leaves the places of files as they are. -/
theorem spot_place_of_makeDay {r : Recording} {u₁ : Tree}
    (hmade : u.makeDirectories r.day = some u₁) : u₁.spot r.place = u.spot r.place := by
  rw [Tree.spot_makeDirectories hmade, if_neg (r.place_not_prefix_day r)]

/-- The file of a recording can be written once the directory of its day is made. -/
theorem exists_writeFile (h : Keeps records u) {r : Recording} {u₁ : Tree}
    (hmade : u.makeDirectories r.day = some u₁)
    (hname : Tree.isName (fileName r.run.workflowId) = true) (content : Content) :
    ∃ u', u₁.write content r.place = some u' := by
  have hdirectory : u₁.spot r.day = .directory := by
    rw [Tree.spot_makeDirectories hmade, if_pos List.prefix_rfl]
  refine Tree.exists_write content hdirectory hname fun hspot => ?_
  have hkept : u.spot r.place = .directory := (spot_place_of_makeDay hmade).symm.trans hspot
  have hle := h.length_le_of_directory hkept
  rw [r.length_place] at hle
  omega

/-- A file that is written holds other recordings than before, and the rest is kept. -/
theorem rewrite (h : Keeps records u) {r : Recording} {u₁ u' : Tree}
    (hmade : u.makeDirectories r.day = some u₁) {records' : List Recording}
    (hwrite : u₁.write (.compressed (linesOf (filed records' r.place))) r.place = some u')
    (hdays : records'.map Recording.day = records.map Recording.day ++ [r.day])
    (hplace : filed records' r.place ≠ [])
    (hothers : ∀ p, p ≠ r.place → filed records' p = filed records p) : Keeps records' u' := by
  have hspot (q : Path) : u'.spot q =
      if q = r.place then .file (.compressed (linesOf (filed records' r.place)))
      else if q <+: r.day then .directory else u.spot q := by
    rw [Tree.spot_write hwrite, Tree.spot_makeDirectories hmade]
  refine ⟨(h.tidy.makeDirectories hmade).write hwrite, fun p => ?_, fun p content => ?_⟩
  · rw [hspot]
    by_cases heq : p = r.place
    · subst heq
      rw [if_pos rfl]
      exact iff_of_false nofun (r.place_not_directory records')
    · rw [if_neg heq, exists_prefix_day_iff hdays]
      by_cases hprefix : p <+: r.day
      · rw [if_pos hprefix]
        exact iff_of_true rfl (Or.inr (Or.inr hprefix))
      · rw [if_neg hprefix, h.directory_iff, or_iff_left hprefix]
  · rw [hspot]
    by_cases heq : p = r.place
    · subst heq
      rw [if_pos rfl]
      constructor
      · rintro ⟨⟩
        exact ⟨hplace, rfl⟩
      · rintro ⟨-, rfl⟩
        rfl
    · rw [if_neg heq, hothers p heq, ← h.file_iff]
      by_cases hprefix : p <+: r.day
      · have hle := Recording.length_le_of_prefix_day hprefix
        rw [if_pos hprefix, h.file_iff, filed_eq_nil (by omega)]
        simp
      · rw [if_neg hprefix]

/-- A run that is written to the end of its file is kept with those that were there. -/
theorem append (h : Keeps records u) {r : Recording} {u₁ u' : Tree}
    (hmade : u.makeDirectories r.day = some u₁)
    (hwrite : u₁.write (.compressed (linesOf (filed records r.place ++ [r.run]))) r.place =
      some u') : Keeps (records ++ [r]) u' := by
  have hfiled : filed (records ++ [r]) r.place = filed records r.place ++ [r.run] := by
    rw [filed_append, if_pos rfl]
  refine h.rewrite hmade (by rwa [hfiled]) List.map_append ?_ fun p hp => ?_
  · rw [hfiled]
    exact List.concat_ne_nil _ _
  · rw [filed_append, if_neg (Ne.symm hp), List.append_nil]

end Keeps

/-- What a recording needs: names that are not too long for files, and a text that is read as what
was written. -/
structure Recordable (r : Recording) : Prop where
  fits : ∀ name ∈ r.place, name.utf8ByteSize ≤ 255
  readsBack : ReadsBack r.run

/-- A recording goes to its file, and nothing else changes. -/
theorem exists_record {records : List Recording} {base : Path} {t u : Tree}
    (hbase : ∀ name ∈ base, Tree.isName name = true) (hlook : t.look base = .ok u)
    (h : Keeps records u) (hrecords : ∀ r ∈ records, ReadsBack r.run) {r : Recording}
    (hr : Recordable r) :
    ∃ t' u', record t base r.run r.now = .ok t' ∧ t'.look base = .ok u' ∧
      Keeps (records ++ [r]) u' := by
  have hnames : ∀ name ∈ r.place, Tree.isName name = true := fun name hname =>
    Recording.isName_of_mem_place hname (hr.fits name hname)
  have hday : ∀ name ∈ r.day, Tree.isName name = true := fun name hname =>
    hnames name (List.mem_append_left _ hname)
  have hfile : Tree.isName (fileName r.run.workflowId) = true :=
    hnames _ (List.mem_append_right _ List.mem_cons_self)
  -- The directory of the day is made below the directory of the log.
  obtain ⟨u₁, hmade⟩ := h.exists_makeDay hday
  obtain ⟨t₁, hmade', hlook₁⟩ := Tree.exists_makeDirectories_append hlook hbase hmade
  have hspot : t₁.spot (base ++ r.place) = u.spot r.place :=
    (Tree.spot_append hlook₁ _).trans (Keeps.spot_place_of_makeDay hmade)
  have hruns : runsAt t₁ (base ++ r.place) = .ok (filed records r.place) :=
    h.runsAt_eq hrecords hspot (Nat.lt_succ_self 4)
  -- The file is written with the runs that were there and the new one.
  obtain ⟨u', hwrite⟩ := h.exists_writeFile hmade hfile
    (.compressed (linesOf (filed records r.place ++ [r.run])))
  obtain ⟨t', hwrite', hlook'⟩ := Tree.exists_write_append hlook₁ hwrite
  refine ⟨t', u', ?_, hlook', ?_⟩
  · rw [record]
    simp only [r.place_eq, r.dropLast_place, hmade', hruns, bind, Except.bind]
    rw [show t₁.write _ (base ++ r.place) = some t' from hwrite']
    rfl
  · exact h.append hmade hwrite

theorem exists_recordAll {base : Path} (hbase : ∀ name ∈ base, Tree.isName name = true)
    {records : List Recording} (hrecords : ∀ r ∈ records, Recordable r) {t u : Tree}
    (hlook : t.look base = .ok u) {earlier : List Recording} (h : Keeps earlier u)
    (hearlier : ∀ r ∈ earlier, ReadsBack r.run) :
    ∃ t' u', recordAll t base records = .ok t' ∧ t'.look base = .ok u' ∧
      Keeps (earlier ++ records) u' := by
  induction records generalizing t u earlier with
  | nil => exact ⟨t, u, rfl, hlook, by rwa [List.append_nil]⟩
  | cons r rest ih =>
    obtain ⟨hr, hrest⟩ := List.forall_mem_cons.1 hrecords
    obtain ⟨t₁, u₁, hrecord, hlook₁, hkeeps₁⟩ := exists_record hbase hlook h hearlier hr
    have hreads : ∀ r' ∈ earlier ++ [r], ReadsBack r'.run := by
      intro r' hr'
      rcases List.mem_append.1 hr' with hold | hnew
      · exact hearlier r' hold
      · rw [List.mem_singleton.1 hnew]
        exact hr.readsBack
    obtain ⟨t', u', hall, hlook', hkeeps'⟩ := ih hrest hlook₁ hkeeps₁ hreads
    refine ⟨t', u', ?_, hlook', by rwa [List.append_cons]⟩
    rw [recordAll, List.foldlM_cons, hrecord]
    exact hall

end Workflow.Storage.RunLog
