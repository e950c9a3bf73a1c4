import Mathlib
import Workflow.Proofs.Queries
import Workflow.Proofs.States

/-!
Which recordings and queries succeed. The writer takes every run and the reader only runs that are
not nested too deep, so one deeper run is written and makes its file unreadable: from then on every
recording into that file and every query for its name fails. A run whose file name is too long is
not written at all. Nothing else keeps a recording or a query from succeeding.
-/
namespace Workflow.Storage.RunLog

open Json.Reader (greatestDepth)
open Run (State)
open Time (Timestamp)

/-! ## Files that can be read -/

/-- A run that the reader can read: it is not nested too deep. -/
def Readable (s : State) : Prop := s.document.depth ≤ greatestDepth

instance (s : State) : Decidable (Readable s) := Nat.decLe _ _

section Files

variable {ss : List State}

/-- A run is read from its line if it is readable, and otherwise its file is not read. -/
theorem runsOf_readable (h : ∀ s ∈ ss, s.Proper) (hreadable : ∀ s ∈ ss, Readable s) :
    runsOf (linesOf ss) = .ok (ss.map State.reread) := by
  rw [runsOf_linesOf_eq]
  refine Fallible.mapM_eq_map fun s hs => ?_
  rw [State.decodeText_document (h s hs) (hreadable s hs)]
  rfl

theorem exists_runsOf_iff (h : ∀ s ∈ ss, s.Proper) :
    (∃ read, runsOf (linesOf ss) = .ok read) ↔ ∀ s ∈ ss, Readable s := by
  constructor
  · rintro hread s hs
    rw [runsOf_linesOf_eq, Fallible.exists_mapM_iff] at hread
    obtain ⟨s', hs'⟩ := hread s hs
    cases hdecoded : Json.decodeText State.decoder s.document.compact with
    | ok s'' => exact State.depth_le_of_decodeText (h s hs) hdecoded
    | error e =>
      rw [hdecoded] at hs'
      cases hs'
  · exact fun hreadable => ⟨_, runsOf_readable h hreadable⟩

end Files

/-! ## Names that files can have -/

theorem utf8ByteSize_le (s : String) : s.utf8ByteSize ≤ 4 * s.toList.length := by
  rw [← @String.ofList_toList s, String.utf8ByteSize_ofList, String.toList_ofList]
  induction s.toList with
  | nil => exact Nat.le_refl 0
  | cons c cs ih =>
    have := Char.utf8Size_le_four c
    rw [String.utf8Len_cons, List.length_cons]
    omega

theorem length_padded_le (width : Nat) {n places : Nat} (hpos : 0 < places) (h : n < 10 ^ places) :
    (Time.padded width n).toList.length ≤ max width places := by
  have hle := (Nat.length_toDigits_le_iff (show 1 < 10 by decide) hpos).2 h
  rw [Time.padded, String.toList_ofList, List.length_append, List.length_replicate]
  omega

theorem utf8ByteSize_of_mem_dayPath {t : Timestamp} (ht : t.Proper) {name : String}
    (h : name ∈ dayPath t) : name.utf8ByteSize ≤ 255 := by
  have hshort : ∀ s : String, s.toList.length ≤ 9 → s.utf8ByteSize ≤ 255 := fun s hs => by
    have := utf8ByteSize_le s
    omega
  have hvalid := Time.Date.isValid_ofDays (t.seconds / Timestamp.secondsOfDay)
  rw [← Timestamp.date] at hvalid
  obtain ⟨⟨-, hmonth⟩, -, hday⟩ := Time.Date.bounds_of_isValid hvalid
  obtain ⟨hlow, hhigh, -⟩ := ht
  simp only [dayPath, List.mem_cons, List.not_mem_nil, or_false] at h
  rcases h with rfl | rfl | rfl | rfl
  · decide
  · refine hshort _ ?_
    rw [yearName]
    have hyear : t.date.year.natAbs < 10 ^ 6 := by omega
    split
    · have := length_padded_le 3 (by decide) hyear
      rw [String.toList_append, List.length_append]
      exact Nat.le_trans (Nat.add_le_add_left this 1) (by decide)
    · exact (length_padded_le 4 (by decide) hyear).trans (by decide)
  · exact hshort _ ((length_padded_le 2 (show 0 < 2 by decide) (by omega)).trans (by decide))
  · exact hshort _ ((length_padded_le 2 (show 0 < 2 by decide) (by omega)).trans (by decide))

namespace Recording

/-- A recording as there can be. -/
structure Proper (r : Recording) : Prop where
  run : r.run.Proper
  now : r.now.Proper

def Fits (r : Recording) : Prop := (fileName r.run.workflowId).utf8ByteSize ≤ 255

instance (r : Recording) : Decidable r.Fits := Nat.decLe _ _

/-- The recording with what is read of its run. -/
def reread (r : Recording) : Recording := { r with run := r.run.reread }

theorem Proper.moment {r : Recording} (h : r.Proper) : r.moment.Proper := by
  rw [Recording.moment]
  cases hstart : r.run.startTime with
  | none => exact h.now
  | some t => exact h.run.startTime t hstart

/-- What is read of a run belongs to the same file. -/
theorem place_reread {r : Recording} (h : r.run.Proper) (hreadable : Readable r.run) :
    r.reread.place = r.place ∧ r.reread.day = r.day := by
  obtain ⟨-, -, hstart, hworkflow⟩ := State.reread_proper h hreadable
  simp only [place, day, moment, reread, hstart, hworkflow, and_self]

theorem Fits.of_place_eq {r r' : Recording} (h : r.Fits) (hplace : r'.place = r.place) :
    r'.Fits := by
  rw [place, place] at hplace
  have hname := List.append_inj_right hplace (by rw [length_day, length_day])
  rw [Fits, (List.cons.inj hname).1]
  exact h

theorem isName_of_mem_day {r : Recording} (h : r.Proper) :
    ∀ name ∈ r.day, Tree.isName name = true :=
  fun _ hname => isName_of_mem_place (List.mem_append_left _ hname)
    (utf8ByteSize_of_mem_dayPath h.moment hname)

theorem isName_fileName_iff (r : Recording) :
    Tree.isName (fileName r.run.workflowId) = true ↔ r.Fits :=
  Tree.isName_iff.trans (and_iff_left (null_notMem_fileName _))

end Recording

/-- Records a run if it can be; what there is stays as it is otherwise. -/
def attempt (t : Tree) (base : Path) (r : Recording) : Tree :=
  (record t base r.run r.now).toOption.getD t

def attemptAll (t : Tree) (base : Path) (attempts : List Recording) : Tree :=
  attempts.foldl (attempt · base) t

/-- The recordings whose runs stand in the files when some have been attempted. -/
structure Tracks (attempts records : List Recording) : Prop where
  proper : ∀ x ∈ records, x.run.Proper
  fits : ∀ x ∈ records, x.Fits
  readable_iff : ∀ p, (∀ s ∈ filed records p, Readable s) ↔
    ∀ x ∈ attempts, x.Fits → x.place = p → Readable x.run

theorem mem_filed {records : List Recording} {p : Path} {s : State} :
    s ∈ filed records p ↔ ∃ x ∈ records, x.place = p ∧ x.run = s := by
  simp [filed, and_assoc]

/-- The recordings when the runs of one file are rewritten as they are read. -/
def rewritten (records : List Recording) (p : Path) : List Recording :=
  records.map fun x => if x.place = p then x.reread else x

section Rewritten

variable {records : List Recording} {p : Path} (hproper : ∀ x ∈ records, x.run.Proper)
  (hreadable : ∀ s ∈ filed records p, Readable s)

include hproper hreadable

theorem place_rewritten {x : Recording} (hx : x ∈ records) :
    (if x.place = p then x.reread else x).place = x.place ∧
      (if x.place = p then x.reread else x).day = x.day := by
  split
  · rename_i hplace
    exact x.place_reread (hproper x hx) (hreadable _ (mem_filed.2 ⟨x, hx, hplace, rfl⟩))
  · exact ⟨rfl, rfl⟩

theorem map_day_rewritten :
    (rewritten records p).map Recording.day = records.map Recording.day := by
  rw [rewritten, List.map_map]
  exact List.map_congr_left fun x hx => (place_rewritten hproper hreadable hx).2

theorem filed_rewritten (q : Path) : filed (rewritten records p) q =
    if q = p then (filed records p).map State.reread else filed records q := by
  have hfilter : (rewritten records p).filter (·.place = q) =
      (records.filter (·.place = q)).map fun x => if x.place = p then x.reread else x := by
    rw [rewritten, List.filter_map]
    congr 1
    refine List.filter_congr fun x hx => ?_
    rw [Function.comp_apply, (place_rewritten hproper hreadable hx).1]
  rw [filed, hfilter, List.map_map]
  split
  · rename_i hq
    subst hq
    rw [filed, List.map_map]
    refine List.map_congr_left fun x hx => ?_
    simp only [Function.comp_apply, if_pos (of_decide_eq_true (List.mem_filter.1 hx).2)]
    rfl
  · rename_i hq
    refine List.map_congr_left fun x hx => ?_
    have hplace := of_decide_eq_true (List.mem_filter.1 hx).2
    rw [Function.comp_apply, if_neg (hplace ▸ hq)]

end Rewritten

namespace Tracks

variable {attempts records : List Recording}

theorem empty : Tracks [] [] where
  proper := List.forall_mem_nil _
  fits := List.forall_mem_nil _
  readable_iff p := by simp [filed]

theorem proper_filed (h : Tracks attempts records) (p : Path) :
    ∀ s ∈ filed records p, s.Proper := by
  intro s hs
  obtain ⟨x, hx, -, rfl⟩ := mem_filed.1 hs
  exact h.proper x hx

/-- A run that is recorded goes to the end of its file, whose other runs are readable. -/
theorem rewrite (h : Tracks attempts records) {r : Recording} (hr : r.run.Proper)
    (hfits : r.Fits) (hreadable : ∀ s ∈ filed records r.place, Readable s) :
    Tracks (attempts ++ [r]) (rewritten records r.place ++ [r]) where
  proper x hx := by
    rcases List.mem_append.1 hx with hx | hx
    · obtain ⟨y, hy, rfl⟩ := List.mem_map.1 hx
      split
      · rename_i hplace
        exact (State.reread_proper (h.proper y hy)
          (hreadable _ (mem_filed.2 ⟨y, hy, hplace, rfl⟩))).1
      · exact h.proper y hy
    · rw [List.mem_singleton.1 hx]
      exact hr
  fits x hx := by
    rcases List.mem_append.1 hx with hx | hx
    · obtain ⟨y, hy, rfl⟩ := List.mem_map.1 hx
      exact (h.fits y hy).of_place_eq (place_rewritten h.proper hreadable hy).1
    · rw [List.mem_singleton.1 hx]
      exact hfits
  readable_iff p := by
    rw [filed_append, filed_rewritten h.proper hreadable, List.forall_mem_append,
      List.forall_mem_append, List.forall_mem_singleton]
    by_cases hp : p = r.place
    · subst hp
      have hread : ∀ s ∈ (filed records r.place).map State.reread, Readable s := by
        intro _ hread
        obtain ⟨s, hs, rfl⟩ := List.mem_map.1 hread
        exact (State.reread_proper (h.proper_filed _ s hs) (hreadable s hs)).2.1
      have hearlier := (h.readable_iff r.place).1 hreadable
      rw [if_pos rfl, if_pos rfl, List.forall_mem_singleton]
      exact ⟨fun hnew => ⟨hearlier, fun _ _ => hnew.2⟩, fun hall => ⟨hread, hall.2 hfits rfl⟩⟩
    · rw [if_neg hp, if_neg (Ne.symm hp), h.readable_iff]
      exact ⟨fun hall => ⟨hall.1, fun _ hplace => absurd hplace.symm hp⟩,
        fun hall => ⟨hall.1, List.forall_mem_nil _⟩⟩

end Tracks

/-! ## Recording and querying -/

section Step

variable {base : Path} {t u : Tree} {attempts records : List Recording} {r : Recording}

/-- A file is read when a run is recorded into it. -/
theorem exists_makeDay_look (hbase : ∀ name ∈ base, Tree.isName name = true)
    (hlook : t.look base = .ok u) (h : Keeps records u) (hr : r.Proper) :
    ∃ u₁ t₁, u.makeDirectories r.day = some u₁ ∧ t.makeDirectories (base ++ r.day) = some t₁ ∧
      t₁.look base = .ok u₁ ∧
      runsAt t₁ (base ++ r.place) = runsOf (linesOf (filed records r.place)) := by
  obtain ⟨u₁, hmade⟩ := h.exists_makeDay (Recording.isName_of_mem_day hr)
  obtain ⟨t₁, hmade', hlook₁⟩ := Tree.exists_makeDirectories_append hlook hbase hmade
  refine ⟨u₁, t₁, hmade, hmade', hlook₁, ?_⟩
  have hspot : t₁.spot (base ++ r.place) = u.spot r.place :=
    (Tree.spot_append hlook₁ _).trans (Keeps.spot_place_of_makeDay hmade)
  exact h.runsAt_eq_runsOf hspot (Nat.lt_succ_self 4)

theorem not_exists_record (hbase : ∀ name ∈ base, Tree.isName name = true)
    (hlook : t.look base = .ok u) (h : Keeps records u) (htracks : Tracks attempts records)
    (hr : r.Proper) (hfails : ¬ (r.Fits ∧ ∀ s ∈ filed records r.place, Readable s)) :
    ¬ ∃ t', record t base r.run r.now = .ok t' := by
  obtain ⟨u₁, t₁, -, hmade, -, hruns⟩ := exists_makeDay_look hbase hlook h hr
  rintro ⟨t', hrecord⟩
  rw [record] at hrecord
  simp only [r.place_eq, r.dropLast_place, hmade, hruns] at hrecord
  obtain ⟨read, hread, hwritten⟩ := Fallible.bind_eq_ok.1 hrecord
  have hreadable := (exists_runsOf_iff (htracks.proper_filed _)).1 ⟨read, hread⟩
  have hname : Tree.isName (fileName r.run.workflowId) = false := by
    rw [Bool.eq_false_iff]
    exact fun hname => hfails ⟨r.isName_fileName_iff.1 hname, hreadable⟩
  rw [Recording.place, ← List.append_assoc, Tree.write_eq_none _ hname] at hwritten
  cases hwritten

/-- Any other run is recorded; the runs of its file are rewritten as they are read. -/
theorem exists_record_tracks (hbase : ∀ name ∈ base, Tree.isName name = true)
    (hlook : t.look base = .ok u) (h : Keeps records u) (htracks : Tracks attempts records)
    (hr : r.Proper) (hfits : r.Fits) (hreadable : ∀ s ∈ filed records r.place, Readable s) :
    ∃ t' u' records', record t base r.run r.now = .ok t' ∧ t'.look base = .ok u' ∧
      Keeps records' u' ∧ Tracks (attempts ++ [r]) records' := by
  obtain ⟨u₁, t₁, hmade, hmade', hlook₁, hruns⟩ := exists_makeDay_look hbase hlook h hr
  rw [runsOf_readable (htracks.proper_filed _) hreadable] at hruns
  have hfiled : filed (rewritten records r.place ++ [r]) r.place =
      (filed records r.place).map State.reread ++ [r.run] := by
    rw [filed_append, if_pos rfl, filed_rewritten htracks.proper hreadable,
      if_pos rfl]
  obtain ⟨u', hwrite⟩ := h.exists_writeFile hmade (r.isName_fileName_iff.2 hfits)
    (.compressed (linesOf (filed (rewritten records r.place ++ [r]) r.place)))
  obtain ⟨t', hwrite', hlook'⟩ := Tree.exists_write_append hlook₁ hwrite
  refine ⟨t', u', rewritten records r.place ++ [r], ?_, hlook', ?_,
    htracks.rewrite hr.run hfits hreadable⟩
  · rw [record]
    simp only [r.place_eq, r.dropLast_place, hmade', hruns, bind, Except.bind, ← hfiled]
    rw [show t₁.write _ (base ++ r.place) = some t' from hwrite']
    rfl
  · refine h.rewrite hmade hwrite ?_ ?_ fun p hp => ?_
    · rw [List.map_append, map_day_rewritten htracks.proper hreadable]
      rfl
    · rw [hfiled]
      exact List.concat_ne_nil _ _
    · rw [filed_append, if_neg (Ne.symm hp), List.append_nil,
        filed_rewritten htracks.proper hreadable, if_neg hp]

/-- Whether a recording succeeds hangs on the name of its file and on what was recorded there. -/
theorem exists_record_iff (hbase : ∀ name ∈ base, Tree.isName name = true)
    (hlook : t.look base = .ok u) (h : Keeps records u) (htracks : Tracks attempts records)
    (hr : r.Proper) : (∃ t', record t base r.run r.now = .ok t') ↔
      r.Fits ∧ ∀ x ∈ attempts, x.place = r.place → Readable x.run := by
  have hfile : (r.Fits ∧ ∀ s ∈ filed records r.place, Readable s) ↔
      r.Fits ∧ ∀ x ∈ attempts, x.place = r.place → Readable x.run := by
    refine and_congr_right fun hfits => ?_
    rw [htracks.readable_iff]
    exact ⟨fun hall x hx hplace => hall x hx (hfits.of_place_eq hplace) hplace,
      fun hall x hx _ hplace => hall x hx hplace⟩
  rw [← hfile]
  constructor
  · intro hrecord
    by_contra hfails
    exact not_exists_record hbase hlook h htracks hr hfails hrecord
  · rintro ⟨hfits, hreadable⟩
    obtain ⟨t', -, -, hrecord, -⟩ :=
      exists_record_tracks hbase hlook h htracks hr hfits hreadable
    exact ⟨t', hrecord⟩

theorem exists_attempt (hbase : ∀ name ∈ base, Tree.isName name = true)
    (hlook : t.look base = .ok u) (h : Keeps records u) (htracks : Tracks attempts records)
    (hr : r.Proper) : ∃ u' records', (attempt t base r).look base = .ok u' ∧ Keeps records' u' ∧
      Tracks (attempts ++ [r]) records' := by
  by_cases hready : r.Fits ∧ ∀ s ∈ filed records r.place, Readable s
  · obtain ⟨t', u', records', hrecord, hlook', hkeeps, htracks'⟩ :=
      exists_record_tracks hbase hlook h htracks hr hready.1 hready.2
    refine ⟨u', records', ?_, hkeeps, htracks'⟩
    rw [attempt, hrecord]
    exact hlook'
  · -- The attempt fails, and its file is as unreadable as it was.
    have hfailed := not_exists_record hbase hlook h htracks hr hready
    refine ⟨u, records, ?_, h, htracks.proper, htracks.fits, fun p => ?_⟩
    · rw [attempt]
      cases hrecord : record t base r.run r.now with
      | ok t' => exact absurd ⟨t', hrecord⟩ hfailed
      | error e => exact hlook
    · rw [htracks.readable_iff, List.forall_mem_append, List.forall_mem_singleton]
      refine ⟨fun hall => ⟨hall, fun hfits hplace => ?_⟩, And.left⟩
      subst hplace
      exact absurd ⟨hfits, (htracks.readable_iff _).2 hall⟩ hready

theorem exists_attemptAll (hbase : ∀ name ∈ base, Tree.isName name = true)
    (hlook : t.look base = .ok u) (h : Keeps records u) (htracks : Tracks attempts records)
    {later : List Recording} (hlater : ∀ r ∈ later, r.Proper) :
    ∃ u' records', (attemptAll t base later).look base = .ok u' ∧ Keeps records' u' ∧
      Tracks (attempts ++ later) records' := by
  induction later generalizing t u attempts records with
  | nil => exact ⟨u, records, hlook, h, by rwa [List.append_nil]⟩
  | cons r rest ih =>
    obtain ⟨hr, hrest⟩ := List.forall_mem_cons.1 hlater
    obtain ⟨u₁, records₁, hlook₁, hkeeps₁, htracks₁⟩ := exists_attempt hbase hlook h htracks hr
    rw [List.append_cons]
    exact ih hlook₁ hkeeps₁ htracks₁ hrest

/-- A query succeeds if the files that it reads can be read. -/
theorem exists_runs_iff_of_days (hlook : t.look base = .ok u) (h : Keeps records u)
    (htracks : Tracks attempts records) {name : String} {found : List Path}
    (hdays : days t base name = .ok found) (hlength : ∀ day ∈ found, day.length = 3)
    (workflow : String) : (∃ answer, runs t base name workflow = .ok answer) ↔
      ∀ day ∈ found, ∀ s ∈ filed records (root :: day ++ [fileName workflow]), Readable s := by
  have hfile : ∀ day ∈ found, runsAt t (base ++ root :: day ++ [fileName workflow]) =
      runsOf (linesOf (filed records (root :: day ++ [fileName workflow]))) := by
    intro day hday
    refine h.runsAt_eq_runsOf ?_ ?_
    · rw [List.append_assoc, Tree.spot_append hlook]
    · simp [hlength day hday]
  have hread : (∃ read, found.mapM (fun day =>
      runsAt t (base ++ root :: day ++ [fileName workflow])) = .ok read) ↔
        ∀ day ∈ found, ∀ s ∈ filed records (root :: day ++ [fileName workflow]), Readable s := by
    rw [Fallible.exists_mapM_iff]
    refine forall₂_congr fun day hday => ?_
    rw [hfile day hday, exists_runsOf_iff (htracks.proper_filed _)]
  rw [← hread, runs, hdays]
  constructor
  · rintro ⟨answer, hanswer⟩
    obtain ⟨_, ⟨⟩, hcollected⟩ := Fallible.bind_eq_ok.1 hanswer
    obtain ⟨read, hread, -⟩ := Fallible.bind_eq_ok.1 hcollected
    exact ⟨read, hread⟩
  · rintro ⟨read, hread⟩
    exact ⟨_, Fallible.bind_eq_ok.2 ⟨found, rfl, Fallible.bind_eq_ok.2 ⟨read, hread, rfl⟩⟩⟩

/-- Whether a query succeeds hangs on the files of its name. -/
theorem exists_runs_iff (hlook : t.look base = .ok u) (h : Keeps records u)
    (htracks : Tracks attempts records) (name workflow : String) :
    (∃ answer, runs t base name workflow = .ok answer) ↔
      ∀ x ∈ attempts, x.Fits → fileName x.run.workflowId = fileName workflow → Readable x.run := by
  obtain ⟨found, hdays, -, hlength, hfound⟩ := exists_days hlook h name
  rw [exists_runs_iff_of_days hlook h htracks hdays hlength]
  constructor
  · intro hall x hx hfits hname
    refine (htracks.readable_iff x.place).1 (fun s hs => ?_) x hx hfits rfl
    obtain ⟨y, hy, hplace, -⟩ := mem_filed.1 hs
    obtain ⟨day, hday, hroot⟩ := hfound y hy
    have hfile : x.place = root :: day ++ [fileName workflow] := by
      have hlast := (List.append_inj' hplace rfl).2
      rw [← hplace, Recording.place, hroot, hlast, hname]
    exact hall day hday s (hfile ▸ hs)
  · intro hall day _
    refine (htracks.readable_iff _).2 fun x hx hfits hplace => hall x hx hfits ?_
    exact (List.cons.inj (List.append_inj' hplace rfl).2).1

end Step

/-! ## What stands in the way -/

/-- What keeps a recording or a query from succeeding. Over a directory that is empty at first, runs
are recorded one after the other, as far as they can be. Recording one more run then succeeds just
if the name of its file is not too long and no run was recorded into that file before that is nested
deeper than the reader goes; and a query succeeds just if no such run was recorded into any of the
files that it reads. So one run that is nested too deep, which is recorded like any other, is an
obstacle to all later recordings into its file and to all later queries that read it. -/
theorem record_runs_attemptAll {base : Path} {t : Tree}
    (hempty : t.look base = .ok (.directory []))
    (hbase : ∀ name ∈ base, Tree.isName name = true) {attempts : List Recording}
    (h : ∀ r ∈ attempts, r.Proper) :
    (∀ r : Recording, r.Proper →
      ((∃ t', record (attemptAll t base attempts) base r.run r.now = .ok t') ↔
        r.Fits ∧ ∀ x ∈ attempts, x.place = r.place → Readable x.run)) ∧
      ∀ name workflow,
        (∃ answer, runs (attemptAll t base attempts) base name workflow = .ok answer) ↔
          ∀ x ∈ attempts, x.Fits → fileName x.run.workflowId = fileName workflow →
            Readable x.run := by
  obtain ⟨u, records, hlook, hkeeps, htracks⟩ := exists_attemptAll hbase hempty .empty .empty h
  rw [List.nil_append] at htracks
  exact ⟨fun r hr => exists_record_iff hbase hlook hkeeps htracks hr,
    fun name workflow => exists_runs_iff hlook hkeeps htracks name workflow⟩

/-- Lists inside each other. -/
def nested : Nat → Json
  | 0 => .array []
  | n + 1 => .array [nested n]

theorem depth_nested (n : Nat) : (nested n).depth = n + 1 := by
  induction n with
  | zero => rfl
  | succ n ih => rw [nested, Json.depth, Json.depthOfItems, ih, Json.depthOfItems, Nat.max_zero]

theorem numbers_nested (n : Nat) : (nested n).numbers = [] := by
  induction n with
  | zero => rfl
  | succ n ih => rw [nested, Json.numbers, Json.numbersOfItems, ih]; rfl

/-- A run that has done nothing yet, with some input. -/
def arrival (workflow : String) (input : Payload) : Recording :=
  ⟨State.new ⟨List.replicate 32 '0'⟩ workflow input, ⟨0, 0⟩⟩

/-- An input that is nested as deep as the reader goes. -/
def deepInput : Payload := [("lists", nested 125)]

/-- The shared store of a new run holds two texts. -/
theorem numbers_globalState (workflow : String) (input : Payload) :
    (Json.object (arrival workflow input).run.globalState).numbers = [] := by
  have hwithin : (Json.object (arrival workflow input).run.globalState).Within
      (.object [("workflow_id", .string workflow),
        ("execution_id", (arrival workflow input).run.id.toJson)]) :=
    .object fun e he => ⟨e, Payload.mem_of_mem_ofList he, .refl _⟩
  exact List.subset_nil.1 hwithin.numbers_subset

/-- The only numbers of a new run are those of its input. -/
theorem proper_arrival (workflow : String) {input : Payload}
    (hinput : (Json.object input).numbers = []) : (arrival workflow input).Proper := by
  have hid : Run.Id.Proper ⟨List.replicate 32 '0'⟩ := by
    refine ⟨List.length_replicate, fun c hc => ?_, fun c hc => ?_⟩
    · rw [List.eq_of_mem_replicate hc]
      rfl
    · rw [List.eq_of_mem_replicate hc]
      rfl
  have hnow : Timestamp.Proper ⟨0, 0⟩ := ⟨by decide, by decide, by decide⟩
  have hnumbers : (arrival workflow input).run.document.numbers =
      (Json.object input).numbers ++
        (Json.object (arrival workflow input).run.globalState).numbers := by
    rw [← List.append_nil (Json.numbers (.object (arrival workflow input).run.globalState))]
    rfl
  refine ⟨⟨hid, nofun, nofun, List.forall_mem_nil _, ?_⟩, hnow⟩
  rw [hnumbers, hinput, numbers_globalState]
  exact List.forall_mem_nil _

/-- A run is nested deeper than its input. -/
theorem depth_input_lt (s : State) : (Json.object s.input).depth < s.document.depth := by
  have hmem : ("input_data", Json.object s.input) ∈
      s.entries (s.results.map fun r => .object r.entries) := by
    simp [State.entries]
  have hle := Json.depthOfFields_le_iff.1 (Nat.le_refl _) _ hmem
  rw [State.document, Json.depth]
  exact Nat.lt_succ_of_le hle

theorem numbers_deepInput : (Json.object deepInput).numbers = [] := by
  rw [deepInput, Json.numbers, Json.numbersOfFields, numbers_nested]
  rfl

theorem depth_deepInput : (Json.object deepInput).depth = greatestDepth := by
  rw [deepInput, Json.depth, Json.depthOfFields, depth_nested]
  rfl

theorem not_readable_deepInput (workflow : String) :
    ¬ Readable (arrival workflow deepInput).run :=
  Nat.not_le.2 (depth_deepInput ▸ depth_input_lt (arrival workflow deepInput).run)

def emptyLog : Tree := .directory [("log", .directory [])]

theorem record_runs_attemptAll_deepInput :
    (¬ ∃ t, record (attemptAll emptyLog ["log"] [arrival "deep" deepInput]) ["log"]
        (arrival "deep" []).run ⟨0, 0⟩ = .ok t) ∧
      (∃ t, record (attemptAll emptyLog ["log"] [arrival "deep" deepInput]) ["log"]
        (arrival "flat" []).run ⟨0, 0⟩ = .ok t) ∧
      (¬ ∃ answer, runs (attemptAll emptyLog ["log"] [arrival "deep" deepInput]) ["log"] "log"
        "deep" = .ok answer) ∧
      ∃ answer, runs (attemptAll emptyLog ["log"] [arrival "deep" deepInput]) ["log"] "log"
        "flat" = .ok answer := by
  obtain ⟨hrecord, hruns⟩ := @record_runs_attemptAll ["log"] emptyLog rfl (by decide)
    [arrival "deep" deepInput]
    (List.forall_mem_singleton.2 (proper_arrival "deep" numbers_deepInput))
  refine ⟨fun h => ?_, (hrecord (arrival "flat" []) (proper_arrival "flat" rfl)).2 ⟨by decide, ?_⟩,
    fun h => ?_, (hruns _ _).2 ?_⟩
  · have hfile := ((hrecord (arrival "deep" []) (proper_arrival "deep" rfl)).1 h).2
    exact not_readable_deepInput "deep" (hfile _ List.mem_cons_self rfl)
  · rw [List.forall_mem_singleton]
    intro hplace
    exact absurd hplace (by decide)
  · have hfile := (hruns "log" "deep").1 h
    exact not_readable_deepInput "deep" (hfile _ List.mem_cons_self (by decide) rfl)
  · rw [List.forall_mem_singleton]
    intro _ hname
    exact absurd hname (by decide)

/-- A run whose input the reader takes is recorded, and then its file takes no other run and cannot
be queried any more. -/
theorem record_deepInput :
    (∃ input, Json.parse (Json.object deepInput).compact = .ok input) ∧
      (arrival "deep" deepInput).Proper ∧
      ∃ t, record emptyLog ["log"] (arrival "deep" deepInput).run ⟨0, 0⟩ = .ok t ∧
        (¬ ∃ t', record t ["log"] (arrival "deep" []).run ⟨0, 0⟩ = .ok t') ∧
        ¬ ∃ answer, runs t ["log"] "log" "deep" = .ok answer := by
  have hproper := proper_arrival "deep" numbers_deepInput
  have hbase : ∀ name ∈ ["log"], Tree.isName name = true := by decide
  have hlook : emptyLog.look ["log"] = .ok (.directory []) := rfl
  refine ⟨?_, hproper, ?_⟩
  · have hdraft := Json.readDraft_object deepInput
      (fun n hn => Json.Number.readsAs_reread (by rw [numbers_deepInput] at hn; cases hn))
      (Nat.le_of_eq depth_deepInput)
    obtain ⟨input, hinput, -⟩ :=
      Json.exists_toJson ((Json.object deepInput).mapNumbers Json.Number.reread)
    refine ⟨input, ?_⟩
    rw [Json.parse, hdraft, Json.Document.toJson, hinput]
    rfl
  · obtain ⟨t, u, records, hrecord, hlook', hkeeps, htracks⟩ :=
      exists_record_tracks hbase hlook .empty .empty hproper (by decide) (List.forall_mem_nil _)
    refine ⟨t, hrecord, fun hlater => ?_, fun hquery => ?_⟩
    · have hfile := ((exists_record_iff (r := arrival "deep" []) hbase hlook' hkeeps htracks
        (proper_arrival "deep" rfl)).1 hlater).2
      exact not_readable_deepInput "deep" (hfile _ List.mem_cons_self rfl)
    · have hfile := (exists_runs_iff hlook' hkeeps htracks "log" "deep").1 hquery
      exact not_readable_deepInput "deep" (hfile _ List.mem_cons_self (by decide) rfl)

end Workflow.Storage.RunLog
