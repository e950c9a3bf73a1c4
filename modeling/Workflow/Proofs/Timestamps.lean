import Workflow.Proofs.Dates
import Workflow.Proofs.Numerals
import Workflow.Time.Timestamp

/-!
The texts of moments are read back: each number of a date and a time is written in digits that are
enough for it, and what stands behind them begins with no digit. Whatever else is read as a moment
is one that there is.
-/
namespace Workflow.Time

open Json (Digital)

/-! ## Padded numbers -/

theorem length_padded {width n : Nat} (hpos : 0 < width) (h : n < 10 ^ width) :
    (padded width n).toList.length = width := by
  have hle := (Nat.length_toDigits_le_iff (show 1 < 10 by decide) hpos).2 h
  rw [padded, String.toList_ofList, List.length_append, List.length_replicate]
  omega

theorem padded_ne_nil (width n : Nat) : (padded width n).toList ≠ [] := by
  rw [padded, String.toList_ofList]
  exact List.append_ne_nil_of_right_ne_nil _ Nat.toDigits_ne_nil

theorem digital_padded (width n : Nat) : Digital (padded width n).toList := by
  rw [padded, String.toList_ofList]
  intro c hc
  rcases List.mem_append.1 hc with hzero | hdigit
  · rw [(List.mem_replicate.1 hzero).2]
    rfl
  · exact Json.digital_toDigits n c hdigit

theorem ofDigitChars_padded (width n : Nat) :
    Nat.ofDigitChars 10 (padded width n).toList 0 = n := by
  rw [padded, String.toList_ofList, Nat.ofDigitChars_append, Nat.ofDigitChars_replicate_zero,
    Nat.mul_zero, Nat.ofDigitChars_ten_toDigits]

namespace Timestamp

theorem isYear_iff {year : Int} : isYear year ↔ -262143 ≤ year ∧ year ≤ 262142 := by
  rw [isYear, Bool.and_eq_true, decide_eq_true_eq, decide_eq_true_eq]

namespace Scan

section

variable {α β : Type} {s s' : List Char}

/-- What is read first leaves the rest of the text to what is read then. -/
theorem run_bind_of_ok {x : Scan α} {f : α → Scan β} {a : α} (h : x.run s = .ok (a, s')) :
    (x >>= f).run s = (f a).run s' := by
  rw [StateT.run_bind, h]
  rfl

theorem run_get_bind (f : List Char → Scan β) : (get >>= f).run s = (f s).run s := rfl

theorem run_set_bind (f : PUnit → Scan β) : (set s' >>= f).run s = (f ⟨⟩).run s' := rfl

end

variable {cs rest : List Char}

/-- At most so many digits at the front of a text. -/
theorem takeWhile_take_append {width : Nat} (hdigital : Digital cs) (hlength : cs.length ≤ width)
    (hrest : cs.length = width ∨ ∀ c ∈ rest.head?, c.isDigit = false) :
    ((cs ++ rest).take width).takeWhile Char.isDigit = cs := by
  rw [List.take_append, List.take_of_length_le hlength, List.takeWhile_append_of_pos hdigital]
  have hnil : (rest.take (width - cs.length)).takeWhile Char.isDigit = [] := by
    rcases hrest with rfl | hrest
    · rw [Nat.sub_self]
      rfl
    · cases rest with
      | nil =>
        rw [List.take_nil]
        rfl
      | cons c rest =>
        cases width - cs.length with
        | zero => rfl
        | succ k => rw [List.take_succ_cons, List.takeWhile_cons_of_neg (by simp [hrest c rfl])]
  rw [hnil, List.append_nil]

theorem run_digits {width : Nat} (hne : cs ≠ []) (hdigital : Digital cs)
    (hlength : cs.length ≤ width)
    (hrest : cs.length = width ∨ ∀ c ∈ rest.head?, c.isDigit = false)
    (hbound : Nat.ofDigitChars 10 cs 0 < 2 ^ 63) :
    (digits width).run (cs ++ rest) = .ok (Nat.ofDigitChars 10 cs 0, rest) := by
  have hvalue := Json.Number.foldl_digitValues cs 0
  rw [Json.digitValues, List.foldl_map] at hvalue
  have hsmall : ¬ 2 ^ 63 ≤ Nat.ofDigitChars 10 cs 0 := Nat.not_le.2 hbound
  have htake := takeWhile_take_append hdigital hlength hrest
  obtain ⟨c, cs, rfl⟩ := List.exists_cons_of_ne_nil hne
  rw [digits, run_get_bind]
  simp only [htake, hvalue, if_neg hsmall, List.drop_left]
  rfl

theorem run_skipBlanks_bind {β : Type} {s : List Char}
    (hs : ∀ c ∈ s.head?, Text.isBlank c = false) (f : PUnit → Scan β) :
    (skipBlanks >>= f).run s = (f ⟨⟩).run s := by
  refine run_bind_of_ok ?_
  cases s with
  | nil => rfl
  | cons c s =>
    have hdrop : (c :: s).dropWhile Text.isBlank = c :: s :=
      List.dropWhile_cons_of_neg (by simp [hs c rfl])
    exact congrArg (fun s => Except.ok (PUnit.unit, s)) hdrop

theorem isBlank_of_isDigit {c : Char} (h : c.isDigit) : Text.isBlank c = false := by
  simp only [Char.isDigit, Bool.and_eq_true, decide_eq_true_eq, ge_iff_le,
    UInt32.le_iff_toNat_le] at h
  change 48 ≤ c.toNat ∧ c.toNat ≤ 57 at h
  simp only [Text.isBlank, Bool.or_eq_false_iff, Bool.and_eq_false_iff, decide_eq_false_iff_not,
    beq_eq_false_iff_ne]
  omega

theorem head_of_digital (hne : cs ≠ []) (hdigital : Digital cs) :
    ∀ c ∈ (cs ++ rest).head?, c.isDigit := by
  obtain ⟨c, cs, rfl⟩ := List.exists_cons_of_ne_nil hne
  rintro _ ⟨⟩
  exact hdigital c List.mem_cons_self

theorem run_character {c : Char} (hblank : Text.isBlank c = false) :
    (character c).run (c :: rest) = .ok ((), rest) := by
  rw [character, run_skipBlanks_bind (by simpa using hblank), run_get_bind]
  simp only [if_true]
  rfl

/-- A number in two digits is read back. -/
theorem run_number {n least greatest : Nat} (hleast : least ≤ n) (hgreatest : n ≤ greatest)
    (h : greatest < 100) :
    (number 2 least greatest).run ((padded 2 n).toList ++ rest) = .ok (n, rest) := by
  have hlength := length_padded (show 0 < 2 by decide) (show n < 10 ^ 2 by omega)
  have hne := padded_ne_nil 2 n
  have hdigital := digital_padded 2 n
  have hdigits := @run_digits _ rest 2 hne hdigital (Nat.le_of_eq hlength) (.inl hlength)
    (by rw [ofDigitChars_padded]; omega)
  rw [ofDigitChars_padded] at hdigits
  rw [number, run_skipBlanks_bind fun c hc =>
    isBlank_of_isDigit (head_of_digital hne hdigital c hc), run_bind_of_ok hdigits]
  have hbounds : (n < least || greatest < n) = false := by
    simp only [Bool.or_eq_false_iff, decide_eq_false_iff_not]
    omega
  simp only [hbounds]
  rfl

/-- A year is read back, unless more digits follow. -/
theorem run_year {y : Int} (hlow : -2 ^ 31 ≤ y) (hhigh : y < 2 ^ 31)
    (hrest : ∀ c ∈ rest.head?, c.isDigit = false) :
    year.run ((yearText y).toList ++ rest) = .ok (y, rest) := by
  have hbounds : (y < -(2 ^ 31) || 2 ^ 31 ≤ y) = false := by
    simp only [Bool.or_eq_false_iff, decide_eq_false_iff_not]
    omega
  have hdigital := digital_padded 4 y.natAbs
  have hne := padded_ne_nil 4 y.natAbs
  have hvalue := ofDigitChars_padded 4 y.natAbs
  -- Behind a sign, all digits belong to the year.
  have hsigned := @run_digits _ rest (((padded 4 y.natAbs).toList ++ rest).length + 1) hne hdigital
    (by rw [List.length_append]; omega) (.inr hrest) (by omega)
  rw [hvalue] at hsigned
  rw [yearText]
  split_ifs with hsmall hnegative
  · -- Four digits without a sign.
    have hlength := length_padded (show 0 < 4 by decide) (show y.natAbs < 10 ^ 4 by omega)
    have hdigits := @run_digits _ rest 4 hne hdigital (Nat.le_of_eq hlength) (.inl hlength)
      (by omega)
    have hhead := @head_of_digital _ rest hne hdigital
    have hnat : y.toNat = y.natAbs := by omega
    rw [hvalue] at hdigits
    rw [hnat, year, run_skipBlanks_bind fun c hc => isBlank_of_isDigit (hhead c hc), run_get_bind]
    generalize (padded 4 y.natAbs).toList ++ rest = s at hhead hdigits ⊢
    split
    · cases hhead _ rfl
    · cases hhead _ rfl
    · have hy : (y.natAbs : Int) = y := by omega
      simp only [run_bind_of_ok hdigits, pure_bind, hy, hbounds]
      rfl
  · have hy : -(y.natAbs : Int) = y := by omega
    rw [String.toList_append, List.append_assoc, show "-".toList = ['-'] from rfl,
      List.singleton_append, year, run_skipBlanks_bind (by rintro _ ⟨⟩; rfl), run_get_bind]
    simp only [run_set_bind, run_bind_of_ok hsigned, pure_bind, hy, hbounds]
    rfl
  · have hy : (y.natAbs : Int) = y := by omega
    rw [String.toList_append, List.append_assoc, show "+".toList = ['+'] from rfl,
      List.singleton_append, year, run_skipBlanks_bind (by rintro _ ⟨⟩; rfl), run_get_bind]
    simp only [run_set_bind, run_bind_of_ok hsigned, pure_bind, hy, hbounds]
    rfl

/-- Digits behind a point are read as nanoseconds, unless more digits follow. -/
theorem run_point {width m : Nat} (hpos : 0 < width) (hwidth : width ≤ 9) (hm : m < 10 ^ width)
    (hrest : ∀ c ∈ rest.head?, c.isDigit = false) :
    fraction.run ('.' :: ((padded width m).toList ++ rest)) =
      .ok (m * 10 ^ (9 - width), rest) := by
  have hlength := length_padded hpos hm
  have hbig : m < 10 ^ 9 := Nat.lt_of_lt_of_le hm (Nat.pow_le_pow_right (by decide) hwidth)
  have hdigits := @run_digits _ rest 9 (padded_ne_nil width m) (digital_padded width m)
    (by omega) (.inr hrest) (by rw [ofDigitChars_padded]; omega)
  rw [ofDigitChars_padded] at hdigits
  have hdrop : rest.dropWhile Char.isDigit = rest := by
    cases rest with
    | nil => rfl
    | cons c rest => exact List.dropWhile_cons_of_neg (by simp [hrest c rfl])
  have hleft : ((padded width m).toList ++ rest).length - rest.length = width := by
    rw [List.length_append, hlength, Nat.add_sub_cancel]
  rw [fraction, run_get_bind]
  simp only [run_set_bind, run_bind_of_ok hdigits, run_get_bind, hdrop, hleft]
  rfl

/-- The fraction of a second is read back, unless more digits follow. -/
theorem run_fraction {n : Nat} (h : n < 10 ^ 9)
    (hrest : ∀ c ∈ rest.head?, c.isDigit = false ∧ c ≠ '.') :
    fraction.run ((fractionText n).toList ++ rest) = .ok (n, rest) := by
  have hplaces {width m : Nat} (hpos : 0 < width) (hwidth : width ≤ 9) (hm : m < 10 ^ width)
      (hn : m * 10 ^ (9 - width) = n) :
      fraction.run ('.' :: ((padded width m).toList ++ rest)) = .ok (n, rest) := by
    rw [run_point hpos hwidth hm fun c hc => (hrest c hc).1, hn]
  have hpoint : ".".toList = ['.'] := rfl
  rw [fractionText]
  split_ifs with hzero hthree hsix
  · rw [hzero]
    change fraction.run rest = _
    rw [fraction, run_get_bind]
    split
    · exact absurd rfl (hrest _ rfl).2
    · rfl
  · rw [String.toList_append, List.append_assoc, hpoint, List.singleton_append]
    exact @hplaces 3 _ (by decide) (by decide) (by omega) (by omega)
  · rw [String.toList_append, List.append_assoc, hpoint, List.singleton_append]
    exact @hplaces 6 _ (by decide) (by decide) (by omega) (by omega)
  · rw [String.toList_append, List.append_assoc, hpoint, List.singleton_append]
    exact @hplaces 9 _ (by decide) (by decide) (by omega) (by omega)

theorem run_offset_utc : offset.run ('Z' :: rest) = .ok (0, rest) := by
  rw [offset, run_skipBlanks_bind (by rintro _ ⟨⟩; rfl), run_get_bind]
  rfl

/-- A date and a time of that day are read back as their moment. -/
theorem run_timestamp {d : Date} {hour minute second nanoseconds : Nat} (hd : d.isValid)
    (hyear : isYear d.year) (hhour : hour ≤ 23) (hminute : minute ≤ 59) (hsecond : second ≤ 60)
    (hnanoseconds : nanoseconds < 10 ^ 9) {t : Timestamp} (hdate : t.date = d)
    (ht : t = ⟨d.toDays * secondsOfDay + hour * 3600 + minute * 60 +
        (second - if second = 60 then 1 else 0 : Nat),
      nanoseconds + (if second = 60 then 1 else 0) * 1000000000⟩) :
    timestamp.run ((yearText d.year).toList ++ '-' :: ((padded 2 d.month).toList ++
      '-' :: ((padded 2 d.day).toList ++ 'T' :: ((padded 2 hour).toList ++
      ':' :: ((padded 2 minute).toList ++ ':' :: ((padded 2 second).toList ++
      ((fractionText nanoseconds).toList ++ ['Z']))))))) = .ok (t, []) := by
  obtain ⟨⟨hmonth, hmonth'⟩, hfirst, hlast⟩ := Date.bounds_of_isValid hd
  obtain ⟨hlow, hhigh⟩ := isYear_iff.1 hyear
  rw [timestamp, run_bind_of_ok (run_year (by omega) (by omega) (by rintro _ ⟨⟩; rfl)),
    run_bind_of_ok (run_character rfl), run_bind_of_ok (run_number hmonth hmonth' (by decide)),
    run_bind_of_ok (run_character rfl), run_bind_of_ok (run_number hfirst hlast (by decide)),
    run_get_bind]
  simp only [Char.reduceEq, decide_true, Bool.true_or, if_true, run_set_bind]
  rw [run_bind_of_ok (run_number (Nat.zero_le _) hhour (by decide)),
    run_bind_of_ok (run_character rfl),
    run_bind_of_ok (run_number (Nat.zero_le _) hminute (by decide)),
    run_bind_of_ok (run_character rfl),
    run_bind_of_ok (run_number (Nat.zero_le _) hsecond (by decide)),
    run_bind_of_ok (run_fraction hnanoseconds (by rintro _ ⟨⟩; exact ⟨rfl, by decide⟩)),
    run_bind_of_ok run_offset_utc, run_get_bind]
  have hutc : (decide (0 ≤ -secondsOfDay) || decide (secondsOfDay ≤ 0)) = false := rfl
  simp only [hd, hyear, hutc, List.all_nil, Bool.not_true, Bool.or_false, Bool.false_eq_true,
    if_false, Int.sub_zero, ← ht, hdate]
  rfl

end Scan

/-- A moment that there is: its year is one of the calendar's, and more than a second's nanoseconds
stand only in the last second of a minute. -/
structure Proper (t : Timestamp) : Prop where
  year_ge : -262143 ≤ t.date.year
  year_le : t.date.year ≤ 262142
  nanoseconds : t.nanoseconds < 10 ^ 9 ∨ t.nanoseconds < 2 * 10 ^ 9 ∧ t.seconds % 60 = 59

open Scan

/-- What a text of a moment consists of, by the second of its day. -/
theorem toList_text (t : Timestamp) {second : Nat}
    (h : (t.seconds % secondsOfDay).toNat = second) :
    t.text.toList = (yearText t.date.year).toList ++ '-' ::
      ((padded 2 t.date.month).toList ++ '-' :: ((padded 2 t.date.day).toList ++
      'T' :: ((padded 2 (second / 3600)).toList ++
      ':' :: ((padded 2 (second / 60 % 60)).toList ++
      ':' :: ((padded 2 (second % 60 + t.nanoseconds / 1000000000)).toList ++
      ((fractionText (t.nanoseconds % 1000000000)).toList ++ ['Z'])))))) := by
  have hhyphen : "-".toList = ['-'] := rfl
  have htime : "T".toList = ['T'] := rfl
  have hcolon : ":".toList = [':'] := rfl
  have hutc : "Z".toList = ['Z'] := rfl
  simp only [text, localText, toString, String.toList_append, List.append_assoc, h, hhyphen,
    htime, hcolon, hutc, List.cons_append, List.nil_append]

/-- The text of a moment is read as the moment. -/
theorem ofText_text {t : Timestamp} (h : t.Proper) : ofText t.text = .ok t := by
  obtain ⟨hlow, hhigh, hnanoseconds⟩ := h
  have hvalid := Date.isValid_ofDays (t.seconds / secondsOfDay)
  have hdays := Date.toDays_ofDays (t.seconds / secondsOfDay)
  rw [← date] at hvalid hdays
  generalize hsecond : (t.seconds % secondsOfDay).toNat = second
  obtain ⟨hseconds, hsmall⟩ :
      t.seconds = t.date.toDays * secondsOfDay + second ∧ second < 86400 := by
    rw [hdays, secondsOfDay]
    rw [secondsOfDay] at hsecond
    omega
  have hminute : t.seconds % 60 = (second % 60 : Nat) := by
    rw [hseconds, secondsOfDay]
    omega
  have htime : second / 3600 * 3600 + second / 60 % 60 * 60 + second % 60 = second := by omega
  rw [hminute] at hnanoseconds
  have hback : t.date.toDays * secondsOfDay + (second / 3600 : Nat) * 3600 +
      (second / 60 % 60 : Nat) * 60 + (second % 60 + t.nanoseconds / 1000000000 -
        if second % 60 + t.nanoseconds / 1000000000 = 60 then 1 else 0 : Nat) = t.seconds := by
    rw [hseconds]
    split_ifs <;> omega
  have hback' : t.nanoseconds % 1000000000 +
      (if second % 60 + t.nanoseconds / 1000000000 = 60 then 1 else 0) * 1000000000 =
        t.nanoseconds := by
    split_ifs <;> omega
  have hrun := @run_timestamp t.date (second / 3600) (second / 60 % 60)
    (second % 60 + t.nanoseconds / 1000000000) (t.nanoseconds % 1000000000) hvalid
    (isYear_iff.2 ⟨hlow, hhigh⟩) (by omega) (by omega) (by omega) (Nat.mod_lt _ (by decide)) t rfl
    (by rw [hback, hback'])
  rw [ofText, toList_text t hsecond, hrun]
  rfl

/-- A moment that is written is read back. -/
theorem decoder_toJson {t : Timestamp} (h : t.Proper) : decoder (.ofJson t.toJson) = .ok t := by
  rw [toJson, Json.Draft.ofJson, decoder, ofText_text h]

/-! ## Other texts -/

namespace Scan

/-- Whatever is read has the property. -/
def Ensures {α : Type} (x : Scan α) (P : α → Prop) : Prop := ∀ s r, x.run s = .ok r → P r.1

section

variable {α β : Type} {x : Scan α} {f : α → Scan β} {P : α → Prop} {Q : β → Prop}

theorem run_bind_eq_ok {s : List Char} {r : β × List Char} :
    (x >>= f).run s = .ok r ↔ ∃ a s', x.run s = .ok (a, s') ∧ (f a).run s' = .ok r := by
  rw [StateT.run_bind]
  cases x.run s with
  | error e => exact iff_of_false nofun (by rintro ⟨a, s', ⟨⟩, -⟩)
  | ok r' =>
    constructor
    · exact fun h => ⟨r'.1, r'.2, rfl, h⟩
    · rintro ⟨a, s', ⟨⟩, h⟩
      exact h

theorem Ensures.bind (hx : Ensures x P) (hf : ∀ a, P a → Ensures (f a) Q) :
    Ensures (x >>= f) Q := by
  intro s r h
  obtain ⟨a, s', hread, h⟩ := run_bind_eq_ok.1 h
  exact hf a (hx s _ hread) s' r h

theorem ensures_bind (hf : ∀ a, Ensures (f a) Q) : Ensures (x >>= f) Q :=
  Ensures.bind (P := fun _ => True) (fun _ _ _ => trivial) fun a _ => hf a

theorem ensures_pure {a : α} (h : P a) : Ensures (pure a) P := by
  rintro s _ ⟨⟩
  exact h

theorem ensures_throw {e : Fault} : Ensures (throw e) P := nofun

theorem ensures_throw_bind {e : Fault} : Ensures (throw e >>= f) Q := nofun

theorem ensures_check {p : Prop} [Decidable p] {e : Fault} {f : Unit → Scan β}
    (h : ¬ p → Ensures (f ()) Q) : Ensures (if p then throw e >>= f else f ()) Q := by
  split
  · exact ensures_throw_bind
  · exact h ‹_›

end

theorem ensures_offset : Ensures offset fun n => 60 ∣ n := by
  rw [offset]
  refine ensures_bind fun _ => ensures_bind fun s => ?_
  split
  · exact ensures_throw
  · split
    · exact ensures_bind fun _ => ensures_pure (by decide)
    split
    · exact ensures_bind fun _ => ensures_pure (by decide)
    split
    · refine ensures_bind fun _ => ensures_bind fun hours => ensures_bind fun _ =>
        ensures_bind fun minutes => ensures_check fun _ => ensures_pure ?_
      split <;> omega
    · exact ensures_throw

theorem foldl_digits_lt {ds : List Char} (h : Json.Digital ds) (n : Nat) :
    ds.foldl (fun n c => n * 10 + (c.toNat - 48)) n < (n + 1) * 10 ^ ds.length := by
  induction ds generalizing n with
  | nil => exact Nat.lt_of_lt_of_eq (Nat.lt_succ_self n) (Nat.mul_one _).symm
  | cons c ds ih =>
    have hdigit : c.toNat - 48 ≤ 9 := by
      have hc := h c List.mem_cons_self
      simp only [Char.isDigit, Bool.and_eq_true, decide_eq_true_eq, UInt32.le_iff_toNat_le] at hc
      exact Nat.sub_le_of_le_add hc.2
    refine Nat.lt_of_lt_of_le (ih (fun d hd => h d (List.mem_cons_of_mem _ hd)) _) ?_
    rw [List.length_cons, Nat.pow_succ', ← Nat.mul_assoc]
    refine Nat.mul_le_mul_right _ ?_
    change n * 10 + (c.toNat - 48) + 1 ≤ (n + 1) * 10
    omega

/-- What digits are read as has no more digits than they are. -/
theorem run_digits_eq_ok {width n : Nat} {s s' : List Char}
    (h : (digits width).run s = .ok (n, s')) :
    s.length - s'.length ≤ width ∧ n < 10 ^ (s.length - s'.length) := by
  rw [digits, run_get_bind] at h
  generalize hdigits : (s.take width).takeWhile Char.isDigit = ds at h
  dsimp only at h
  split at h
  · cases h
  · cases h
  · split at h
    · cases h
    cases h
    have hprefix : ds <+: s.take width := hdigits ▸ List.takeWhile_prefix _
    have hdigital : Json.Digital ds := List.all_eq_true.1 (hdigits ▸ List.all_takeWhile)
    have hlength := hprefix.length_le
    rw [List.length_take] at hlength
    have hread : s.length - (s.drop ds.length).length = ds.length := by
      rw [List.length_drop]
      omega
    rw [hread]
    exact ⟨by omega, by simpa using foldl_digits_lt hdigital 0⟩

theorem ensures_fraction : Ensures fraction fun n => n < 10 ^ 9 := by
  intro s r h
  rw [fraction, run_get_bind] at h
  split at h
  · rename_i rest
    rw [run_set_bind] at h
    obtain ⟨n, left, hdigits, h⟩ := run_bind_eq_ok.1 h
    cases h
    obtain ⟨hwidth, hlt⟩ := run_digits_eq_ok hdigits
    calc n * 10 ^ (9 - (rest.length - left.length))
        < 10 ^ (rest.length - left.length) * 10 ^ (9 - (rest.length - left.length)) :=
          Nat.mul_lt_mul_of_pos_right hlt (Nat.pow_pos (by decide))
      _ = 10 ^ 9 := by rw [← Nat.pow_add, Nat.add_sub_cancel' hwidth]
  · cases h
    exact Nat.pow_pos (show 0 < 10 by decide)

theorem ensures_timestamp : Ensures timestamp Proper := by
  rw [timestamp]
  refine ensures_bind fun year => ensures_bind fun _ => ensures_bind fun month =>
    ensures_bind fun _ => ensures_bind fun day => ensures_bind fun s => ?_
  dsimp only
  split
  · exact ensures_throw_bind
  split
  · refine ensures_bind fun _ => ensures_bind fun hour => ensures_bind fun _ =>
      ensures_bind fun minute => ensures_bind fun _ => ensures_bind fun second =>
      ensures_fraction.bind fun nanoseconds hnanoseconds =>
      ensures_offset.bind fun offset hoffset => ensures_bind fun _ => ensures_check fun _ =>
      ensures_check fun _ => ensures_check fun _ => ensures_check fun hyear => ensures_pure ?_
    rw [Bool.not_eq_true', Bool.not_eq_false] at hyear
    obtain ⟨hlow, hhigh⟩ := isYear_iff.1 hyear
    refine ⟨hlow, hhigh, ?_⟩
    dsimp only
    rw [secondsOfDay]
    split <;> omega
  · exact ensures_throw_bind

end Scan

/-- What a text is read as is a moment that there is. -/
theorem proper_of_ofText {text : String} {t : Timestamp} (h : ofText text = .ok t) : t.Proper := by
  rw [ofText] at h
  cases hread : timestamp.run text.toList with
  | error e =>
    rw [hread] at h
    cases h
  | ok r =>
    rw [hread] at h
    obtain rfl := Except.ok.inj h
    exact ensures_timestamp _ r hread

theorem proper_of_decoder {d : Json.Draft} {t : Timestamp} (h : decoder d = .ok t) : t.Proper := by
  rw [decoder.eq_def] at h
  split at h
  · split at h
    · rename_i hread
      obtain rfl := Except.ok.inj h
      exact proper_of_ofText hread
    · cases h
  · cases d <;> cases h

end Timestamp

end Workflow.Time
