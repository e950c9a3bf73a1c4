import Workflow.Proofs.Fallible
import Workflow.Script.Run

/-!
What is read back of a script that has come to its end. Its output is a map with a JSON form, or
nothing, and its context has a JSON form too; from any other values nothing is taken over. Whatever
keeps a script from an outcome is a failure of its run or the end of its time.
-/
namespace Workflow.Script

open Fallible (bind_eq_ok bind_eq_error)
open Time (Duration)

/-! ## Maps and objects -/

namespace Value

variable {fields : List (String × Value)} {converted : Payload} {v : Value}

/-- An object is the JSON form of a map, and of nothing else. -/
theorem toJson_eq_object_iff :
    v.toJson = .ok (.object converted) ↔
      ∃ fields, v = .map fields ∧ toFields fields = .ok converted := by
  cases v with
  | map fields =>
    rw [toJson]
    constructor
    · intro h
      obtain ⟨converted', hfields, ⟨⟩⟩ := bind_eq_ok.1 h
      exact ⟨fields, rfl, hfields⟩
    · rintro ⟨fields', ⟨⟩, hfields⟩
      exact bind_eq_ok.2 ⟨converted, hfields, rfl⟩
  | array items =>
    rw [toJson]
    refine iff_of_false ?_ (by simp)
    intro h
    obtain ⟨items', -, ⟨⟩⟩ := bind_eq_ok.1 h
  | float x =>
    rw [toJson, Json.ofFloat]
    refine iff_of_false ?_ (by simp)
    split <;> nofun
  | _ => exact iff_of_false nofun (by simp)

/-- The entries of a map. -/
def fields? : Value → Option (List (String × Value))
  | .map fields => some fields
  | _ => none

/-- The JSON form of a value has entries just if the value has some, and then it has theirs. -/
theorem rel_fields? {j : Json} (h : v.toJson = .ok j) :
    Option.Rel (fun fields converted => toFields fields = .ok converted) v.fields? j.payload? := by
  cases j with
  | object converted =>
    obtain ⟨fields, rfl, hfields⟩ := toJson_eq_object_iff.1 h
    exact .some hfields
  | _ =>
    cases v with
    | map fields => obtain ⟨converted, -, ⟨⟩⟩ := bind_eq_ok.1 h
    | _ => exact .none

/-- The entries of a map keep their keys. -/
theorem rel_find?_toFields (h : toFields fields = .ok converted) (key : String) :
    Option.Rel (fun v j => v.toJson = .ok j) (find? fields key) (Payload.find? converted key) := by
  induction fields generalizing converted with
  | nil =>
    cases h
    exact .none
  | cons e rest ih =>
    obtain ⟨k, v⟩ := e
    obtain ⟨value, hvalue, h⟩ := bind_eq_ok.1 h
    obtain ⟨converted, hrest, ⟨⟩⟩ := bind_eq_ok.1 h
    rw [Payload.find?, find?]
    by_cases hkey : k = key
    · rw [if_pos hkey, if_pos hkey]
      exact .some hvalue
    · rw [if_neg hkey, if_neg hkey]
      exact ih hrest

end Value

/-! ## Outcomes -/

variable {scope : List Entry} {v : Value} {f : Failure}

theorem readBack_eq_ok_iff {j : Json} : readBack v = .ok j ↔ v.toJson = .ok j := by
  unfold readBack
  cases v.toJson with
  | ok j' => simp
  | error found => simp

theorem exists_runtime_of_readBack (h : readBack v = .error f) : ∃ reason, f = .runtime reason := by
  unfold readBack at h
  split at h
  · cases h
  · cases h
    exact ⟨_, rfl⟩

/-- A value in `output` with which something is put out: a map with a JSON form, or the unit value,
which stands for the empty map. -/
inductive PutsOut : Value → Payload → Prop
  | unit : PutsOut .unit []
  | map {fields : List (String × Value)} {output : Payload}
      (h : Value.toFields fields = .ok output) : PutsOut (.map fields) output

theorem putOut_of_ne_unit (h : v ≠ .unit) : putOut v = readBack v >>= entries := by
  unfold putOut
  split
  · exact absurd rfl h
  · rfl

theorem putOut_eq_ok_iff {o : Option Payload} : putOut v = .ok o ↔
    ∃ output, PutsOut v output ∧ o = if output.isEmpty then none else some output := by
  by_cases hunit : v = .unit
  · subst hunit
    constructor
    · rintro ⟨⟩
      exact ⟨[], .unit, rfl⟩
    · rintro ⟨output, ⟨⟩, rfl⟩
      rfl
  rw [putOut_of_ne_unit hunit]
  constructor
  · intro h
    obtain ⟨j, hback, hentries⟩ := bind_eq_ok.1 h
    cases j with
    | object output =>
      obtain ⟨fields, rfl, hfields⟩ := Value.toJson_eq_object_iff.1 (readBack_eq_ok_iff.1 hback)
      cases hentries
      exact ⟨output, .map hfields, rfl⟩
    | _ => cases hentries
  · rintro ⟨output, hputs, rfl⟩
    cases hputs with
    | unit => exact absurd rfl hunit
    | map hfields =>
      have hjson := Value.toJson_eq_object_iff.2 ⟨_, rfl, hfields⟩
      exact bind_eq_ok.2 ⟨.object output, readBack_eq_ok_iff.2 hjson, rfl⟩

theorem exists_runtime_of_putOut (h : putOut v = .error f) : ∃ reason, f = .runtime reason := by
  by_cases hunit : v = .unit
  · subst hunit
    cases h
  rw [putOut_of_ne_unit hunit] at h
  rcases bind_eq_error.1 h with h | ⟨j, -, h⟩
  · exact exists_runtime_of_readBack h
  · cases j with
    | object fields => cases h
    | _ =>
      cases h
      exact ⟨_, rfl⟩

/-- Some variables from which an output and a context can be read. -/
structure Readable (scope : List Entry) (output : Payload) : Prop where
  output : PutsOut (leftIn scope "output") output
  context : ∃ j, (leftIn scope "context").toJson = .ok j

theorem outcome_of_readable {output : Payload} (h : Readable scope output) :
    ∃ j, (leftIn scope "context").toJson = .ok j ∧
      outcome scope = .ok ⟨if output.isEmpty then none else some output, j.payload?.getD []⟩ := by
  obtain ⟨j, hj⟩ := h.context
  have houtput := putOut_eq_ok_iff.2 ⟨output, h.output, rfl⟩
  refine ⟨j, hj, ?_⟩
  unfold outcome
  rw [houtput, readBack_eq_ok_iff.2 hj]
  rfl

theorem exists_readable_of_outcome {o : Outcome} (h : outcome scope = .ok o) :
    ∃ output, Readable scope output := by
  obtain ⟨put, hput, h⟩ := bind_eq_ok.1 h
  obtain ⟨j, hback, -⟩ := bind_eq_ok.1 h
  obtain ⟨output, hputs, -⟩ := putOut_eq_ok_iff.1 hput
  exact ⟨output, hputs, j, readBack_eq_ok_iff.1 hback⟩

theorem exists_runtime_of_outcome (h : outcome scope = .error f) :
    ∃ reason, f = .runtime reason := by
  rcases bind_eq_error.1 h with h | ⟨put, -, h⟩
  · exact exists_runtime_of_putOut h
  rcases bind_eq_error.1 h with h | ⟨j, -, h⟩
  · exact exists_runtime_of_readBack h
  · cases h

theorem exists_runtime_of_not_readable (h : ∀ output, ¬ Readable scope output) :
    ∃ reason, outcome scope = .error (.runtime reason) := by
  cases houtcome : outcome scope with
  | ok o =>
    obtain ⟨output, hreadable⟩ := exists_readable_of_outcome houtcome
    exact absurd hreadable (h output)
  | error f =>
    obtain ⟨reason, rfl⟩ := exists_runtime_of_outcome houtcome
    exact ⟨reason, rfl⟩

/-! ## The shared store -/

/-- The shared store as a script leaves it, if its context is still a map with a map for the
store. -/
def storeLeft (scope : List Entry) : Option (List (String × Value)) :=
  (leftIn scope "context").fields?.bind fun fields =>
    (Value.find? fields "global_state").bind Value.fields?

/-- The shared store as it is read back. -/
def storeIn (context : Payload) : Option Payload :=
  (Payload.find? context "global_state").bind Json.payload?

theorem storeIn_getD (context : Option Payload) :
    storeIn (context.getD []) = context.bind storeIn := by
  cases context <;> rfl

theorem rel_bind {α β γ δ : Type} {r : α → β → Prop} {q : γ → δ → Prop} {f : α → Option γ}
    {g : β → Option δ} {a : Option α} {b : Option β} (h : Option.Rel r a b)
    (hfg : ∀ x y, r x y → Option.Rel q (f x) (g y)) : Option.Rel q (a.bind f) (b.bind g) := by
  cases h with
  | none => exact .none
  | some hxy => exact hfg _ _ hxy

/-- The store that is read back is the one that was left. -/
theorem rel_storeLeft {j : Json} (h : (leftIn scope "context").toJson = .ok j) :
    Option.Rel (fun fields converted => Value.toFields fields = .ok converted)
      (storeLeft scope) (storeIn (j.payload?.getD [])) := by
  rw [storeIn_getD]
  unfold storeLeft storeIn
  apply rel_bind (Value.rel_fields? h)
  intro fields converted hfields
  apply rel_bind (Value.rel_find?_toFields hfields "global_state")
  intro v j hv
  exact Value.rel_fields? hv

/-! ## Evaluations -/

variable {running : List Entry → Ending} {limit : Duration} {worker : Worker}
  {input context : Payload}

theorem evaluate_of_canName (h : worker.CanName limit) :
    evaluate running limit worker input context =
      conclude limit (running (initialScope input context)) := by
  unfold evaluate
  rw [if_pos h]

/-- A script does not begin if its worker cannot name the end of the limit. -/
theorem evaluate_of_not_canName (h : ¬ worker.CanName limit) :
    evaluate running limit worker input context = .error (.brokenOff worker) := by
  unfold evaluate
  rw [if_neg h]

/-- A script that has no outcome has failed, unless it has run out of time. -/
theorem evaluate_eq_error (h : evaluate running limit worker input context = .error f) :
    f = .timeout limit ∨ ∃ reason, f = .runtime reason := by
  by_cases hname : worker.CanName limit
  · rw [evaluate_of_canName hname] at h
    unfold conclude at h
    split at h
    · exact Or.inr (exists_runtime_of_outcome h)
    · cases h
      exact Or.inr ⟨_, rfl⟩
    · cases h
      exact Or.inl rfl
  · rw [evaluate_of_not_canName hname] at h
    cases h
    exact Or.inr ⟨_, rfl⟩

end Workflow.Script
