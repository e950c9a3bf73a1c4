import Workflow.Proofs.Building
import Workflow.Proofs.Construction
import Workflow.Proofs.Seconds
import Workflow.Proofs.Values

/-!
Nodes that wait. An attempt fails at once if there is no number of seconds that can be waited, and
otherwise it waits for just that many; no time limit that is set for the node or for all nodes makes
a difference.
-/
namespace Workflow.Node.Delay

open Json.Decoder (Field Gives)
open Run (Context Prepared)
open Time (Duration Timed)

variable {σ : Type}

/-! ## Numbers of seconds -/

/-- The number of seconds that a value stands for. -/
def amount? : Json → Option Float
  | .number n => some n.toFloat
  | .string s => numeral? s
  | .null | .bool _ | .array _ | .object _ => none

/-- The number of seconds that a node is asked to wait on an input; a reference to nothing asks for
none at all. -/
def asked? (input : Payload) : Seconds → Option Float
  | .fixed x => some x
  | .fromInput name =>
    match Template.lookup input name with
    | none | some .null => some 0.0
    | some v => amount? v

/-- A wait can take finite numbers of seconds that are not below zero. -/
def CanWait (x : Float) : Prop := x.isFinite ∧ ¬ x < 0.0

theorem check_eq_ok {x y : Float} : check x = .ok y ↔ x = y ∧ CanWait x := by
  unfold check CanWait
  by_cases hfinite : x.isFinite
  · by_cases hless : x < 0.0
    · simp [hfinite, hless]
    · simp [hfinite, hless]
  · simp [hfinite]

theorem checked_eq_ok {x y : Float} : resolve.checked x = .ok y ↔ x = y ∧ CanWait x := by
  rw [← check_eq_ok]
  unfold resolve.checked
  cases check x with
  | error reason => exact iff_of_false nofun nofun
  | ok z => simp

theorem resolve_eq_ok {input : Payload} {s : Seconds} {x : Float} :
    resolve input s = .ok x ↔ asked? input s = some x ∧ CanWait x := by
  have hchecked (y : Float) : resolve.checked y = .ok x ↔ some y = some x ∧ CanWait x := by
    rw [checked_eq_ok, Option.some_inj]
    exact and_congr_right fun heq => by rw [heq]
  cases s with
  | fixed y => exact hchecked y
  | fromInput name =>
    unfold resolve asked?
    dsimp only
    cases Template.lookup input name with
    | none => exact hchecked 0.0
    | some v =>
      cases v with
      | null => exact hchecked 0.0
      | number n => exact hchecked n.toFloat
      | string text =>
        dsimp only [amount?]
        cases numeral? text with
        | none => exact iff_of_false nofun nofun
        | some y => exact hchecked y
      | _ => exact iff_of_false nofun nofun

/-- Why there is no wait is told in words. -/
theorem exists_execution_of_resolve {input : Payload} {s : Seconds} {e : Error}
    (h : resolve input s = .error e) : ∃ reason, e = .execution reason := by
  have hchecked (y : Float) (h : resolve.checked y = .error e) :
      ∃ reason, e = .execution reason := by
    unfold resolve.checked at h
    cases hcheck : check y with
    | error reason =>
      rw [hcheck] at h
      cases h
      exact ⟨reason, rfl⟩
    | ok z =>
      rw [hcheck] at h
      cases h
  cases s with
  | fixed y => exact hchecked y h
  | fromInput name =>
    unfold resolve at h
    dsimp only at h
    split at h
    · exact hchecked _ h
    · exact hchecked _ h
    · exact hchecked _ h
    · split at h
      · exact hchecked _ h
      · cases h
        exact ⟨_, rfl⟩
    · cases h
      exact ⟨_, rfl⟩

/-! ## Configurations -/

/-- How long a node waits, as its configuration says it: with a text that is a reference, or with a
number of seconds that can be waited. -/
inductive Means : Json → Seconds → Prop where
  | reference {text name : String} (h : Template.parseReference text = some name) :
      Means (.string text) (.fromInput name)
  | fixed {v : Json} {x : Float} (hv : ∀ text, v = .string text →
      Template.parseReference text = none) (hx : amount? v = some x) (h : CanWait x) :
      Means v (.fixed x)

theorem means_of_seconds {i : Init} {v : Json} {s : Seconds} (h : seconds i v = .ok s) :
    Means v s := by
  have hchecked (x : Float) (hv : ∀ text, v = .string text → Template.parseReference text = none)
      (hx : amount? v = some x) (h : seconds.checked i x = .ok s) : Means v s := by
    unfold seconds.checked at h
    cases hcheck : check x with
    | error reason =>
      rw [hcheck] at h
      cases h
    | ok y =>
      rw [hcheck] at h
      obtain ⟨rfl, hwait⟩ := check_eq_ok.1 hcheck
      cases h
      exact .fixed hv hx hwait
  cases v with
  | string text =>
    unfold seconds at h
    dsimp only at h
    split at h
    · rename_i name hname
      cases h
      exact .reference hname
    · rename_i hname
      split at h
      · rename_i x hx
        refine hchecked x ?_ hx h
        rintro _ ⟨⟩
        exact hname
      · cases h
  | number n => exact hchecked n.toFloat (fun text htext => by cases htext) rfl h
  | _ => cases h

theorem reads_seconds : shape.Reads id "seconds" (Json.Decoder.present .value) where
  mem := ⟨_, List.mem_cons_self, rfl⟩
  read := by
    simp only [shape, List.forall_mem_singleton, Field.read_of_eq_ok]
    rintro d b _ ⟨v, hv, rfl⟩
    exact Json.Decoder.present_eq_ok.2 ⟨v, hv, rfl⟩

theorem means_of_normal {v : Json} {s : Seconds} (h : Means v.normal s) : Means v s := by
  cases v with
  | array items =>
    cases h with
    | fixed hv hx hwait => cases hx
  | object fields =>
    cases h with
    | fixed hv hx hwait => cases hx
  | _ => exact h

/-- A node that can be made has its seconds in its configuration. -/
theorem exists_means_of_construct {i : Init} {b : Behavior σ} (h : construct i = .ok b) :
    ∃ v s, Payload.find? i.config "seconds" = some v ∧ Means v s ∧
      b = ⟨"delay", some (attemptTimeout s), false, execute i.id s⟩ := by
  obtain ⟨value, s, hread, hseconds, hbehavior⟩ := exists_of_construct h
  have hnodup : (shape.fields.map Field.name).Nodup := List.nodup_singleton _
  obtain ⟨b, hfinish, hfilled⟩ :=
    Json.Decoder.Shape.exists_of_gives hnodup (Init.decode_of_read hread)
  cases b with
  | none => cases hfinish
  | some w =>
    cases hfinish
    rcases hfilled reads_seconds with ⟨-, ⟨⟩⟩ | ⟨v, hfind, hgives⟩
    obtain ⟨w, hvalue, ⟨⟩⟩ := Json.Decoder.present_eq_ok.1 hgives
    have hnormal := Json.Decoder.gives_value_iff.1 hvalue
    rw [← hnormal] at hseconds
    exact ⟨v, s, hfind, means_of_normal (means_of_seconds hseconds), hbehavior⟩

/-! ## Attempts -/

/-- The input with a note on a wait, and nothing else. -/
structure Notes (id : String) (x : Float) (input data : Payload) : Prop where
  note : ∃ info, Payload.find? data "_delay_info" = some (.object info) ∧
    Payload.find? info "requested_seconds" = some (.ofFloat x) ∧
    Payload.find? info "actual_waited_seconds" =
      some (.ofFloat (Json.Number.roundInt (Duration.ofSeconds x).ticks / 1000.0)) ∧
    Payload.find? info "node_id" = some (.string id) ∧
    Payload.find? info "status" = some (.string "completed")
  other : ∀ key, key ≠ "_delay_info" → Payload.find? data key = Payload.find? input key

theorem notes_output (id : String) (x : Float) (input : Payload) :
    Notes id x input (output id x input) where
  note := by
    refine ⟨_, Payload.find?_insert_self _ _ _, ?_⟩
    simp [Payload.find?_ofList, Payload.find?]
  other _ h := Payload.find?_insert_of_ne _ _ h

variable {id : String} {s : Seconds} {input : Payload} {context : Context} {world : σ}

theorem execute_of_not_canWait (context : Context) (world : σ)
    (h : ∀ x, asked? input s = some x → ¬ CanWait x) :
    ∃ reason, execute id s input context world =
      (.now (.leaving context (.error (.execution reason))), world) := by
  unfold execute
  cases hresolve : resolve input s with
  | error e =>
    obtain ⟨reason, rfl⟩ := exists_execution_of_resolve hresolve
    exact ⟨reason, rfl⟩
  | ok x =>
    obtain ⟨hasked, hwait⟩ := resolve_eq_ok.1 hresolve
    exact absurd hwait (h x hasked)

/-- The limit that a node sets for its wait never cuts the wait off. -/
theorem execute_of_canWait {x : Float} (hasked : asked? input s = some x) (hwait : CanWait x) :
    execute id s input context world =
      (⟨.leaving context (.ok ⟨output id x input, none⟩), .ofSeconds x⟩, world) := by
  unfold execute
  rw [resolve_eq_ok.2 ⟨hasked, hwait⟩]
  have htime := Duration.ticks_mono (Duration.ofSeconds_add_five hwait.1 hwait.2)
  exact congrArg (·, world) (Timed.within_of_le htime)

/-! ## Nodes -/

/-- No wait is over later than its limit. -/
theorem ticks_le_attemptTimeout {x : Float} (hasked : asked? input s = some x) (hwait : CanWait x) :
    (Duration.ofSeconds x).ticks ≤ (attemptTimeout s).ticks := by
  cases s with
  | fixed y =>
    cases hasked
    exact Duration.ticks_mono (Duration.ofSeconds_add_five hwait.1 hwait.2)
  | fromInput name =>
    unfold attemptTimeout
    rw [Duration.ticks_longest]
    exact Duration.ticks_le_farFuture _

/-- What an attempt comes to. Without a number of seconds that can be waited it fails at once; else
it waits for this number and succeeds with a note on the wait. -/
structure Comes (id : String) (s : Seconds) (input : Payload) (context : Context)
    (attempt : Timed Attempt) : Prop where
  fails : (∀ x, asked? input s = some x → ¬ CanWait x) →
    ∃ reason, attempt = .now (.leaving context (.error (.execution reason)))
  waits : ∀ x, asked? input s = some x → CanWait x →
    ∃ data, Notes id x input data ∧
      attempt = ⟨.leaving context (.ok ⟨data, none⟩), .ofSeconds x⟩ ∧
      ((Duration.ofSeconds x).milliseconds ≤ Time.farFuture →
        attempt.duration.ticks = (Duration.ofSeconds x).milliseconds)

section

variable {n : Prepared σ}
  (hbehavior : n.behavior = ⟨"delay", some (attemptTimeout s), false, execute id s⟩)

include hbehavior

theorem attempt_eq (input : Payload) (context : Context) (world : σ) :
    n.attempt input context world =
      ((execute id s input context world).1.within (attemptTimeout s)
          (.leaving context (.error (.timeout n.id (attemptTimeout s).seconds))),
        (execute id s input context world).2) := by
  unfold Prepared.attempt Prepared.late Prepared.attemptTimeout
  rw [hbehavior]
  rfl

theorem comes_attempt (input : Payload) (context : Context) (world : σ) :
    Comes id s input context (n.attempt input context world).1 where
  fails h := by
    obtain ⟨reason, hexecute⟩ := execute_of_not_canWait context world h
    refine ⟨reason, ?_⟩
    rw [attempt_eq hbehavior, hexecute]
    exact Timed.within_of_le (by rw [Timed.now, Duration.ticks_zero]; exact Nat.zero_le _)
  waits x hasked hwait := by
    have hattempt : (n.attempt input context world).1 =
        ⟨.leaving context (.ok ⟨output id x input, none⟩), .ofSeconds x⟩ := by
      rw [attempt_eq hbehavior, execute_of_canWait hasked hwait]
      exact Timed.within_of_le (ticks_le_attemptTimeout hasked hwait)
    refine ⟨_, notes_output id x input, hattempt, ?_⟩
    intro hclock
    rw [hattempt]
    exact Duration.ticks_of_milliseconds_le hclock

theorem world_attempt (input : Payload) (context : Context) (world : σ) :
    (n.attempt input context world).2 = world := by
  rw [attempt_eq hbehavior]
  dsimp only
  unfold execute
  cases resolve input s with
  | error e => rfl
  | ok x => rfl

theorem attempt_congr {n' : Prepared σ} (hbehavior' : n'.behavior = n.behavior) (hid : n'.id = n.id)
    (input : Payload) (context : Context) (world : σ) :
    n'.attempt input context world = n.attempt input context world := by
  rw [attempt_eq hbehavior, attempt_eq (hbehavior'.trans hbehavior), hid]

end

theorem construct_erase (id name : String) (config : Payload) :
    construct (σ := σ) ⟨id, name, config.erase "timeout"⟩ = construct ⟨id, name, config⟩ := by
  have hread : Init.read ⟨id, name, config.erase "timeout"⟩ shape.decode =
      Init.read ⟨id, name, config⟩ shape.decode := by
    unfold Init.read
    rw [Json.Decoder.Shape.decode_erase (by decide)]
    rfl
  unfold construct
  rw [hread]
  rfl

theorem construct_congr {id name : String} {config config' : Payload}
    (h : config'.erase "timeout" = config.erase "timeout") :
    construct (σ := σ) ⟨id, name, config'⟩ = construct ⟨id, name, config⟩ := by
  rw [← construct_erase, h, construct_erase]

/-- The entries of a policy are in order if only the time limit is another one. -/
theorem valid_congr {config config' : Payload}
    (h : config'.erase "timeout" = config.erase "timeout")
    (htimeout : Policy.Allows config' "timeout" Policy.IsSeconds) (hvalid : Policy.Valid config) :
    Policy.Valid config' := by
  have hfind {key : String} (hkey : key ≠ "timeout") :
      Payload.find? config' key = Payload.find? config key := by
    rw [← Payload.find?_erase_of_ne hkey, h, Payload.find?_erase_of_ne hkey]
  refine ⟨?_, ?_, htimeout⟩
  · intro v hv
    exact hvalid.retries v ((hfind (by decide)).symm.trans hv)
  · intro v hv
    exact hvalid.retryDelay v ((hfind (by decide)).symm.trans hv)

/-- A node that waits for some seconds. -/
def waiting (seconds : Json) (entries : Payload) : NodeDefinition where
  id := "n"
  name := "N"
  nodeType := "delay"
  config := ("seconds", seconds) :: entries

def delays : Registry Unit := [("delay", construct)]

theorem delays_constructor : delays.constructor? "delay" = some construct := rfl

/-- A reference to the seconds in an input. -/
def reference : Json := .string "{{ wait }}"

theorem eq_of_means_reference {s : Seconds} (h : Means reference s) : s = .fromInput "wait" := by
  have hparse : Template.parseReference "{{ wait }}" = some "wait" := by decide +kernel
  cases h with
  | reference h =>
    rw [hparse] at h
    cases h
    rfl
  | fixed hv =>
    have hnone := hv _ rfl
    rw [hparse] at hnone
    cases hnone

end Workflow.Node.Delay
