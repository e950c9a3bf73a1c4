import Workflow.Decimal.Numeral
import Workflow.Node.Init
import Workflow.Template.Render

/-!
Nodes that wait. The seconds are fixed, or a reference into the input that is followed when the
node runs; a reference to nothing is no time at all. The limit of an attempt leaves room for the
whole wait.
-/
namespace Workflow.Node.Delay

open Json.Decoder (Field Shape require)
open Run (Context)
open Time (Duration Timed)

/-- How long a node waits. -/
inductive Seconds where
  | fixed (value : Float)
  | fromInput (name : String)

/-- The seconds by which every limit exceeds the wait. -/
def slack : Float := 5.0

def shape : Shape (Option Json) Json where
  name := "DelayConfig"
  fields := [.of "seconds" .value (fun _ v => some v) false]
  empty := none
  finish := require "seconds"

/-- Refuses seconds that no wait can have. -/
def check (x : Float) : Except String Float :=
  if !x.isFinite then
    .error s!"'seconds' must be a finite number, got {Decimal.Layout.message.double x}"
  else if x < 0.0 then .error "'seconds' must be non-negative"
  else .ok x

def badSeconds (text : String) : String :=
  s!"Invalid 'seconds' value: {text}. Must be a numeric value or variable reference."

/-- The number that a text with blanks around it stands for. -/
def numeral? (text : String) : Option Float := (Decimal.parseFloat (Text.trim text)).toOption

def seconds (i : Init) : Json → Except Error Seconds
  | .string s =>
    match Template.parseReference s with
    | some name => .ok (.fromInput name)
    | none =>
      match numeral? s with
      | some x => checked x
      | none => i.invalid (badSeconds s)
  | .number n => checked n.toFloat
  | v => i.invalid (badSeconds v.compact)
where
  checked (x : Float) : Except Error Seconds :=
    match check x with
    | .ok x => .ok (.fixed x)
    | .error reason => i.invalid reason

def badInput (name text : String) : Error :=
  .execution s!"Invalid 'seconds' value from '{name}': {text}. Must be numeric."

def resolve (input : Payload) : Seconds → Except Error Float
  | .fixed x => checked x
  | .fromInput name =>
    match Template.lookup input name with
    | none | some .null => checked 0.0
    | some (.number n) => checked n.toFloat
    | some (.string s) =>
      match numeral? s with
      | some x => checked x
      | none => .error (badInput name s)
    | some v => .error (badInput name v.compact)
where
  checked (x : Float) : Except Error Float :=
    match check x with
    | .ok x => .ok x
    | .error reason => .error (.execution reason)

/-- The input with a note on the wait. -/
def output (id : String) (x : Float) (input : Payload) : Payload :=
  let waited := Json.Number.roundInt (Duration.ofSeconds x).ticks / 1000.0
  Payload.insert input "_delay_info" (.object (Payload.ofList
    [("requested_seconds", .ofFloat x), ("actual_waited_seconds", .ofFloat waited),
      ("node_id", .string id), ("status", .string "completed")]))

/-- Waits, under a limit that exceeds the wait. -/
def execute {σ : Type} (id : String) (seconds : Seconds) (input : Payload) (context : Context)
    (world : σ) : Timed Attempt × σ :=
  let leaving := Attempt.leaving context
  match resolve input seconds with
  | .error e => (.now (leaving (.error e)), world)
  | .ok x =>
    let wait : Timed Attempt := ⟨leaving (.ok ⟨output id x input, none⟩), .ofSeconds x⟩
    (wait.within (.ofSeconds (x + slack)) (leaving (.error (.timeout id (x + slack)))), world)

def attemptTimeout : Seconds → Duration
  | .fixed x => .ofSeconds (x + slack)
  | .fromInput _ => .longest

def construct {σ : Type} (i : Init) : Except Error (Behavior σ) := do
  let value ← i.read shape.decode
  let seconds ← seconds i value
  return ⟨"delay", some (attemptTimeout seconds), false, execute i.id seconds⟩

end Workflow.Node.Delay
