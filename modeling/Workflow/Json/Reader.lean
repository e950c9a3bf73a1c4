import Workflow.Json.Draft
import Workflow.Text.Hex
import Workflow.Text.Utf8

/-!
Reading JSON text. The reader is a fold over the characters: its state holds the open containers,
innermost first, and what may come next. A text that stops being JSON leaves a draft of everything
before that place. Three things are wrong only for whoever reads the values and not for whoever
passes over them, so the reader marks them and goes on: more than 127 containers that are open at
once, and half of a surrogate pair or a malformed piece of UTF-8 inside a string.
-/
namespace Workflow.Json

/-- An open container with what it holds so far, last entry first. Behind a flaw nothing is kept,
since whoever reads the values stops there. -/
inductive Frame where
  | array (items : List Draft) (flaw : Option ReadError)
  | object (fields : List (String × Draft)) (key : String) (flaw : Option ReadError)

inductive Role where
  | value
  | key

inductive Escape where
  | none
  | begun
  /-- In a `\u` escape: the leading surrogate before it, the bytes and the value so far. -/
  | hex (lead : Option Nat) (bytes : Nat) (value : Option Nat)
  | lead (unit : Nat)
  | leadBegun (unit : Nat)

inductive Stage where
  | sign | zero | whole | point | fraction | mark | exponentSign | exponent

/-- A number as far as it has been read; digits are kept last first. -/
structure Numeral where
  negative : Bool
  stage : Stage
  whole : List Nat
  fraction : Option (List Nat)
  exponent : Option (Bool × Nat)

/-- What may come next. -/
inductive Mode where
  /-- A value; at the front of an array also its end. -/
  | value (first : Bool)
  /-- A value behind a comma. -/
  | item
  /-- A key; at the front of an object also its end. -/
  | key (first : Bool)
  | colon
  | comma
  /-- Only blanks: the whole value has been read. -/
  | finished (root : Draft)
  | word (rest : List Char) (value : Json)
  | string (role : Role) (text : List Char) (escape : Escape) (flaw : Option ReadError)
  | numeral (n : Numeral)

structure Reader where
  frames : List Frame
  mode : Mode
  position : Position

def digit? (c : Char) : Option Nat := if c.isDigit then some (c.toNat - 48) else none

namespace Frame

def push (entry : Draft) : Frame → Frame
  | .array items none => .array (entry :: items) none
  | .object fields key none => .object ((key, entry) :: fields) key none
  | frame => frame

/-- Says what key the next entry has, and whether there is a flaw in it. -/
def named (name : String) (flaw : Option ReadError) : Frame → Frame
  | .object fields _ before => .object fields name (before.or flaw)
  | frame => frame

def close : Frame → Draft
  | .array items flaw => .array items.reverse (flaw.map .soft)
  | .object fields _ flaw => .object fields.reverse (flaw.map .soft)

/-- The draft of a container that ends too early behind the given entry. -/
def abandon (f : Flaw) (inner : Option Draft) : Frame → Draft
  | .array items none => .array (items.reverse ++ inner.toList) (some f)
  | .array items (some e) => .array items.reverse (some ⟨e, f.skipped⟩)
  | .object fields key none =>
    .object (fields.reverse ++ (inner.map ((key, ·))).toList) (some f)
  | .object fields _ (some e) => .object fields.reverse (some ⟨e, f.skipped⟩)

end Frame

def Numeral.begin (negative : Bool) : Numeral := ⟨negative, .sign, [], none, none⟩

/-- What a character does to a number: it belongs to it, it cannot stand there, or the number
has ended before it. -/
inductive Numeral.Extension where
  | more (n : Numeral)
  | bad
  | ended

def Numeral.extend (n : Numeral) (c : Char) : Numeral.Extension :=
  let isMark := c = 'e' || c = 'E'
  let exponentDigit (d : Nat) : Numeral :=
    { n with stage := .exponent, exponent := n.exponent.map fun (s, v) => (s, v * 10 + d) }
  match n.stage, digit? c with
  | .sign, some 0 => .more { n with stage := .zero, whole := [0] }
  | .sign, some d => .more { n with stage := .whole, whole := [d] }
  | .sign, none => .bad
  | .zero, some _ => .bad
  | .whole, some d => .more { n with whole := d :: n.whole }
  | .zero, none | .whole, none =>
    if c = '.' then .more { n with stage := .point, fraction := some [] }
    else if isMark then .more { n with stage := .mark, exponent := some (false, 0) }
    else .ended
  | .point, some d | .fraction, some d =>
    .more { n with stage := .fraction, fraction := n.fraction.map (d :: ·) }
  | .point, none => .bad
  | .fraction, none =>
    if isMark then .more { n with stage := .mark, exponent := some (false, 0) } else .ended
  | .mark, some d | .exponentSign, some d | .exponent, some d => .more (exponentDigit d)
  | .mark, none =>
    if c = '+' then .more { n with stage := .exponentSign }
    else if c = '-' then .more { n with stage := .exponentSign, exponent := some (true, 0) }
    else .bad
  | .exponentSign, none => .bad
  | .exponent, none => .ended

def Numeral.mayEnd (n : Numeral) : Bool :=
  match n.stage with
  | .zero | .whole | .fraction | .exponent => true
  | .sign | .point | .mark | .exponentSign => false

/-- The draft of a number that ends at a place. -/
def Numeral.draft (n : Numeral) (p : Position) : Draft :=
  match Number.ofText n.negative n.whole.reverse (n.fraction.map List.reverse) n.exponent with
  | some value => .leaf (.number value)
  | none => .tooLarge ⟨.outOfRange, p⟩

namespace Reader

def start : Reader := ⟨[], .value false, .start⟩

def greatestDepth : Nat := 127

def isBlank (c : Char) : Bool := c = ' ' || c = '\n' || c = '\t' || c = '\r'

/-- Gives up at a place where a value should have been. -/
def giveUpAtValue (frames : List Frame) (f : Flaw) : Document :=
  ⟨frames.foldl (fun inner frame => frame.abandon f (some inner)) (.broken f), none⟩

/-- Gives up between the entries of the innermost container. -/
def giveUpInside (frames : List Frame) (f : Flaw) : Document :=
  match frames with
  | [] => ⟨.broken f, none⟩
  | frame :: outer =>
    ⟨outer.foldl (fun inner frame => frame.abandon f (some inner)) (frame.abandon f none), none⟩

def complete (r : Reader) (draft : Draft) : Reader :=
  match r.frames with
  | [] => { r with mode := .finished draft }
  | frame :: outer => { r with frames := frame.push draft :: outer, mode := .comma }

def close (r : Reader) : Reader :=
  match r.frames with
  | [] => r
  | frame :: outer => complete { r with frames := outer } frame.close

/-- Opens a container; when too many are open, that is a flaw. -/
def openFrame (r : Reader) (c : Char) (frame : Option ReadError → Frame) (mode : Mode) : Reader :=
  let flaw :=
    if greatestDepth ≤ r.frames.length then some ⟨.tooDeep, r.position.into c⟩ else none
  { r with frames := frame flaw :: r.frames, mode }

def beginValue (r : Reader) (c : Char) : Except Document Reader :=
  if c = 'n' then .ok { r with mode := .word ['u', 'l', 'l'] .null }
  else if c = 't' then .ok { r with mode := .word ['r', 'u', 'e'] (.bool true) }
  else if c = 'f' then .ok { r with mode := .word ['a', 'l', 's', 'e'] (.bool false) }
  else if c = '"' then .ok { r with mode := .string .value [] .none none }
  else if c = '-' then .ok { r with mode := .numeral (.begin true) }
  else if c = '[' then .ok (openFrame r c (.array []) (.value true))
  else if c = '{' then .ok (openFrame r c (.object [] "") (.key true))
  else match Numeral.extend (.begin false) c with
    | .more n => .ok { r with mode := .numeral n }
    | _ => .error (giveUpAtValue r.frames (.hard ⟨.expectedValue, r.position.into c⟩))

def betweenEntries (r : Reader) (c : Char) : Except Document Reader :=
  let fault (f : Fault) : Except Document Reader :=
    .error (giveUpInside r.frames (.hard ⟨f, r.position.into c⟩))
  if isBlank c then .ok r
  else match r.frames with
    | [] => .ok r
    | .array _ _ :: _ =>
      if c = ']' then .ok r.close
      else if c = ',' then .ok { r with mode := .item }
      else fault .expectedListComma
    | .object _ _ _ :: _ =>
      if c = '}' then .ok r.close
      else if c = ',' then .ok { r with mode := .key false }
      else fault .expectedObjectComma

def behind (r : Reader) (root : Draft) (c : Char) : Except Document Reader :=
  if isBlank c then .ok r
  else .error ⟨root, some ⟨.trailingCharacters, r.position.into c⟩⟩

/-- A character behind a value that has just been completed. -/
def afterValue (r : Reader) (c : Char) : Except Document Reader :=
  match r.mode with
  | .finished root => r.behind root c
  | _ => r.betweenEntries c

def closeString (r : Reader) (role : Role) (text : List Char) (flaw : Option ReadError) : Reader :=
  let s := String.ofList text.reverse
  match role with
  | .value =>
    match flaw with
    | none => r.complete (.leaf (.string s))
    | some e => r.complete (.broken (.soft e))
  | .key =>
    match r.frames with
    | [] => r
    | frame :: outer => { r with frames := frame.named s flaw :: outer, mode := .colon }

def shortEscape? (c : Char) : Option Char :=
  match c with
  | '"' => some '"'
  | '\\' => some '\\'
  | '/' => some '/'
  | 'b' => some '\x08'
  | 'f' => some '\x0c'
  | 'n' => some '\n'
  | 'r' => some '\r'
  | 't' => some '\t'
  | _ => none

def isLeading (unit : Nat) : Bool := 0xD800 ≤ unit && unit ≤ 0xDBFF

def isTrailing (unit : Nat) : Bool := 0xDC00 ≤ unit && unit ≤ 0xDFFF

/-- Gives up inside a string; whoever reads it finds a flaw that came before. -/
def giveUpInString (r : Reader) (role : Role) (flaw : Option ReadError) (f : Flaw) : Document :=
  let f : Flaw := ⟨flaw.getD f.error, f.skipped⟩
  match role with
  | .value => giveUpAtValue r.frames f
  | .key => giveUpInside r.frames f

/-- A character inside a string that belongs to no escape. -/
def inText (r : Reader) (role : Role) (text : List Char) (flaw : Option ReadError) (c : Char) :
    Except Document Reader :=
  if c = '"' then .ok (r.closeString role text flaw)
  else if c = '\\' then .ok { r with mode := .string role text .begun flaw }
  else if c.toNat < 32 then
    .error (r.giveUpInString role flaw
      ⟨⟨.controlCharacter, r.position.into c⟩, some ⟨.controlCharacter, r.position⟩⟩)
  else .ok { r with mode := .string role (c :: text) .none flaw }

def inEscape (r : Reader) (role : Role) (text : List Char) (flaw : Option ReadError) (c : Char) :
    Except Document Reader :=
  if c = 'u' then .ok { r with mode := .string role text (.hex none 0 (some 0)) flaw }
  else match shortEscape? c with
    | some e => .ok { r with mode := .string role (e :: text) .none flaw }
    | none => .error (r.giveUpInString role flaw (.hard ⟨.badEscape, r.position.into c⟩))

/-- A character that should be a hexadecimal digit. -/
def inHex (r : Reader) (role : Role) (text : List Char) (lead : Option Nat) (bytes : Nat)
    (value : Option Nat) (flaw : Option ReadError) (c : Char) : Except Document Reader :=
  let bytes := bytes + c.utf8Size
  let value := do return (← value) * 16 + (← Text.hexDigit? c)
  let go (text : List Char) (escape : Escape) (flaw : Option ReadError) :
      Except Document Reader :=
    .ok { r with mode := .string role text escape flaw }
  let lone := go text .none (flaw.or (some ⟨.loneSurrogate, r.position.after c⟩))
  if bytes < 4 then go text (.hex lead bytes value) flaw
  else match lead, value with
    | _, none => .error (r.giveUpInString role flaw (.hard ⟨.badEscape, r.position.after c⟩))
    | none, some unit =>
      if isTrailing unit then lone
      else if isLeading unit then go text (.lead unit) flaw
      else go (Char.ofNat unit :: text) .none flaw
    | some first, some unit =>
      if isTrailing unit then
        go (Char.ofNat ((first - 0xD800) * 0x400 + (unit - 0xDC00) + 0x10000) :: text) .none flaw
      else lone

/-- A character inside a string. A leading surrogate without the other half of its pair is a flaw,
and what stands in the place of the other half is taken as if there were none before it. -/
def inString (r : Reader) (role : Role) (text : List Char) (escape : Escape)
    (flaw : Option ReadError) (c : Char) : Except Document Reader :=
  let alone := flaw.or (some ⟨.endInEscape, r.position.into c⟩)
  match escape with
  | .none => r.inText role text flaw c
  | .begun => r.inEscape role text flaw c
  | .hex lead bytes value => r.inHex role text lead bytes value flaw c
  | .lead unit =>
    if c = '\\' then .ok { r with mode := .string role text (.leadBegun unit) flaw }
    else r.inText role text alone c
  | .leadBegun unit =>
    if c = 'u' then .ok { r with mode := .string role text (.hex (some unit) 0 (some 0)) flaw }
    else r.inEscape role text alone c

def take (r : Reader) (c : Char) : Except Document Reader :=
  let error (f : Fault) : ReadError := ⟨f, r.position.into c⟩
  let failAtValue (f : Fault) : Except Document Reader :=
    .error (giveUpAtValue r.frames (.hard (error f)))
  let failInside (f skipped : Fault) : Except Document Reader :=
    .error (giveUpInside r.frames ⟨error f, some (error skipped)⟩)
  match r.mode with
  | .value first =>
    if isBlank c then .ok r
    else if first && c = ']' then .ok r.close
    else r.beginValue c
  | .item =>
    if isBlank c then .ok r
    else if c = ']' then failInside .trailingComma .expectedValue
    else r.beginValue c
  | .key first =>
    if isBlank c then .ok r
    else if c = '"' then .ok { r with mode := .string .key [] .none none }
    else if c = '}' then
      if first then .ok r.close else failInside .trailingComma .keyNotString
    else failInside .keyNotString .keyNotString
  | .colon =>
    if isBlank c then .ok r
    else if c = ':' then .ok { r with mode := .value false }
    else failAtValue .expectedColon
  | .comma => r.betweenEntries c
  | .finished root => r.behind root c
  | .word rest value =>
    match rest with
    | [] => (r.complete (.leaf value)).afterValue c
    | [expected] =>
      if c = expected then .ok (r.complete (.leaf value)) else failAtValue .expectedWord
    | expected :: rest =>
      if c = expected then .ok { r with mode := .word rest value } else failAtValue .expectedWord
  | .string role text escape flaw => r.inString role text escape flaw c
  | .numeral n =>
    match n.extend c with
    | .more n => .ok { r with mode := .numeral n }
    | .bad => failAtValue .badNumber
    | .ended => (r.complete (n.draft r.position)).afterValue c

def step (r : Reader) (c : Char) : Except Document Reader := do
  let r ← r.take c
  return { r with position := r.position.after c }

/-- Takes a character or a malformed piece, which is a flaw inside a string and anywhere else as
wrong as a character for which there is no place. -/
def stepPiece (r : Reader) : Option Char → Except Document Reader
  | some c => r.step c
  | none =>
    match r.mode with
    | .string role text .none flaw =>
      let flaw := flaw.or (some ⟨.notUnicode, r.position⟩)
      .ok { r with mode := .string role text .none flaw }
    | _ => r.step '\ufffd'

def finish (r : Reader) : Document :=
  let error (f : Fault) : ReadError := ⟨f, r.position⟩
  let endInside (frames : List Frame) : Document :=
    match frames with
    | .object _ _ _ :: _ => giveUpInside frames (.hard (error .endInObject))
    | _ => giveUpInside frames (.hard (error .endInList))
  match r.mode with
  | .value true => endInside r.frames
  | .value false | .item => giveUpAtValue r.frames (.hard (error .endInValue))
  | .key true => endInside r.frames
  | .key false => giveUpInside r.frames ⟨error .endInValue, some (error .endInObject)⟩
  | .colon => giveUpAtValue r.frames (.hard (error .endInObject))
  | .comma => endInside r.frames
  | .finished root => ⟨root, none⟩
  | .word _ _ => giveUpAtValue r.frames (.hard (error .endInValue))
  | .string role _ _ flaw => r.giveUpInString role flaw (.hard (error .endInString))
  | .numeral n =>
    if n.mayEnd then
      let r := r.complete (n.draft r.position)
      match r.mode with
      | .finished root => ⟨root, none⟩
      | _ => endInside r.frames
    else giveUpAtValue r.frames ⟨error .endInValue, some (error .badNumber)⟩

end Reader

def readDraft (text : String) : Document :=
  match text.toList.foldlM Reader.step Reader.start with
  | .ok r => r.finish
  | .error d => d

def readBytes (bytes : List UInt8) : Document :=
  match (Text.scanUtf8 none bytes).foldlM Reader.stepPiece Reader.start with
  | .ok r => r.finish
  | .error d => d

def parse (text : String) : Except ReadError Json := (readDraft text).toJson

end Workflow.Json
