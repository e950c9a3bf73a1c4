import Workflow.Proofs.Fallible
import Workflow.Proofs.Nesting

/-!
What the reader makes of the compact text of a value. Below the greatest depth it is the draft of
the value, with every number as its text is read; a value that is nested deeper has a draft as well,
but not one that stands for a value.
-/
namespace Workflow.Json

open Fallible (bind_eq_ok)

/-! ## Containers -/

namespace Frame

/-- The container is an array. -/
def IsArray : Frame → Prop
  | .array _ _ => True
  | .object _ _ _ => False

/-- The container is an object. -/
def IsObject : Frame → Prop
  | .array _ _ => False
  | .object _ _ _ => True

/-- The container with more items. -/
def pushAll (frame : Frame) (xs : List Draft) : Frame :=
  xs.foldl (fun frame x => frame.push x) frame

/-- The container with more entries. -/
def enterAll (frame : Frame) (es : List (String × Draft)) : Frame :=
  es.foldl (fun frame e => (frame.named e.1 none).push e.2) frame

theorem IsArray.push {frame : Frame} (h : frame.IsArray) (x : Draft) : (frame.push x).IsArray := by
  cases frame with
  | array items flaw => cases flaw <;> trivial
  | object fields key flaw => cases h

theorem IsObject.push_named {frame : Frame} (h : frame.IsObject) (e : String × Draft) :
    ((frame.named e.1 none).push e.2).IsObject := by
  cases frame with
  | array items flaw => cases h
  | object fields key flaw => cases flaw <;> trivial

theorem close_pushAll (items xs : List Draft) :
    ((array items none).pushAll xs).close = .array (items.reverse ++ xs) none := by
  induction xs generalizing items with
  | nil => simp [pushAll, close]
  | cons x xs ih => exact (ih (x :: items)).trans (by simp)

theorem close_enterAll (fields : List (String × Draft)) (key : String)
    (es : List (String × Draft)) :
    ((object fields key none).enterAll es).close = .object (fields.reverse ++ es) none := by
  induction es generalizing fields key with
  | nil => simp [enterAll, close]
  | cons e es ih => exact (ih (e :: fields) e.1).trans (by simp)

/-- Behind a flaw nothing more is put into an array. -/
theorem close_pushAll_flawed (items : List Draft) (flaw : ReadError) (xs : List Draft) :
    ((array items (some flaw)).pushAll xs).close = .array items.reverse (some (.soft flaw)) := by
  induction xs with
  | nil => rfl
  | cons x xs ih => exact ih

theorem close_enterAll_flawed (fields : List (String × Draft)) (key : String) (flaw : ReadError)
    (es : List (String × Draft)) :
    ((object fields key (some flaw)).enterAll es).close =
      .object fields.reverse (some (.soft flaw)) := by
  induction es generalizing key with
  | nil => rfl
  | cons e es ih => exact ih e.1

end Frame

/-! ## Drafts of values -/

mutual

/-- The draft that is made of a value inside so many containers, when numbers are read by `f`. A
container that is too deep is left empty. -/
inductive MadeOf (f : Number → Number) : Nat → Json → Draft → Prop
  | null (k : Nat) : MadeOf f k .null (.leaf .null)
  | bool (k : Nat) (b : Bool) : MadeOf f k (.bool b) (.leaf (.bool b))
  | number (k : Nat) (n : Number) : MadeOf f k (.number n) (.leaf (.number (f n)))
  | string (k : Nat) (s : String) : MadeOf f k (.string s) (.leaf (.string s))
  | array {k : Nat} {items : List Json} {xs : List Draft} (hk : k < Reader.greatestDepth)
      (h : MadeOfItems f (k + 1) items xs) : MadeOf f k (.array items) (.array xs none)
  | object {k : Nat} {fields : List (String × Json)} {es : List (String × Draft)}
      (hk : k < Reader.greatestDepth) (h : MadeOfFields f (k + 1) fields es) :
      MadeOf f k (.object fields) (.object es none)
  | deepArray {k : Nat} (hk : Reader.greatestDepth ≤ k) (items : List Json) (e : ReadError) :
      MadeOf f k (.array items) (.array [] (some (.soft e)))
  | deepObject {k : Nat} (hk : Reader.greatestDepth ≤ k) (fields : List (String × Json))
      (e : ReadError) : MadeOf f k (.object fields) (.object [] (some (.soft e)))

inductive MadeOfItems (f : Number → Number) : Nat → List Json → List Draft → Prop
  | nil (k : Nat) : MadeOfItems f k [] []
  | cons {k : Nat} {item : Json} {x : Draft} {items : List Json} {xs : List Draft}
      (h : MadeOf f k item x) (hs : MadeOfItems f k items xs) :
      MadeOfItems f k (item :: items) (x :: xs)

inductive MadeOfFields (f : Number → Number) :
    Nat → List (String × Json) → List (String × Draft) → Prop
  | nil (k : Nat) : MadeOfFields f k [] []
  | cons {k : Nat} {field : String × Json} {x : Draft} {fields : List (String × Json)}
      {es : List (String × Draft)} (h : MadeOf f k field.2 x) (hs : MadeOfFields f k fields es) :
      MadeOfFields f k (field :: fields) ((field.1, x) :: es)

end

mutual

/-- Of a value that is not nested too deep its draft is made. -/
theorem MadeOf.eq_ofJson {f : Number → Number} {k : Nat} (v : Json) {x : Draft}
    (h : MadeOf f k v x) (hdepth : k + v.depth ≤ Reader.greatestDepth) :
    x = .ofJson (v.mapNumbers f) := by
  cases h with
  | null => rfl
  | bool => rfl
  | number => rfl
  | string => rfl
  | @array _ items xs hk h =>
    rw [depth] at hdepth
    rw [h.eq_ofItems items (by omega)]
    rfl
  | @object _ fields es hk h =>
    rw [depth] at hdepth
    rw [h.eq_ofFields fields (by omega)]
    rfl
  | deepArray hk items e =>
    rw [depth] at hdepth
    omega
  | deepObject hk fields e =>
    rw [depth] at hdepth
    omega

theorem MadeOfItems.eq_ofItems {f : Number → Number} {k : Nat} (items : List Json)
    {xs : List Draft} (h : MadeOfItems f k items xs)
    (hdepth : k + depthOfItems items ≤ Reader.greatestDepth) :
    xs = Draft.ofItems (mapItems f items) := by
  cases h with
  | nil => rfl
  | @cons _ item x items xs h hs =>
    rw [depthOfItems] at hdepth
    rw [h.eq_ofJson item (by omega), hs.eq_ofItems items (by omega)]
    rfl

theorem MadeOfFields.eq_ofFields {f : Number → Number} {k : Nat}
    (fields : List (String × Json)) {es : List (String × Draft)} (h : MadeOfFields f k fields es)
    (hdepth : k + depthOfFields fields ≤ Reader.greatestDepth) :
    es = Draft.ofFields (mapFields f fields) := by
  cases h with
  | nil => rfl
  | @cons _ field x fields es h hs =>
    rw [depthOfFields] at hdepth
    rw [h.eq_ofJson field.2 (by omega), hs.eq_ofFields fields (by omega)]
    rfl

end

mutual

/-- A value that can be had from what is made of it is not nested too deep. -/
theorem MadeOf.depth_le {f : Number → Number} {k : Nat} (v : Json) {x : Draft}
    (h : MadeOf f k v x) (hk : k ≤ Reader.greatestDepth) {w : Json} (hw : x.toJson = .ok w) :
    k + v.depth ≤ Reader.greatestDepth := by
  cases h with
  | null => exact hk
  | bool => exact hk
  | number => exact hk
  | string => exact hk
  | @array _ items xs hk h =>
    obtain ⟨ws, hws, -⟩ := bind_eq_ok.1 hw
    have hle := h.depthOfItems_le items hk hws
    rw [depth]
    omega
  | @object _ fields es hk h =>
    obtain ⟨ws, hws, -⟩ := bind_eq_ok.1 hw
    have hle := h.depthOfFields_le fields hk hws
    rw [depth]
    omega
  | deepArray => cases hw
  | deepObject => cases hw

theorem MadeOfItems.depthOfItems_le {f : Number → Number} {k : Nat} (items : List Json)
    {xs : List Draft} (h : MadeOfItems f k items xs) (hk : k ≤ Reader.greatestDepth)
    {ws : List Json} (hws : Draft.toItems xs = .ok ws) :
    k + depthOfItems items ≤ Reader.greatestDepth := by
  cases h with
  | nil => exact hk
  | @cons _ item x items xs h hs =>
    obtain ⟨w, hw, hws⟩ := bind_eq_ok.1 hws
    obtain ⟨ws, hws, -⟩ := bind_eq_ok.1 hws
    have hitem := h.depth_le item hk hw
    have hitems := hs.depthOfItems_le items hk hws
    rw [depthOfItems]
    omega

theorem MadeOfFields.depthOfFields_le {f : Number → Number} {k : Nat}
    (fields : List (String × Json)) {es : List (String × Draft)} (h : MadeOfFields f k fields es)
    (hk : k ≤ Reader.greatestDepth) {ws : List (String × Json)}
    (hws : Draft.toFields es = .ok ws) : k + depthOfFields fields ≤ Reader.greatestDepth := by
  cases h with
  | nil => exact hk
  | @cons _ field x fields es h hs =>
    obtain ⟨w, hw, hws⟩ := bind_eq_ok.1 hws
    obtain ⟨ws, hws, -⟩ := bind_eq_ok.1 hws
    have hfield := h.depth_le field.2 hk hw
    have hfields := hs.depthOfFields_le fields hk hws
    rw [depthOfFields]
    omega

end

theorem MadeOfItems.exists_mem {f : Number → Number} {k : Nat} {items : List Json}
    {xs : List Draft} (h : MadeOfItems f k items xs) {v : Json} (hv : v ∈ items) :
    ∃ x ∈ xs, MadeOf f k v x := by
  induction items generalizing xs with
  | nil => cases hv
  | cons item rest ih =>
    cases h with
    | cons hitem hrest =>
      rcases List.mem_cons.1 hv with rfl | hv
      · exact ⟨_, List.mem_cons_self, hitem⟩
      · obtain ⟨x, hx, hmade⟩ := ih hrest hv
        exact ⟨x, List.mem_cons_of_mem _ hx, hmade⟩

theorem MadeOfFields.exists_mem {f : Number → Number} {k : Nat} {fields : List (String × Json)}
    {es : List (String × Draft)} (h : MadeOfFields f k fields es) {e : String × Json}
    (he : e ∈ fields) : ∃ x, (e.1, x) ∈ es ∧ MadeOf f k e.2 x := by
  induction fields generalizing es with
  | nil => cases he
  | cons field rest ih =>
    cases h with
    | cons hfield hrest =>
      rcases List.mem_cons.1 he with rfl | he
      · exact ⟨_, List.mem_cons_self, hfield⟩
      · obtain ⟨x, hx, hmade⟩ := ih hrest he
        exact ⟨x, List.mem_cons_of_mem _ hx, hmade⟩

namespace Reader

/-! ## Parts of a text -/

section Parts

variable {frames frames' frames'' : List Frame} {mode mode' mode'' : Mode} {s t : List Char}

/-- From some frames and a mode a text leads to others, wherever it stands. -/
def Leads (frames : List Frame) (mode : Mode) (text : List Char) (frames' : List Frame)
    (mode' : Mode) : Prop :=
  ∀ p, ∃ p', text.foldlM step ⟨frames, mode, p⟩ = .ok ⟨frames', mode', p'⟩

/-- From some frames and a mode a text leads to others of a kind; which ones may depend on where it
stands. -/
def LeadsTo (frames : List Frame) (mode : Mode) (text : List Char)
    (P : List Frame → Mode → Prop) : Prop :=
  ∀ p, ∃ frames' mode' p', text.foldlM step ⟨frames, mode, p⟩ = .ok ⟨frames', mode', p'⟩ ∧
    P frames' mode'

theorem Leads.nil : Leads frames mode [] frames mode := fun p => ⟨p, rfl⟩

theorem Leads.cons {c : Char} (h : ∀ p, take ⟨frames, mode, p⟩ c = .ok ⟨frames', mode', p⟩)
    (hs : Leads frames' mode' s frames'' mode'') :
    Leads frames mode (c :: s) frames'' mode'' := by
  intro p
  obtain ⟨p', hp'⟩ := hs (p.after c)
  refine ⟨p', ?_⟩
  rw [List.foldlM_cons, step, h]
  exact hp'

theorem Leads.single {c : Char} (h : ∀ p, take ⟨frames, mode, p⟩ c = .ok ⟨frames', mode', p⟩) :
    Leads frames mode [c] frames' mode' :=
  .cons h .nil

theorem Leads.append (hs : Leads frames mode s frames' mode')
    (ht : Leads frames' mode' t frames'' mode'') :
    Leads frames mode (s ++ t) frames'' mode'' := by
  intro p
  obtain ⟨p', hp'⟩ := hs p
  obtain ⟨p'', hp''⟩ := ht p'
  refine ⟨p'', ?_⟩
  rw [List.foldlM_append, hp']
  exact hp''

theorem Leads.leadsTo {P : List Frame → Mode → Prop} (h : Leads frames mode s frames' mode')
    (hP : P frames' mode') : LeadsTo frames mode s P := by
  intro p
  obtain ⟨p', hp'⟩ := h p
  exact ⟨frames', mode', p', hp', hP⟩

theorem LeadsTo.mono {P Q : List Frame → Mode → Prop} (h : LeadsTo frames mode s P)
    (hPQ : ∀ frames' mode', P frames' mode' → Q frames' mode') : LeadsTo frames mode s Q := by
  intro p
  obtain ⟨frames', mode', p', hp', hP⟩ := h p
  exact ⟨frames', mode', p', hp', hPQ frames' mode' hP⟩

theorem LeadsTo.append {P Q : List Frame → Mode → Prop} (hs : LeadsTo frames mode s P)
    (ht : ∀ frames' mode', P frames' mode' → LeadsTo frames' mode' t Q) :
    LeadsTo frames mode (s ++ t) Q := by
  intro p
  obtain ⟨frames', mode', p', hp', hP⟩ := hs p
  obtain ⟨frames'', mode'', p'', hp'', hQ⟩ := ht frames' mode' hP p'
  refine ⟨frames'', mode'', p'', ?_, hQ⟩
  rw [List.foldlM_append, hp']
  exact hp''

theorem Leads.append_to {P : List Frame → Mode → Prop} (hs : Leads frames mode s frames' mode')
    (ht : LeadsTo frames' mode' t P) : LeadsTo frames mode (s ++ t) P := by
  refine (hs.leadsTo (P := fun f m => f = frames' ∧ m = mode') ⟨rfl, rfl⟩).append ?_
  rintro _ _ ⟨rfl, rfl⟩
  exact ht

end Parts

/-! ## Finished values -/

section Values

variable {frames frames' : List Frame} {mode mode' : Mode} {x : Draft} {c : Char}

/-- The frames with a finished value in the innermost one. -/
def stow (x : Draft) : List Frame → List Frame
  | [] => []
  | frame :: outer => frame.push x :: outer

/-- What may come behind a finished value. -/
def modeBehind (x : Draft) : List Frame → Mode
  | [] => .finished x
  | _ :: _ => .comma

theorem complete_eq (frames : List Frame) (mode : Mode) (p : Position) (x : Draft) :
    complete ⟨frames, mode, p⟩ x = ⟨stow x frames, modeBehind x frames, p⟩ := by
  cases frames with
  | nil => rfl
  | cons frame outer => rfl

/-- A value may come next. -/
def Mode.AwaitsValue : Mode → Prop
  | .value _ | .item => True
  | _ => False

theorem take_value (hmode : Mode.AwaitsValue mode) (hblank : isBlank c = false) (hc : c ≠ ']')
    (p : Position) : take ⟨frames, mode, p⟩ c = beginValue ⟨frames, mode, p⟩ c := by
  cases mode with
  | value first => simp [take, hblank, hc]
  | item => simp [take, hblank, hc]
  | _ => cases hmode

/-- The character ends an entry of a container. -/
def EndsEntry (c : Char) : Prop := c = ',' ∨ c = ']' ∨ c = '}'

/-- Whatever ends an entry does the same as if all values in the frames were finished. -/
def Rests (frames frames' : List Frame) (mode' : Mode) : Prop :=
  ∀ p c, EndsEntry c → take ⟨frames', mode', p⟩ c = betweenEntries ⟨frames, .comma, p⟩ c

theorem Rests.comma : Rests frames frames .comma := fun _ _ _ => rfl

theorem close_eq (frame : Frame) (outer : List Frame) (mode : Mode) (p : Position) :
    close ⟨frame :: outer, mode, p⟩ =
      ⟨stow frame.close outer, modeBehind frame.close outer, p⟩ :=
  complete_eq outer mode p _

section

variable {frame : Frame} {outer : List Frame} (h : Rests (frame :: outer) frames' mode')

include h

/-- A comma brings the next entry of an array. -/
theorem Rests.leads_item (hframe : frame.IsArray) :
    Leads frames' mode' [','] (frame :: outer) .item := by
  cases frame with
  | array items flaw => exact .single fun p => (h p ',' (Or.inl rfl)).trans rfl
  | object fields key flaw => cases hframe

theorem Rests.leads_key (hframe : frame.IsObject) :
    Leads frames' mode' [','] (frame :: outer) (.key false) := by
  cases frame with
  | array items flaw => cases hframe
  | object fields key flaw => exact .single fun p => (h p ',' (Or.inl rfl)).trans rfl

theorem Rests.leads_closed_array (hframe : frame.IsArray) :
    Leads frames' mode' [']'] (stow frame.close outer) (modeBehind frame.close outer) := by
  cases frame with
  | array items flaw =>
    exact .single fun p => (h p ']' (Or.inr (Or.inl rfl))).trans
      (congrArg Except.ok (close_eq _ outer .comma p))
  | object fields key flaw => cases hframe

theorem Rests.leads_closed_object (hframe : frame.IsObject) :
    Leads frames' mode' ['}'] (stow frame.close outer) (modeBehind frame.close outer) := by
  cases frame with
  | array items flaw => cases hframe
  | object fields key flaw =>
    exact .single fun p => (h p '}' (Or.inr (Or.inr rfl))).trans
      (congrArg Except.ok (close_eq _ outer .comma p))

end

end Values

/-! ## Texts in quotes -/

section Quotes

variable {frames : List Frame} {mode : Mode} {role : Role}

theorem hexDigit?_digitChar {n : Nat} (h : n < 16) : Text.hexDigit? n.digitChar = some n := by
  revert n
  decide

theorem utf8Size_digitChar {n : Nat} (h : n < 16) : n.digitChar.utf8Size = 1 := by
  revert n
  decide

/-- A hexadecimal digit before the last one. -/
theorem take_hex {c : Char} {d bytes value : Nat} {text : List Char} (hsize : c.utf8Size = 1)
    (hd : Text.hexDigit? c = some d) (hbytes : bytes + 1 < 4) (p : Position) :
    take ⟨frames, .string role text (.hex none bytes (some value)) none, p⟩ c =
      .ok ⟨frames, .string role text (.hex none (bytes + 1) (some (value * 16 + d))) none, p⟩ := by
  simp only [take, inString, inHex, hsize, hd, if_pos hbytes]
  rfl

/-- The last hexadecimal digit of a character that is not half of a pair. -/
theorem take_lastHex {c : Char} {d value : Nat} {text : List Char} (hsize : c.utf8Size = 1)
    (hd : Text.hexDigit? c = some d) (hunit : value * 16 + d < 0xD800) (p : Position) :
    take ⟨frames, .string role text (.hex none 3 (some value)) none, p⟩ c =
      .ok ⟨frames, .string role (Char.ofNat (value * 16 + d) :: text) .none none, p⟩ := by
  have hleading : isLeading (value * 16 + d) = false := by simp [isLeading]; omega
  have htrailing : isTrailing (value * 16 + d) = false := by simp [isTrailing]; omega
  simp [take, inString, inHex, hsize, hd, hleading, htrailing]

/-- A control character is read from its four hexadecimal digits. -/
theorem leads_controlDigits {n : Nat} (h : n < 32) (text : List Char) :
    Leads frames (.string role text .none none) (['\\', 'u', '0', '0'] ++ controlDigits n)
      frames (.string role (Char.ofNat n :: text) .none none) := by
  have hhigh : n / 16 < 16 := by omega
  have hlow : n % 16 < 16 := by omega
  have hvalue : n / 16 * 16 + n % 16 = n := by omega
  have hlast := @take_lastHex frames role _ _ (n / 16) text
    (utf8Size_digitChar hlow) (hexDigit?_digitChar hlow) (by omega)
  rw [hvalue] at hlast
  have hbegun : Leads frames (.string role text .none none) ['\\', 'u']
      frames (.string role text (.hex none 0 (some 0)) none) :=
    .cons (fun _ => rfl) (.single fun _ => rfl)
  have hzero : Text.hexDigit? '0' = some 0 := rfl
  have hdigits : Leads frames (.string role text (.hex none 0 (some 0)) none)
      ('0' :: '0' :: controlDigits n) frames (.string role (Char.ofNat n :: text) .none none) := by
    refine .cons (take_hex rfl hzero (by decide)) (.cons (take_hex rfl hzero (by decide)) ?_)
    refine .cons (take_hex (utf8Size_digitChar hhigh) (hexDigit?_digitChar hhigh) (by decide)) ?_
    simpa using Leads.single hlast
  exact hbegun.append hdigits

/-- A character is read from its written form. -/
theorem leads_escapeChar (text : List Char) (c : Char) :
    Leads frames (.string role text .none none) (escapeChar c)
      frames (.string role (c :: text) .none none) := by
  have hshort (letter : Char) (hletter : letter ≠ 'u') (hc : shortEscape? letter = some c) :
      Leads frames (.string role text .none none) ['\\', letter]
        frames (.string role (c :: text) .none none) := by
    refine .cons (fun _ => rfl) (.single fun _ => ?_)
    simp [take, inString, inEscape, hletter, hc]
  rw [escapeChar]
  split
  · rename_i hc
    exact hshort '"' (by decide) (by rw [hc]; rfl)
  split
  · rename_i hc
    exact hshort '\\' (by decide) (by rw [hc]; rfl)
  split
  · rename_i hc
    exact hshort 'n' (by decide) (by rw [hc]; rfl)
  split
  · rename_i hc
    exact hshort 'r' (by decide) (by rw [hc]; rfl)
  split
  · rename_i hc
    exact hshort 't' (by decide) (by rw [hc]; rfl)
  split
  · rename_i hc
    exact hshort 'b' (by decide) (by rw [← Char.ofNat_toNat c, hc]; rfl)
  split
  · rename_i hc
    exact hshort 'f' (by decide) (by rw [← Char.ofNat_toNat c, hc]; rfl)
  split
  · rename_i hc
    have hcontrol := @leads_controlDigits frames role _ hc text
    rwa [Char.ofNat_toNat] at hcontrol
  · rename_i hquote hbackslash _ _ _ _ _ hcontrol
    refine .single fun _ => ?_
    simp [take, inString, inText, hquote, hbackslash, hcontrol]

theorem leads_flatMap_escapeChar (s text : List Char) :
    Leads frames (.string role text .none none) (s.flatMap escapeChar)
      frames (.string role (s.reverse ++ text) .none none) := by
  induction s generalizing text with
  | nil => exact .nil
  | cons c rest ih =>
    rw [List.flatMap_cons, List.reverse_cons, List.append_assoc]
    exact (leads_escapeChar text c).append (ih (c :: text))

/-- The characters of a text in quotes, behind the first quote, are read as the text. -/
theorem leads_closing_quote (s : String) {frames' : List Frame} {mode' : Mode}
    (h : ∀ p, closeString ⟨frames, .string role s.toList.reverse .none none, p⟩ role
      s.toList.reverse none = ⟨frames', mode', p⟩) :
    Leads frames (.string role [] .none none) (s.toList.flatMap escapeChar ++ ['"']) frames'
      mode' := by
  have hcharacters := @leads_flatMap_escapeChar frames role s.toList []
  rw [List.append_nil] at hcharacters
  exact hcharacters.append (.single fun p => congrArg Except.ok (h p))

theorem toList_quote (s : String) :
    (quote s).toList = '"' :: (s.toList.flatMap escapeChar ++ ['"']) := by
  rw [quote, String.toList_ofList, List.cons_append]

/-- A text in quotes is read as the text where a value may come next. -/
theorem leads_quote (hmode : Mode.AwaitsValue mode) (s : String) :
    Leads frames mode (quote s).toList (stow (.leaf (.string s)) frames)
      (modeBehind (.leaf (.string s)) frames) := by
  rw [toList_quote]
  refine .cons (fun p => take_value hmode (by decide) (by decide) p) ?_
  refine leads_closing_quote s fun p => ?_
  rw [closeString, List.reverse_reverse, String.ofList_toList]
  exact complete_eq frames _ p _

/-- A text in quotes is read as the key of an object where a key may come next. -/
theorem leads_key (frame : Frame) (outer : List Frame) (first : Bool) (s : String) :
    Leads (frame :: outer) (.key first) ((quote s).toList ++ [':'])
      (frame.named s none :: outer) (.value false) := by
  have hkey : Leads (frame :: outer) (.key first) (quote s).toList
      (frame.named s none :: outer) .colon := by
    rw [toList_quote]
    refine .cons (fun p => rfl) (leads_closing_quote s fun p => ?_)
    rw [closeString, List.reverse_reverse, String.ofList_toList]
  exact hkey.append (.single fun p => rfl)

end Quotes

/-! ## Values -/

section Values

variable {frames : List Frame} {mode : Mode}

/-- A word is read as its value. -/
theorem leads_word {word : List Char} {value : Json} {c : Char}
    (hbegin : ∀ p, take ⟨frames, mode, p⟩ c = .ok ⟨frames, .word word value, p⟩)
    (hword : word ≠ []) :
    Leads frames mode (c :: word) (stow (.leaf value) frames)
      (modeBehind (.leaf value) frames) := by
  refine .cons hbegin ?_
  clear hbegin
  induction word with
  | nil => exact absurd rfl hword
  | cons first rest ih =>
    cases rest with
    | nil =>
      refine .single fun p => ?_
      simp [take, complete_eq]
    | cons second rest =>
      refine .cons (fun p => ?_) (ih (List.cons_ne_nil _ _))
      simp [take]

end Values

end Reader

/-- The text of a number is read as a number, to be ended by what ends an entry. -/
def Number.ReadsAs (n m : Number) : Prop :=
  ∀ frames mode, Reader.Mode.AwaitsValue mode →
    ∃ numeral, Reader.Leads frames mode n.text.toList frames (.numeral numeral) ∧
      (∀ c, Reader.EndsEntry c → numeral.extend c = .ended) ∧
      ∀ p, numeral.draft p = .leaf (.number m)

namespace Reader

section Values

variable {frames : List Frame} {mode : Mode} {f : Number → Number}

/-- Inside some containers a text is read as a draft of a kind, to be ended by what ends an
entry. -/
def Becomes (frames : List Frame) (mode : Mode) (text : List Char) (P : Draft → Prop) : Prop :=
  LeadsTo frames mode text fun frames' mode' => ∃ x, Rests (stow x frames) frames' mode' ∧ P x

/-- Behind a value that is finished inside a container, an entry may end. -/
theorem rests_stow (hne : frames ≠ []) (x : Draft) :
    Rests (stow x frames) (stow x frames) (modeBehind x frames) := by
  cases frames with
  | nil => exact absurd rfl hne
  | cons frame outer => exact .comma

theorem Leads.becomes {text : List Char} {x : Draft} {P : Draft → Prop} (hne : frames ≠ [])
    (h : Leads frames mode text (stow x frames) (modeBehind x frames)) (hx : P x) :
    Becomes frames mode text P :=
  h.leadsTo ⟨x, rests_stow hne x, hx⟩

/-- Behind a number, an entry may end. -/
theorem becomes_number {n m : Number} {P : Draft → Prop} (h : n.ReadsAs m) (hne : frames ≠ [])
    (hmode : Mode.AwaitsValue mode) (hm : P (.leaf (.number m))) :
    Becomes frames mode n.text.toList P := by
  obtain ⟨numeral, hleads, hends, hdraft⟩ := h frames mode hmode
  refine hleads.leadsTo ⟨_, fun p c hc => ?_, hm⟩
  cases frames with
  | nil => exact absurd rfl hne
  | cons frame outer =>
    simp only [take, hends c hc, hdraft, complete_eq]
    rfl

/-- The opening bracket of a container is taken; one that is too deep has a flaw. -/
theorem leadsTo_opening {c : Char} {frame : Option ReadError → Frame} {inner : Mode}
    (hbegin : ∀ p, take ⟨frames, mode, p⟩ c = .ok (openFrame ⟨frames, mode, p⟩ c frame inner)) :
    LeadsTo frames mode [c] fun frames' mode' => mode' = inner ∧
      ((frames.length < greatestDepth ∧ frames' = frame none :: frames) ∨
        greatestDepth ≤ frames.length ∧ ∃ e, frames' = frame (some e) :: frames) := by
  intro p
  refine ⟨_, _, _, by rw [List.foldlM_cons, step, hbegin]; rfl, rfl, ?_⟩
  rcases Nat.lt_or_ge frames.length greatestDepth with hdepth | hdepth
  · exact Or.inl ⟨hdepth, congrArg (frame · :: frames) (if_neg (Nat.not_le.2 hdepth))⟩
  · exact Or.inr ⟨hdepth, _, congrArg (frame · :: frames) (if_pos hdepth)⟩

/-- The innermost container is closed and has become a value. -/
def Closed (frame : Frame) (outer frames' : List Frame) (mode' : Mode) : Prop :=
  frames' = stow frame.close outer ∧ mode' = modeBehind frame.close outer

theorem Closed.rests {frame : Frame} {outer frames' : List Frame} {mode' : Mode} (hne : outer ≠ [])
    (h : Closed frame outer frames' mode') : Rests (stow frame.close outer) frames' mode' := by
  obtain ⟨rfl, rfl⟩ := h
  exact rests_stow hne _

theorem toList_intercalate_cons (first : String) {rest : List String} (hrest : rest ≠ []) :
    (",".intercalate (first :: rest)).toList =
      first.toList ++ ([','] ++ (",".intercalate rest).toList) := by
  cases rest with
  | nil => exact absurd rfl hrest
  | cons second rest =>
    simp [String.toList_intercalate, List.intercalate]

theorem toList_compact_array (items : List Json) : (compact (.array items)).toList =
    ['['] ++ ((",".intercalate (compactItems items)).toList ++ [']']) := by
  simp [compact, String.toList_append]

theorem toList_compact_object (fields : List (String × Json)) : (compact (.object fields)).toList =
    ['{'] ++ ((",".intercalate (compactFields fields)).toList ++ ['}']) := by
  simp [compact, String.toList_append]

theorem toList_entry (key : String) (value : Json) : (quote key ++ ":" ++ value.compact).toList =
    (quote key).toList ++ [':'] ++ value.compact.toList := by
  simp [String.toList_append]

theorem compactItems_ne_nil {items : List Json} (h : items ≠ []) : compactItems items ≠ [] := by
  cases items with
  | nil => exact absurd rfl h
  | cons item rest => exact List.cons_ne_nil _ _

theorem compactFields_ne_nil {fields : List (String × Json)} (h : fields ≠ []) :
    compactFields fields ≠ [] := by
  cases fields with
  | nil => exact absurd rfl h
  | cons field rest => exact List.cons_ne_nil _ _

mutual

/-- Inside a container, the text of a value is read as the draft that is made of it. -/
theorem becomes_compact (v : Json) (hnumbers : ∀ n ∈ v.numbers, n.ReadsAs (f n))
    (frames : List Frame) (hne : frames ≠ []) (mode : Mode) (hmode : Mode.AwaitsValue mode) :
    Becomes frames mode v.compact.toList (MadeOf f frames.length v) := by
  have hbegin {c : Char} (hblank : isBlank c = false) (hc : c ≠ ']') (p : Position) :
      take ⟨frames, mode, p⟩ c = beginValue ⟨frames, mode, p⟩ c :=
    take_value hmode hblank hc p
  cases v with
  | null =>
    exact (leads_word (hbegin (by decide) (by decide)) (by decide)).becomes hne (.null _)
  | bool b =>
    cases b with
    | false =>
      exact (leads_word (hbegin (by decide) (by decide)) (by decide)).becomes hne (.bool _ _)
    | true =>
      exact (leads_word (hbegin (by decide) (by decide)) (by decide)).becomes hne (.bool _ _)
  | number n => exact becomes_number (hnumbers n List.mem_cons_self) hne hmode (.number _ n)
  | string s => exact (leads_quote hmode s).becomes hne (.string _ s)
  | array items =>
    rw [toList_compact_array]
    refine (leadsTo_opening (hbegin (by decide) (by decide))).append ?_
    rintro _ _ ⟨rfl, ⟨hdepth, rfl⟩ | ⟨hdepth, e, rfl⟩⟩
    · refine (leadsTo_items items hnumbers (.array [] none) trivial frames _ (Or.inl rfl)).mono ?_
      rintro frames' mode' ⟨xs, hxs, hclosed⟩
      refine ⟨_, hclosed.rests hne, ?_⟩
      rw [Frame.close_pushAll]
      exact .array hdepth hxs
    · refine (leadsTo_items items hnumbers (.array [] (some e)) trivial frames _
        (Or.inl rfl)).mono ?_
      rintro frames' mode' ⟨xs, -, hclosed⟩
      refine ⟨_, hclosed.rests hne, ?_⟩
      rw [Frame.close_pushAll_flawed]
      exact .deepArray hdepth items e
  | object fields =>
    rw [toList_compact_object]
    refine (leadsTo_opening (hbegin (by decide) (by decide))).append ?_
    rintro _ _ ⟨rfl, ⟨hdepth, rfl⟩ | ⟨hdepth, e, rfl⟩⟩
    · refine (leadsTo_fields fields hnumbers (.object [] "" none) trivial frames true
        (Or.inl rfl)).mono ?_
      rintro frames' mode' ⟨es, hes, hclosed⟩
      refine ⟨_, hclosed.rests hne, ?_⟩
      rw [Frame.close_enterAll]
      exact .object hdepth hes
    · refine (leadsTo_fields fields hnumbers (.object [] "" (some e)) trivial frames true
        (Or.inl rfl)).mono ?_
      rintro frames' mode' ⟨es, -, hclosed⟩
      refine ⟨_, hclosed.rests hne, ?_⟩
      rw [Frame.close_enterAll_flawed]
      exact .deepObject hdepth fields e

/-- The rest of an array is read as its items. -/
theorem leadsTo_items (items : List Json) (hnumbers : ∀ n ∈ numbersOfItems items, n.ReadsAs (f n))
    (frame : Frame) (hframe : frame.IsArray) (outer : List Frame) (mode : Mode)
    (hmode : mode = .value true ∨ items ≠ [] ∧ Mode.AwaitsValue mode) :
    LeadsTo (frame :: outer) mode ((",".intercalate (compactItems items)).toList ++ [']'])
      fun frames' mode' => ∃ xs, MadeOfItems f (outer.length + 1) items xs ∧
        Closed (frame.pushAll xs) outer frames' mode' := by
  cases items with
  | nil =>
    rcases hmode with rfl | ⟨hne, -⟩
    · have hclosing : Leads (frame :: outer) (.value true) [']'] (stow frame.close outer)
          (modeBehind frame.close outer) :=
        .single fun p => congrArg Except.ok (close_eq frame outer _ p)
      exact hclosing.leadsTo ⟨[], .nil _, rfl, rfl⟩
    · exact absurd rfl hne
  | cons item rest =>
    have hawaits : Mode.AwaitsValue mode := by
      rcases hmode with rfl | ⟨-, hmode⟩
      · trivial
      · exact hmode
    simp only [numbersOfItems, List.mem_append] at hnumbers
    have hitem := becomes_compact item (fun n hn => hnumbers n (Or.inl hn)) (frame :: outer)
      (List.cons_ne_nil _ _) mode hawaits
    by_cases hrest : rest = []
    · subst hrest
      have htext : (",".intercalate (compactItems [item])).toList = item.compact.toList := by
        simp [compactItems]
      rw [htext]
      refine hitem.append ?_
      rintro frames' mode' ⟨x, hrests, hx⟩
      exact (hrests.leads_closed_array (hframe.push x)).leadsTo
        ⟨[x], .cons hx (.nil _), rfl, rfl⟩
    · rw [compactItems, toList_intercalate_cons _ (compactItems_ne_nil hrest), List.append_assoc,
        List.append_assoc]
      refine hitem.append ?_
      rintro frames' mode' ⟨x, hrests, hx⟩
      refine (hrests.leads_item (hframe.push x)).append_to ?_
      refine (leadsTo_items rest (fun n hn => hnumbers n (Or.inr hn)) _ (hframe.push x) outer .item
        (Or.inr ⟨hrest, trivial⟩)).mono ?_
      rintro frames'' mode'' ⟨xs, hxs, hclosed⟩
      exact ⟨x :: xs, .cons hx hxs, hclosed⟩

/-- The rest of an object is read as its entries. -/
theorem leadsTo_fields (fields : List (String × Json))
    (hnumbers : ∀ n ∈ numbersOfFields fields, n.ReadsAs (f n))
    (frame : Frame) (hframe : frame.IsObject) (outer : List Frame) (first : Bool)
    (hfirst : first = true ∨ fields ≠ []) :
    LeadsTo (frame :: outer) (.key first)
      ((",".intercalate (compactFields fields)).toList ++ ['}'])
      fun frames' mode' => ∃ es, MadeOfFields f (outer.length + 1) fields es ∧
        Closed (frame.enterAll es) outer frames' mode' := by
  cases fields with
  | nil =>
    rcases hfirst with rfl | hne
    · have hclosing : Leads (frame :: outer) (.key true) ['}'] (stow frame.close outer)
          (modeBehind frame.close outer) :=
        .single fun p => congrArg Except.ok (close_eq frame outer _ p)
      exact hclosing.leadsTo ⟨[], .nil _, rfl, rfl⟩
    · exact absurd rfl hne
  | cons field rest =>
    simp only [numbersOfFields, List.mem_append] at hnumbers
    have hvalue := becomes_compact field.2 (fun n hn => hnumbers n (Or.inl hn))
      (frame.named field.1 none :: outer) (List.cons_ne_nil _ _) (.value false) trivial
    have hentry := (leads_key frame outer first field.1).append_to hvalue
    rw [← toList_entry] at hentry
    by_cases hrest : rest = []
    · subst hrest
      have htext : (",".intercalate (compactFields [field])).toList =
          (quote field.1 ++ ":" ++ field.2.compact).toList := by
        simp [compactFields]
      rw [htext]
      refine hentry.append ?_
      rintro frames' mode' ⟨x, hrests, hx⟩
      exact (hrests.leads_closed_object (hframe.push_named (field.1, x))).leadsTo
        ⟨[(field.1, x)], .cons hx (.nil _), rfl, rfl⟩
    · rw [compactFields, toList_intercalate_cons _ (compactFields_ne_nil hrest),
        List.append_assoc, List.append_assoc]
      refine hentry.append ?_
      rintro frames' mode' ⟨x, hrests, hx⟩
      refine (hrests.leads_key (hframe.push_named (field.1, x))).append_to ?_
      refine (leadsTo_fields rest (fun n hn => hnumbers n (Or.inr hn)) _
        (hframe.push_named (field.1, x)) outer false (Or.inr hrest)).mono ?_
      rintro frames'' mode'' ⟨es, hes, hclosed⟩
      exact ⟨(field.1, x) :: es, .cons hx hes, hclosed⟩

end

end Values

end Reader

/-- The text of an object is read as the draft that is made of it. -/
theorem exists_readDraft_object {f : Number → Number} (fields : List (String × Json))
    (hnumbers : ∀ n ∈ (object fields).numbers, n.ReadsAs (f n)) :
    ∃ x, readDraft (object fields).compact = ⟨x, none⟩ ∧ MadeOf f 0 (object fields) x := by
  have hopening : Reader.Leads [] (.value false) ['{'] [.object [] "" none] (.key true) :=
    .single fun _ => rfl
  obtain ⟨frames, mode, p, hp, es, hes, rfl, rfl⟩ := hopening.append_to
    (Reader.leadsTo_fields fields hnumbers (.object [] "" none) trivial [] true (Or.inl rfl))
    .start
  refine ⟨.object es none, ?_, .object (by decide) hes⟩
  rw [readDraft, Reader.toList_compact_object, Reader.start, hp, Frame.close_enterAll]
  rfl

/-- The text of an object that is not nested too deep is read as its draft. -/
theorem readDraft_object {f : Number → Number} (fields : List (String × Json))
    (hnumbers : ∀ n ∈ (object fields).numbers, n.ReadsAs (f n))
    (hdepth : (object fields).depth ≤ Reader.greatestDepth) :
    readDraft (object fields).compact = ⟨.ofJson ((object fields).mapNumbers f), none⟩ := by
  obtain ⟨x, hread, hx⟩ := exists_readDraft_object fields hnumbers
  rw [hread, hx.eq_ofJson _ (by omega)]

/-- A text that is read to its end is decoded as what it is read as. -/
theorem decodeText_of_readDraft {α : Type} {text : String} {x : Draft}
    (h : readDraft text = ⟨x, none⟩) (decoder : Decoder α) :
    decodeText decoder text = decoder x := by
  rw [decodeText, h, Document.decode]
  cases decoder x <;> rfl

end Workflow.Json
