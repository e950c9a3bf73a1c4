import Workflow.Llm.ChatCompletion
import Workflow.Llm.ContentGeneration
import Workflow.Proofs.Forms

/-!
Replies with generated text. A reply without success is an error with its status and its text, one
that is not of the form of the server is a request that failed, and the text of any other stands at
one place of the form. Servers that generate content take an empty text for none; servers that
complete chats answer with it.
-/
namespace Workflow.Llm

open Json (Form)
open Json.Decoder (Accepts)
open Time (Duration)

variable {σ α : Type}

def Succeeds (reply : Http.Reply) : Prop := 200 ≤ reply.status ∧ reply.status < 300

/-- The body of a reply is JSON of the form and stands for the value. -/
def Carries (form : Form α) (reply : Http.Reply) (a : α) : Prop :=
  (Json.readBytes reply.body).trailing = none ∧ form (Json.readBytes reply.body).root a

/-- What success is. The form gives the text of a reply, if the reply has one; an empty text is no
text. -/
structure Means (form : Form (Option String)) (reply : Http.Reply)
    (answer : Except Failure String) : Prop where
  of_ok : ∀ t, answer = .ok t → Succeeds reply ∧ Carries form reply (some t) ∧ t ≠ ""
  text : ∀ t, Succeeds reply → Carries form reply (some t) → t ≠ "" → answer = .ok t
  noText : ∀ o, Succeeds reply → Carries form reply o → o.getD "" = "" →
    answer = .error .emptyResponse
  refused : ¬ Succeeds reply → answer = .error (.api reply.status reply.text)
  otherForm : Succeeds reply → (∀ o, ¬ Carries form reply o) →
    answer = .error (.request .decoding)

/-- The request can be built, and the network replies to it in time. -/
def Replies (network : Http.Network σ) (limit : Duration)
    (built : Except Http.Failure Http.Request) (world : σ) (reply : Http.Reply) : Prop :=
  ∃ request, built = .ok request ∧ (network request world).1.value = some reply ∧
    (network request world).1.duration.ticks ≤ limit.ticks

/-- The answer for a text, if there is one. -/
def spoken (text : Option String) : Except Failure String :=
  if text.getD "" = "" then .error .emptyResponse else .ok (text.getD "")

theorem spoken_eq_ok {text : Option String} {t : String} :
    spoken text = .ok t ↔ text = some t ∧ t ≠ "" := by
  unfold spoken
  cases text with
  | none => simp
  | some s =>
    rw [Option.getD_some, Option.some.injEq]
    by_cases hs : s = ""
    · rw [if_pos hs]
      exact iff_of_false nofun fun h => h.2 (h.1 ▸ hs)
    · rw [if_neg hs, Except.ok.injEq]
      exact ⟨fun h => ⟨h, h ▸ hs⟩, And.left⟩

/-! ## Reading a reply -/

section

variable {form : Form α} {decoder : Json.Decoder α} {text : α → Except Failure String}
  {reply : Http.Reply}

theorem isSuccess_iff : reply.isSuccess ↔ Succeeds reply := by
  unfold Http.Reply.isSuccess Succeeds
  rw [Bool.and_eq_true, decide_eq_true_eq, decide_eq_true_eq]

theorem readReply_of_not_succeeds (h : ¬ Succeeds reply) :
    readReply decoder text reply = .error (.api reply.status reply.text) :=
  if_neg (mt isSuccess_iff.1 h)

theorem carries_map {β : Type} {f : α → β} {b : β} :
    Carries (form.map f) reply b ↔ ∃ a, Carries form reply a ∧ b = f a := by
  constructor
  · rintro ⟨htrailing, a, ha, hb⟩
    exact ⟨a, ⟨htrailing, ha⟩, hb⟩
  · rintro ⟨a, ⟨htrailing, ha⟩, hb⟩
    exact ⟨htrailing, a, ha, hb⟩

section

variable (h : Accepts decoder form)

include h

theorem carries_iff {a : α} :
    Carries form reply a ↔ Json.decodeBytes decoder reply.body = .ok a :=
  h.decode_eq_ok.symm

theorem carries_of_decode {a : α}
    (hread : (Json.decodeBytes decoder reply.body).toOption = some a) : Carries form reply a :=
  (carries_iff h).2 (Fallible.toOption_eq_some.1 hread)

theorem readReply_of_carries (hs : Succeeds reply) {a : α} (ha : Carries form reply a) :
    readReply decoder text reply = text a := by
  rw [readReply, if_pos (isSuccess_iff.2 hs), (carries_iff h).1 ha]

theorem readReply_of_not_carries (hs : Succeeds reply) (hnone : ∀ a, ¬ Carries form reply a) :
    readReply decoder text reply = .error (.request .decoding) := by
  rw [readReply, if_pos (isSuccess_iff.2 hs)]
  cases ha : Json.decodeBytes decoder reply.body with
  | error e => rfl
  | ok a => exact absurd ((carries_iff h).2 ha) (hnone a)

/-- A server that answers with the text of the form, or that there is none, means what success
is. -/
theorem means_readReply {first : α → Option String}
    (htext : ∀ a, Succeeds reply → Carries form reply a → text a = spoken (first a)) :
    Means (form.map first) reply (readReply decoder text reply) := by
  have hread (a : α) (hs : Succeeds reply) (ha : Carries form reply a) :
      readReply decoder text reply = spoken (first a) := by
    rw [readReply_of_carries h hs ha, htext a hs ha]
  refine ⟨?_, ?_, ?_, readReply_of_not_succeeds, ?_⟩
  · intro t ht
    by_cases hs : Succeeds reply
    · by_cases hcarries : ∃ a, Carries form reply a
      · obtain ⟨a, ha⟩ := hcarries
        rw [hread a hs ha, spoken_eq_ok] at ht
        exact ⟨hs, carries_map.2 ⟨a, ha, ht.1.symm⟩, ht.2⟩
      · rw [readReply_of_not_carries h hs (not_exists.1 hcarries)] at ht
        cases ht
    · rw [readReply_of_not_succeeds hs] at ht
      cases ht
  · intro t hs hcarries ht
    obtain ⟨a, ha, hfirst⟩ := carries_map.1 hcarries
    rw [hread a hs ha, spoken_eq_ok]
    exact ⟨hfirst.symm, ht⟩
  · intro o hs hcarries ho
    obtain ⟨a, ha, rfl⟩ := carries_map.1 hcarries
    rw [hread a hs ha, spoken, if_pos ho]
  · intro hs hcarries
    refine readReply_of_not_carries h hs fun a ha => ?_
    exact hcarries (first a) (carries_map.2 ⟨a, ha, rfl⟩)

end

/-! ## Asking -/

variable {network : Http.Network σ} {limit : Duration}
  {built : Except Http.Failure Http.Request} {world : σ}

theorem send_eq_ok {request : Http.Request} :
    (request.send network limit world).1.value = .ok reply ↔
      (network request world).1.value = some reply ∧
        (network request world).1.duration.ticks ≤ limit.ticks := by
  unfold Http.Request.send Time.Timed.map Time.Timed.within
  dsimp only
  by_cases htime : (network request world).1.duration.ticks ≤ limit.ticks
  · rw [if_neg (Nat.not_lt.2 htime), and_iff_left htime]
    cases (network request world).1.value <;> simp
  · rw [if_pos (Nat.not_le.1 htime)]
    exact iff_of_false nofun fun h => htime h.2

theorem ask_of_replies (h : Replies network limit built world reply) :
    (ask network limit decoder text built world).1.value = readReply decoder text reply := by
  obtain ⟨request, rfl, hsend⟩ := h
  simp only [ask, Time.Timed.map, send_eq_ok.2 hsend]

/-- Without a reply there is no text. -/
theorem exists_replies_of_ask {t : String}
    (h : (ask network limit decoder text built world).1.value = .ok t) :
    ∃ reply, Replies network limit built world reply := by
  cases built with
  | error e => cases h
  | ok request =>
    simp only [ask, Time.Timed.map] at h
    cases hsend : (request.send network limit world).1.value with
    | ok reply => exact ⟨reply, request, rfl, send_eq_ok.1 hsend⟩
    | error e =>
      rw [hsend] at h
      cases h

end

/-! ## Servers that complete chats -/

namespace ChatCompletion

/-- The contents of the messages of all choices. A content may be null or missing. -/
def answerForm : Form Answer :=
  .optional "choices" (.items (.required "message"
    (.optional "content" (.nullable .string) none))) []

/-- The content of the first choice. -/
def textForm : Form (Option String) := answerForm.map fun contents => contents.head?.join

theorem accepts_answer : Accepts answerShape.decode answerForm := by
  have hmessage : Accepts messageShape.decode (.optional "content" (.nullable .string) none) :=
    Json.Decoder.accepts_string.optional.structure_of_default rfl rfl fun _ => rfl
  have hchoice : Accepts choiceShape.decode (.required "message" _) :=
    hmessage.structure_of_required rfl nofun fun _ => rfl
  exact hchoice.list.structure_of_default rfl rfl fun _ => rfl

/-- Any content is answered with. -/
theorem text_eq_ok {answer : Answer} {content : String} :
    text answer = .ok content ↔ answer.head?.join = some content := by
  match answer with
  | [] | none :: _ => simp [text]
  | some _ :: _ => simp [text]

/-- Unless the content is empty, the answer is the one that success means. -/
theorem text_of_ne {answer : Answer} (h : answer.head?.join ≠ some "") :
    text answer = spoken answer.head?.join := by
  match answer with
  | [] | none :: _ => rfl
  | some content :: _ =>
    refine (if_neg fun hempty => h ?_).symm
    exact congrArg some hempty

/-- The content of the first choice is empty. -/
def IsBlank (reply : Http.Reply) : Prop := Succeeds reply ∧ Carries textForm reply (some "")

theorem readReply_of_isBlank {reply : Http.Reply} (h : IsBlank reply) :
    readReply answerShape.decode text reply = .ok "" := by
  obtain ⟨hs, hcarries⟩ := h
  obtain ⟨a, ha, hfirst⟩ := carries_map.1 hcarries
  rw [readReply_of_carries accepts_answer hs ha]
  exact text_eq_ok.2 hfirst.symm

theorem means_iff {reply : Http.Reply} :
    Means textForm reply (readReply answerShape.decode text reply) ↔ ¬ IsBlank reply := by
  constructor
  · intro hmeans hblank
    exact (hmeans.of_ok "" (readReply_of_isBlank hblank)).2.2 rfl
  · intro hblank
    refine means_readReply accepts_answer fun a hs ha => ?_
    refine text_of_ne fun hempty => hblank ⟨hs, ?_⟩
    exact carries_map.2 ⟨a, ha, hempty.symm⟩

namespace Server

variable {s : Server} {network : Http.Network σ} {r : Request} {world : σ}

/-- The server is asked and replies in time. -/
def Hears (s : Server) (network : Http.Network σ) (r : Request) (world : σ)
    (reply : Http.Reply) : Prop :=
  Replies network s.timeout (s.request r) world reply

theorem exists_hears {t : String} (h : ((s.generator network).generate r world).1.value = .ok t) :
    ∃ reply, s.Hears network r world reply :=
  exists_replies_of_ask h

theorem generate_of_hears {reply : Http.Reply} (h : s.Hears network r world reply) :
    ((s.generator network).generate r world).1.value =
      readReply answerShape.decode text reply :=
  ask_of_replies h

end Server

end ChatCompletion

/-! ## Servers that generate content -/

namespace ContentGeneration

/-- The texts of the parts of all candidates. A content or a text may be null or missing. -/
def answerForm : Form Answer :=
  .optional "candidates" (.items (.optional "content" (.nullable
    (.optional "parts" (.items (.optional "text" (.nullable .string) none)) [])) none)) []

/-- The texts of the parts of the first candidate, put together. -/
def textForm : Form (Option String) :=
  answerForm.map fun candidates => candidates.head?.join.map fun texts =>
    String.join (texts.filterMap id)

theorem accepts_answer : Accepts answerShape.decode answerForm := by
  have hpart : Accepts partShape.decode (.optional "text" (.nullable .string) none) :=
    Json.Decoder.accepts_string.optional.structure_of_default rfl rfl fun _ => rfl
  have hcontent : Accepts contentShape.decode (.optional "parts" (.items _) []) :=
    hpart.list.structure_of_default rfl rfl fun _ => rfl
  have hcandidate : Accepts candidateShape.decode (.optional "content" (.nullable _) none) :=
    hcontent.optional.structure_of_default rfl rfl fun _ => rfl
  exact hcandidate.list.structure_of_default rfl rfl fun _ => rfl

theorem text_eq (answer : Answer) : text answer =
    spoken (answer.head?.join.map fun texts => String.join (texts.filterMap id)) := by
  unfold text spoken
  cases answer.head?.join with
  | none => rfl
  | some texts => simp [String.isEmpty_iff]

theorem means {reply : Http.Reply} :
    Means textForm reply (readReply answerShape.decode text reply) :=
  means_readReply accepts_answer fun a _ _ => text_eq a

namespace Server

variable {s : Server} {network : Http.Network σ} {r : Request} {world : σ}

/-- The server has a key, is asked and replies in time. -/
def Hears (s : Server) (network : Http.Network σ) (r : Request) (world : σ)
    (reply : Http.Reply) : Prop :=
  ∃ key, s.key = some key ∧ Replies network s.timeout (s.request key r) world reply

theorem exists_hears {t : String} (h : ((s.generator network).generate r world).1.value = .ok t) :
    ∃ reply, s.Hears network r world reply := by
  unfold generator at h
  dsimp only at h
  cases hkey : s.key with
  | none =>
    rw [hkey] at h
    cases h
  | some key =>
    rw [hkey] at h
    obtain ⟨reply, hreply⟩ := exists_replies_of_ask h
    exact ⟨reply, key, hkey, hreply⟩

theorem generate_of_hears {reply : Http.Reply} (h : s.Hears network r world reply) :
    ((s.generator network).generate r world).1.value =
      readReply answerShape.decode text reply := by
  obtain ⟨key, hkey, hreply⟩ := h
  unfold generator
  dsimp only
  rw [hkey]
  exact ask_of_replies hreply

end Server

end ContentGeneration

/-- Both kinds of servers answer with a text for a reply in time only. A server that generates
content always means what success is, and a server that completes chats just where the content of
the first choice is not empty; with an empty one it answers. -/
theorem answers_mean (network : Http.Network σ) (r : Request) (world : σ) :
    (∀ s : ChatCompletion.Server,
      let answer := ((s.generator network).generate r world).1.value
      (∀ t, answer = .ok t → ∃ reply, s.Hears network r world reply) ∧
      ∀ reply, s.Hears network r world reply →
        (Means ChatCompletion.textForm reply answer ↔ ¬ ChatCompletion.IsBlank reply) ∧
          (ChatCompletion.IsBlank reply → answer = .ok "")) ∧
    ∀ s : ContentGeneration.Server,
      let answer := ((s.generator network).generate r world).1.value
      (∀ t, answer = .ok t → ∃ reply, s.Hears network r world reply) ∧
      ∀ reply, s.Hears network r world reply → Means ContentGeneration.textForm reply answer := by
  constructor
  · intro s answer
    refine ⟨fun t => s.exists_hears, fun reply hhears => ?_⟩
    have hanswer : answer = _ := s.generate_of_hears hhears
    rw [hanswer]
    exact ⟨ChatCompletion.means_iff, ChatCompletion.readReply_of_isBlank⟩
  · intro s answer
    refine ⟨fun t => s.exists_hears, fun reply hhears => ?_⟩
    have hanswer : answer = _ := s.generate_of_hears hhears
    rw [hanswer]
    exact ContentGeneration.means

/-! Two servers and a question. -/

def chats : ChatCompletion.Server := ⟨ChatCompletion.usualUrl, none, "chat", .ofSeconds 120.0⟩

def contents : ContentGeneration.Server :=
  ⟨ContentGeneration.usualUrl, some "key", "content", .ofSeconds 120.0⟩

def question : Request := { prompt := "Who is there?" }

/-- A reply with success. -/
def replying (body : Json) : Http.Reply :=
  ⟨200, [("content-type", "application/json")], Text.utf8Bytes body.compact⟩

theorem succeeds_replying (body : Json) : Succeeds (replying body) := by
  simp [Succeeds, replying]

/-- A network with one reply for all requests. -/
def always (reply : Http.Reply) : Http.Network Unit := fun _ world => (.now (some reply), world)

theorem chats_hears (reply : Http.Reply) : chats.Hears (always reply) question () reply := by
  obtain ⟨request, hrequest⟩ : ∃ request, chats.request question = .ok request :=
    Fallible.exists_of_isOk (by decide +kernel)
  have htime : Duration.zero.ticks ≤ chats.timeout.ticks := by decide +kernel
  exact ⟨request, hrequest, rfl, htime⟩

theorem contents_hears (reply : Http.Reply) :
    contents.Hears (always reply) question () reply := by
  obtain ⟨request, hrequest⟩ : ∃ request, contents.request "key" question = .ok request :=
    Fallible.exists_of_isOk (by decide +kernel)
  have htime : Duration.zero.ticks ≤ contents.timeout.ticks := by decide +kernel
  exact ⟨"key", rfl, request, hrequest, rfl, htime⟩

def choice (content : Json) : Json := .object [("message", .object [("content", content)])]

def candidate (parts : List Json) : Json :=
  .object [("content", .object [("parts", .array parts)])]

def part (text : String) : Json := .object [("text", .string text)]

/-- Ada stands in the first of two choices, and in the parts of a candidate with one part without
text. -/
theorem answers_mean_ada :
    let choices := replying (.object
      [("id", .ofInt 7), ("choices", .array [choice (.string "Ada"), choice .null])])
    let candidates := replying (.object
      [("candidates", .array [candidate [part "A", .object [], part "da"]])])
    chats.Hears (always choices) question () choices ∧
      ((chats.generator (always choices)).generate question ()).1.value = .ok "Ada" ∧
      contents.Hears (always candidates) question () candidates ∧
      ((contents.generator (always candidates)).generate question ()).1.value = .ok "Ada" := by
  intro choices candidates
  obtain ⟨hchats, -⟩ := answers_mean (always choices) question ()
  obtain ⟨-, hcontents⟩ := answers_mean (always candidates) question ()
  have hchoices : Carries ChatCompletion.textForm choices (some "Ada") := by
    refine carries_map.2 ⟨[some "Ada", none], ?_, rfl⟩
    exact carries_of_decode ChatCompletion.accepts_answer (by decide +kernel)
  have hcandidates : Carries ContentGeneration.textForm candidates (some "Ada") := by
    refine carries_map.2 ⟨[some [some "A", none, some "da"]], ?_, rfl⟩
    exact carries_of_decode ContentGeneration.accepts_answer (by decide +kernel)
  have hblank : ¬ ChatCompletion.IsBlank choices := by
    intro h
    have hread : readReply ChatCompletion.answerShape.decode ChatCompletion.text choices =
        .ok "Ada" := Fallible.toOption_eq_some.1 (by decide +kernel)
    rw [ChatCompletion.readReply_of_isBlank h, Except.ok.injEq] at hread
    exact absurd hread (by decide)
  have hchat := ((hchats chats).2 choices (chats_hears choices)).1.2 hblank
  have hcontent := (hcontents contents).2 candidates (contents_hears candidates)
  exact ⟨chats_hears choices, hchat.text "Ada" (succeeds_replying _) hchoices (by decide),
    contents_hears candidates, hcontent.text "Ada" (succeeds_replying _) hcandidates (by decide)⟩

/-- A chat with an empty content is a success without a text. For an empty part the other server
answers that there is no text. -/
theorem answers_blank :
    let choices := replying (.object [("choices", .array [choice (.string "")])])
    let candidates := replying (.object [("candidates", .array [candidate [part ""]])])
    let answer := ((chats.generator (always choices)).generate question ()).1.value
    chats.Hears (always choices) question () choices ∧ answer = .ok "" ∧
      ¬ Means ChatCompletion.textForm choices answer ∧
      contents.Hears (always candidates) question () candidates ∧
      ((contents.generator (always candidates)).generate question ()).1.value =
        .error .emptyResponse := by
  intro choices candidates answer
  have hblank : ChatCompletion.IsBlank choices := by
    refine ⟨succeeds_replying _, carries_map.2 ⟨[some ""], ?_, rfl⟩⟩
    exact carries_of_decode ChatCompletion.accepts_answer (by decide +kernel)
  have hcandidates : Carries ContentGeneration.textForm candidates (some "") := by
    refine carries_map.2 ⟨[some [some ""]], ?_, rfl⟩
    exact carries_of_decode ContentGeneration.accepts_answer (by decide +kernel)
  have hanswer : answer = _ := ChatCompletion.Server.generate_of_hears (chats_hears choices)
  refine ⟨chats_hears choices, ?_, ?_, contents_hears candidates, ?_⟩
  · rw [hanswer, ChatCompletion.readReply_of_isBlank hblank]
  · rw [hanswer]
    exact fun hmeans => ChatCompletion.means_iff.1 hmeans hblank
  · rw [ContentGeneration.Server.generate_of_hears (contents_hears candidates)]
    exact ContentGeneration.means.noText (some "") (succeeds_replying _) hcandidates rfl

end Workflow.Llm
