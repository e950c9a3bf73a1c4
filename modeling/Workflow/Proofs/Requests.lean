import Workflow.Proofs.Canonical
import Workflow.Proofs.Construction
import Workflow.Proofs.Placeholders

/-!
What a node that calls a server shows of its input. The request that it sends, and how it ends on
the answer, depend on the placeholders of its address, of the values of its headers and, just if its
method sends a body, of the texts in its body. The rest of the input makes no difference to either.
A reply in time is a success, whatever its status, and all outputs have the same keys.
-/
namespace Workflow.Node

open Fallible (exists_of_isOk of_guard)
open Run (Context)
open Time (Timed)

variable {σ : Type}

/-- What can be seen of an attempt: how it ends and when, and the world behind it. -/
def Behavior.shown (b : Behavior σ) (input : Payload) (context : Context) (world : σ) :
    Timed (Except Error Output) × σ :=
  let (attempt, world) := b.execute input context world
  (attempt.map Attempt.outcome, world)

namespace HttpRequest

/-- The configuration that a written one stands for. -/
structure Written.StandsFor (w : Written) (c : Config) : Prop where
  url : c.url = w.url
  method : Http.Method.ofText w.parts.method = .ok c.method
  headers : c.headers = w.parts.headers
  body : c.body = w.parts.body
  timeout : c.timeout = .ofSeconds w.parts.timeout

theorem Written.standsFor_of_check {w : Written} {i : Init} {c : Config}
    (h : w.check i = .ok c) : w.StandsFor c := by
  simp only [check, pure_bind] at h
  obtain ⟨-, h⟩ := of_guard h
  split at h
  · rename_i method hmethod
    obtain ⟨-, ⟨⟩⟩ := of_guard h
    exact ⟨rfl, hmethod, rfl, rfl, rfl⟩
  · cases h

namespace Config

variable {c : Config} {d e : Payload}

/-- The body that is sent, before it is rendered. -/
def sent? (c : Config) : Option Json := if c.method.sendsBody then c.body else none

/-- The texts that are rendered. -/
def texts (c : Config) : List String :=
  c.url :: (c.headers.map Prod.snd ++ c.sent?.toList.flatMap Json.texts)

/-- Inputs with the same values under the placeholders of what is rendered. -/
def Agree (c : Config) (d e : Payload) : Prop :=
  ∀ text ∈ c.texts, ∀ n ∈ Template.placeholders text, Template.lookup d n = Template.lookup e n

theorem Agree.render_eq (h : c.Agree d e) {text : String} (htext : text ∈ c.texts) :
    Template.render d text = Template.render e text :=
  Template.render_congr (h text htext)

theorem Agree.url_eq (h : c.Agree d e) : Template.render d c.url = Template.render e c.url :=
  h.render_eq List.mem_cons_self

theorem Agree.headers_eq (h : c.Agree d e) :
    c.headers.map (fun (name, value) => (name, Template.render d value)) =
      c.headers.map fun (name, value) => (name, Template.render e value) := by
  apply List.map_congr_left
  intro header hheader
  have htext : header.2 ∈ c.texts :=
    List.mem_cons_of_mem _ (List.mem_append_left _ (List.mem_map_of_mem hheader))
  exact congrArg (Prod.mk header.1) (h.render_eq htext)

theorem Agree.body_eq (h : c.Agree d e) :
    c.sent?.map (Template.renderValue d) = c.sent?.map (Template.renderValue e) := by
  apply Option.map_congr
  intro body hbody
  rw [Template.renderValue_eq, Template.renderValue_eq]
  apply Json.mapTexts_congr
  intro text htext
  have hsent : text ∈ c.sent?.toList.flatMap Json.texts :=
    List.mem_flatMap.2 ⟨body, Option.mem_toList.2 hbody, htext⟩
  exact h.render_eq (List.mem_cons_of_mem _ (List.mem_append_right _ hsent))

theorem request_eq (c : Config) (input : Payload) :
    c.request input = Http.Request.build c.method (Template.render input c.url)
      (c.headers.map fun (name, value) => (name, Template.render input value))
      (c.sent?.map (Template.renderValue input)) := by
  unfold request sent?
  cases c.method.sendsBody <;> rfl

theorem request_congr (h : c.Agree d e) : c.request d = c.request e := by
  rw [request_eq, request_eq, h.url_eq, h.headers_eq, h.body_eq]

theorem output_congr (h : c.Agree d e) : c.output d = c.output e := by
  funext reply
  rw [output, output, h.url_eq]

theorem keys_output (c : Config) (input : Payload) (reply : Http.Reply) :
    (c.output input reply).map Prod.fst = ["body", "headers", "method", "status_code", "url"] :=
  Payload.keys_ofList (by decide)
    (show ["status_code", "headers", "body", "url", "method"].Perm _ by decide)

theorem find?_status_output (c : Config) (input : Payload) (reply : Http.Reply) :
    Payload.find? (c.output input reply) "status_code" = some (.ofInt reply.status) := by
  simp [output, Payload.ofList, Payload.insertAll]

end Config

/-! ## What is shown -/

section Shown

variable {network : Http.Network σ} {c : Config} {input : Payload} {context : Context} {world : σ}

/-- The behaviour of a configuration. -/
def behavior (network : Http.Network σ) (c : Config) : Behavior σ :=
  ⟨"http_request", none, false, execute network c⟩

/-- How an attempt ends on an answer. -/
def Config.ending (c : Config) (input : Payload) :
    Except Http.Failure Http.Reply → Except Error Output
  | .ok reply => .ok ⟨c.output input reply, none⟩
  | .error failure => .error (.http failure)

theorem Config.ending_congr {d e : Payload} (h : c.Agree d e) : c.ending d = c.ending e := by
  funext answer
  cases answer with
  | ok reply => rw [ending, ending, output_congr h]
  | error failure => rfl

theorem Config.ending_eq_ok {answer : Except Http.Failure Http.Reply} {output : Output} :
    c.ending input answer = .ok output ↔
      ∃ reply, answer = .ok reply ∧ output = ⟨c.output input reply, none⟩ := by
  cases answer with
  | ok reply => simp [ending, eq_comm]
  | error failure => simp [ending]

/-- A request that cannot be built is not sent. -/
theorem shown_of_error {failure : Http.Failure} (h : c.request input = .error failure) :
    (behavior network c).shown input context world =
      (.now (.error (.http failure)), world) := by
  simp only [Behavior.shown, behavior, execute, h]
  rfl

/-- A request that can be built is sent once, and the answer decides how the attempt ends. -/
theorem shown_of_ok {request : Http.Request} (h : c.request input = .ok request) :
    (behavior network c).shown input context world =
      ((request.send network c.timeout world).1.map (c.ending input),
        (network request world).2) := by
  have hending : ∀ answer, Attempt.outcome (match answer with
      | .ok reply => .leaving context (.ok ⟨c.output input reply, none⟩)
      | .error failure => .leaving context (.error (.http failure))) = c.ending input answer := by
    intro answer
    cases answer <;> rfl
  simp only [Behavior.shown, behavior, execute, h, Timed.map]
  exact Prod.ext (congrArg (Timed.mk · _) (hending _)) rfl

theorem shown_congr {d e : Payload} (h : c.Agree d e) (context context' : Context) (world : σ) :
    (behavior network c).shown d context world = (behavior network c).shown e context' world := by
  have hrequest := Config.request_congr h
  cases he : c.request e with
  | error failure =>
    rw [he] at hrequest
    rw [shown_of_error hrequest, shown_of_error he]
  | ok request =>
    rw [he] at hrequest
    rw [shown_of_ok hrequest, shown_of_ok he, Config.ending_congr h]

/-- A success comes from a request that was built and from a reply to it. -/
theorem exists_reply_of_shown {output : Output}
    (h : ((behavior network c).shown input context world).1.value = .ok output) :
    ∃ reply, output = ⟨c.output input reply, none⟩ := by
  cases hrequest : c.request input with
  | error failure =>
    rw [shown_of_error hrequest] at h
    cases h
  | ok request =>
    rw [shown_of_ok hrequest] at h
    obtain ⟨reply, -, rfl⟩ := Config.ending_eq_ok.1 h
    exact ⟨reply, rfl⟩

/-- Any reply in time is a success. -/
theorem shown_of_reply {request : Http.Request} {reply : Http.Reply}
    (hrequest : c.request input = .ok request)
    (hreply : (network request world).1.value = some reply)
    (htime : (network request world).1.duration.ticks ≤ c.timeout.ticks) :
    ((behavior network c).shown input context world).1 =
      ⟨.ok ⟨c.output input reply, none⟩, (network request world).1.duration⟩ := by
  have hsend : (request.send network c.timeout world).1 =
      ⟨.ok reply, (network request world).1.duration⟩ := by
    simp only [Http.Request.send, Timed.map, Timed.within, hreply]
    rw [if_neg htime.not_gt]
  rw [shown_of_ok hrequest, hsend]
  rfl

end Shown

/-- A node that calls a server shows nothing of its input but the values under the placeholders of
its address, of the values of its headers and, with a method that sends a body, of the texts in the
body. On two inputs that agree there, whatever else is in them and in the context, it sends the
same request or none, and ends in the same way at the same time. The request is built from the
rendered texts, and the network is asked for nothing else. Outputs have five keys, and a reply in
time leads to one whatever its status. -/
theorem shows_placeholders {network : Http.Network σ} {i : Init} {b : Behavior σ}
    (h : construct network i = .ok b) :
    ∃ w c, i.read shape.decode = .ok w ∧ w.StandsFor c ∧
      (∀ d e, c.Agree d e → c.request d = c.request e ∧
        ∀ context context' world, b.shown d context world = b.shown e context' world) ∧
      (∀ input, c.request input = Http.Request.build c.method (Template.render input c.url)
        (c.headers.map fun (name, value) => (name, Template.render input value))
        (c.sent?.map (Template.renderValue input))) ∧
      ∀ input context world,
        ((b.shown input context world).2 = match c.request input with
          | .ok request => (network request world).2
          | .error _ => world) ∧
        (∀ output, (b.shown input context world).1.value = .ok output →
          output.data.map Prod.fst = ["body", "headers", "method", "status_code", "url"]) ∧
        ∀ request reply, c.request input = .ok request →
          (network request world).1.value = some reply →
          (network request world).1.duration.ticks ≤ c.timeout.ticks →
          ∃ output, (b.shown input context world).1.value = .ok output ∧
            Payload.find? output.data "status_code" = some (.ofInt reply.status) := by
  obtain ⟨w, c, hread, hcheck, rfl⟩ := exists_of_construct h
  refine ⟨w, c, hread, w.standsFor_of_check hcheck, ?_, c.request_eq, ?_⟩
  · intro d e hagree
    exact ⟨Config.request_congr hagree, shown_congr hagree⟩
  intro input context world
  refine ⟨?_, ?_, ?_⟩
  · cases hrequest : c.request input with
    | error failure => exact congrArg Prod.snd (shown_of_error hrequest)
    | ok request => exact congrArg Prod.snd (shown_of_ok hrequest)
  · intro output houtput
    obtain ⟨reply, rfl⟩ := exists_reply_of_shown houtput
    exact c.keys_output input reply
  · intro request reply hrequest hreply htime
    exact ⟨_, congrArg Timed.value (shown_of_reply hrequest hreply htime),
      c.find?_status_output input reply⟩

/-- A node that posts a note. -/
def posting : Init where
  id := "post"
  name := "Post"
  config := [("body", .object [("note", .string "{note}"), ("public", .bool false)]),
    ("headers", .object [("x-user", .string "{user.name}")]), ("method", .string "post"),
    ("url", .string "https://api.test/items/{item}?by={nobody}")]

/-- A server that is not available, and all requests to it. -/
def unavailable : Http.Network (List Http.Request) := fun request requests =>
  (.now (some ⟨503, [("content-type", "text/plain")], Text.utf8Bytes "later"⟩),
    requests ++ [request])

theorem exists_posting : ∃ b, construct unavailable posting = .ok b :=
  exists_of_isOk (by decide +kernel)

/-- The configuration of the node. -/
def posted : Config where
  url := "https://api.test/items/{item}?by={nobody}"
  method := .post
  headers := [("x-user", "{user.name}")]
  body := some (.object [("note", .string "{note}"), ("public", .bool false)])
  timeout := .ofSeconds 30.0

theorem eq_posted {w : Written} {c : Config} (hread : posting.read shape.decode = .ok w)
    (h : w.StandsFor c) : c = posted := by
  cases hread
  obtain ⟨url, method, headers, body, timeout⟩ := c
  obtain ⟨rfl, hmethod, rfl, rfl, rfl⟩ := h
  have hpost : Http.Method.ofText "post" = .ok .post := by decide +kernel
  cases hpost.symm.trans hmethod
  rfl

/-- Of its input a note shows the text, the item and the name of the author, and a name that leads
nowhere is sent as it stands. -/
theorem shows_placeholders_posting :
    ∃ b, construct unavailable posting = .ok b ∧
      let d : Payload := [("item", .ofInt 9), ("note", .string "hi"),
        ("user", .object [("name", .string "Ada")])]
      let e : Payload := [("item", .ofInt 9), ("note", .string "hi"), ("secret", .string "s"),
        ("user", .object [("age", .ofInt 36), ("name", .string "Ada")])]
      ∀ context context', b.shown d context [] = b.shown e context' [] ∧
        (b.shown e context' []).2.map (fun r =>
            (r.method, r.url.text, r.headers, r.body.map Json.compact)) =
          [(.post, "https://api.test/items/9?by={nobody}",
            [("x-user", "Ada"), ("content-type", "application/json"), ("accept", "*/*")],
            some (Json.object [("note", .string "hi"), ("public", .bool false)]).compact)] ∧
        ∃ output, (b.shown e context' []).1.value = .ok output ∧
          output.data.map Prod.fst = ["body", "headers", "method", "status_code", "url"] ∧
          Payload.find? output.data "status_code" = some (.ofInt 503) := by
  obtain ⟨b, hmade⟩ := exists_posting
  obtain ⟨w, c, hread, hstands, hsame, -, hshown⟩ := shows_placeholders hmade
  obtain rfl := eq_posted hread hstands
  refine ⟨b, hmade, ?_⟩
  intro d e context context'
  have hnames : ∀ text ∈ posted.texts, ∀ n ∈ Template.placeholders text,
      n ∈ ["item", "nobody", "note", "user.name"] := by decide +kernel
  have hagree : posted.Agree d e := by
    intro text htext n hn
    have hname := hnames text htext n hn
    simp only [List.mem_cons, List.not_mem_nil, or_false] at hname
    rcases hname with rfl | rfl | rfl | rfl <;> rfl
  have hsent : (posted.request e).toOption.toList.map (fun r =>
        (r.method, r.url.text, r.headers, r.body.map Json.compact)) =
      [(.post, "https://api.test/items/9?by={nobody}",
        [("x-user", "Ada"), ("content-type", "application/json"), ("accept", "*/*")],
        some (Json.object [("note", .string "hi"), ("public", .bool false)]).compact)] := by
    decide +kernel
  have htime : Time.Duration.zero.ticks ≤ posted.timeout.ticks := by decide +kernel
  obtain ⟨hworld, hkeys, hreply⟩ := hshown e context' []
  cases hrequest : posted.request e with
  | error failure =>
    rw [hrequest] at hsent
    cases hsent
  | ok request =>
    rw [hrequest] at hworld hsent
    obtain ⟨output, houtput, hstatus⟩ := hreply request _ hrequest rfl htime
    refine ⟨(hsame d e hagree).2 context context' [], ?_, output, houtput, hkeys output houtput,
      hstatus⟩
    rw [hworld]
    exact hsent

end HttpRequest

end Workflow.Node
