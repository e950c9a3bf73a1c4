import Workflow.Http.Method
import Workflow.Http.Url
import Workflow.Json.Basic
import Workflow.Text.Base64
import Workflow.Text.Find
import Workflow.Time.Timed

/-!
Requests, replies and what can go wrong between them. A network is a function that answers
requests; it may keep a state of its own.
-/
namespace Workflow.Http

open Time (Duration Timed)

/-- A request that can be sent. Names of headers are in small letters. -/
structure Request where
  method : Method
  url : Url
  headers : List (String × String)
  body : Option Json

/-- A reply. Names of headers are in small letters. -/
structure Reply where
  status : Nat
  headers : List (String × String)
  body : List UInt8

inductive Failure where
  | builder
  /-- The address names something else than a server of the web. -/
  | address (url : Url)
  /-- The connection broke or the time was up. -/
  | sending (url : Url)
  | decoding
  deriving Repr, DecidableEq

def Failure.message : Failure → String
  | builder => "builder error"
  | address url => s!"builder error for url ({url.text})"
  | sending url => s!"error sending request for url ({url.text})"
  | decoding => "error decoding response body"

/-- Answers requests, after some time or not at all. -/
abbrev Network (σ : Type) := Request → σ → Timed (Option Reply) × σ

namespace Request

def isNameChar (c : Char) : Bool :=
  c.isAlphanum || c ∈ "!#$%&'*+-.^_\x60|~".toList

/-- Characters that the value of a header may have. -/
def isValueChar (c : Char) : Bool := (32 ≤ c.toNat && c.toNat ≠ 127) || c = '\t'

def isHeader (header : String × String) : Bool :=
  !header.1.isEmpty && header.1.toList.all isNameChar && header.2.toList.all isValueChar

def lowerName (name : String) : String := String.ofList (name.toList.map Char.toLower)

def loginValue (user : String) (password : Option String) : String :=
  let login := user ++ ":" ++ password.getD ""
  "Basic " ++ String.ofList (Text.base64 (Text.utf8Bytes login))

/-- Headers with one more, unless they have it. -/
def withHeader (headers : List (String × String)) (name value : String) :
    List (String × String) :=
  if headers.any (·.1 = name) then headers else headers ++ [(name, value)]

/-- Builds a request: the address has to be one, headers have to be well formed, and the scheme
has to be one of the web. User and password move from the address to a header. Fields are added to
the query. A JSON body has its type unless a header gives another one, and replies of any type are
welcome unless a header names some. -/
def build (method : Method) (url : String) (headers : List (String × String))
    (body : Option Json) (fields : List (String × String) := []) : Except Failure Request := do
  let some url := Url.ofText url | throw .builder
  if !url.hasHost then throw (.address url)
  if !headers.all isHeader then throw .builder
  let login := url.login?
  let url := if login.isSome then url.withoutCredentials else url
  let url := fields.foldl (fun u field => u.addField field.1 field.2) url
  if String.ofList url.scheme ∉ ["http", "https"] then throw (.address url)
  let named := headers.map fun (name, value) => (lowerName name, value)
  let headers := match login with
    | some (user, password) => ("authorization", loginValue user password) :: named
    | none => named
  let headers :=
    if body.isSome then withHeader headers "content-type" "application/json" else headers
  return ⟨method, url, withHeader headers "accept" "*/*", body⟩

def send {σ : Type} (r : Request) (network : Network σ) (limit : Duration) (world : σ) :
    Timed (Except Failure Reply) × σ :=
  let (answer, world) := network r world
  let answer := answer.map fun reply => match reply with
    | some reply => .ok reply
    | none => .error (.sending r.url)
  (answer.within limit (.error (.sending r.url)), world)

end Request

namespace Reply

def text (r : Reply) : String := Text.lossyText r.body

def isSuccess (r : Reply) : Bool := 200 ≤ r.status && r.status < 300

/-- The type of the body; one with letters beyond ASCII does not count. -/
def contentType? (r : Reply) : Option String := do
  let (_, value) ← r.headers.find? (·.1 = "content-type")
  if value.toList.all fun c => (32 ≤ c.toNat && c.toNat < 127) || c = '\t' then some value
  else none

def isJson (r : Reply) : Bool :=
  r.contentType?.any fun t => Text.occursIn "json".toList (t.toList.map Char.toLower)

/-- The headers as an object; of a repeated header the last value stays. -/
def headerPayload (r : Reply) : Payload :=
  Payload.ofList (r.headers.map fun (name, value) => (name, .string value))

end Reply

end Workflow.Http
