import Workflow.Http.Host

/-!
Absolute addresses and their written form. Reading an address writes its scheme and host in small
letters, leaves out the usual port, resolves the segments `.` and `..` and encodes what may not
stand as it is. Schemes of the web have slashes of either kind and always a host.
-/
namespace Workflow.Http

/-- What stands behind the host: segments, or a text that is not looked into. -/
inductive UrlPath where
  | segments (list : List (List Char))
  | opaqueText (text : List Char)
  deriving Repr, DecidableEq

structure Url where
  scheme : List Char
  user : List Char := []
  password : Option (List Char) := none
  host : Option (List Char) := none
  port : Option Nat := none
  path : UrlPath := .segments []
  query : Option (List Char) := none
  fragment : Option (List Char) := none
  deriving Repr, DecidableEq

namespace Url

/-- The schemes of the web with their usual ports. -/
def usualPort (scheme : List Char) : Option Nat :=
  match String.ofList scheme with
  | "http" | "ws" => some 80
  | "https" | "wss" => some 443
  | "ftp" => some 21
  | _ => none

def isFile (scheme : List Char) : Bool := scheme = "file".toList

def isSpecial (scheme : List Char) : Bool := (usualPort scheme).isSome || isFile scheme

/-! ## Writing -/

def pathText : UrlPath → List Char
  | .segments list => list.flatMap ('/' :: ·)
  | .opaqueText text => text

def credentials (u : Url) : List Char :=
  match u.user, u.password with
  | [], none => []
  | user, none => user ++ ['@']
  | user, some password => user ++ ':' :: password ++ ['@']

def text (u : Url) : String :=
  let authority := match u.host with
    | none => match u.path with
      | .segments ([] :: _ :: _) => ['/', '.']
      | _ => []
    | some host =>
      ['/', '/'] ++ u.credentials ++ host
        ++ (match u.port with
          | some port => ':' :: Nat.toDigits 10 port
          | none => [])
  let mark (c : Char) : Option (List Char) → List Char
    | some s => c :: s
    | none => []
  String.ofList (u.scheme ++ ':' :: authority ++ pathText u.path ++ mark '?' u.query
    ++ mark '#' u.fragment)

/-- User and password, if the address has either. A password whose bytes are no text counts as none;
a user whose bytes are no text is not taken for one, and the password is not either. -/
def login? (u : Url) : Option (String × Option String) := do
  let user ← Text.strictText? (percentDecode u.user)
  let password := u.password.bind fun p => Text.strictText? (percentDecode p)
  if user.isEmpty && password.isNone then none else some (user, password)

def withoutCredentials (u : Url) : Url := { u with user := [], password := none }

def addField (u : Url) (name value : String) : Url :=
  let field := formEncode name ++ '=' :: formEncode value
  { u with query := some (match u.query with
    | none | some [] => field
    | some q => q ++ '&' :: field) }

/-! ## Reading -/

/-- The scheme in small letters, and what comes after the colon. -/
def scheme? : List Char → Option (List Char × List Char)
  | c :: rest =>
    if c.isAlpha then
      let more (c : Char) : Bool := c.isAlphanum || c ∈ ['+', '-', '.']
      match rest.dropWhile more with
      | ':' :: tail => some ((c :: rest.takeWhile more).map Char.toLower, tail)
      | _ => none
    else none
  | [] => none

def isSlash (special : Bool) (c : Char) : Bool := c = '/' || (special && c = '\\')

def endsAuthority (special : Bool) (c : Char) : Bool :=
  isSlash special c || c = '?' || c = '#'

/-- What stands before the last `@` and after it. -/
def cutUser (s : List Char) : Option (List Char × List Char) :=
  if s.contains '@' then
    let back := s.reverse
    some ((back.dropWhile (· ≠ '@')).tail.reverse, (back.takeWhile (· ≠ '@')).reverse)
  else none

/-- The end of a host: the first colon outside of brackets. -/
def hostLength : Bool → List Char → Nat
  | _, [] => 0
  | inside, c :: rest =>
    if c = ':' && !inside then 0
    else hostLength (if c = '[' then true else if c = ']' then false else inside) rest + 1

/-- A port, nothing when it is empty or the usual one. -/
def port? (usual : Option Nat) : List Char → Option (Option Nat)
  | [] => some none
  | ':' :: digits =>
    let n := digits.foldl (fun n c => n * 10 + (c.toNat - 48)) 0
    if !digits.all Char.isDigit || 65535 < n then none
    else if digits.isEmpty || usual = some n then some none
    else some (some n)
  | _ => none

/-- Segments that stand for the place where they are. -/
def isHere (s : List Char) : Bool := String.ofList (s.map Char.toLower) ∈ [".", "%2e"]

/-- Segments that stand for the place above. -/
def isAbove (s : List Char) : Bool :=
  String.ofList (s.map Char.toLower) ∈ ["..", ".%2e", "%2e.", "%2e%2e"]

/-- The segments of a text that begins behind a slash. -/
def cutSegments (special : Bool) : List Char → List (List Char)
  | [] => [[]]
  | c :: rest =>
    if isSlash special c then [] :: cutSegments special rest
    else match cutSegments special rest with
      | [] => [[c]]
      | s :: more => (c :: s) :: more

/-- Resolves the segments that stand for places; `done` holds the ones so far, latest first. -/
def resolve (done : List (List Char)) : List (List Char) → List (List Char)
  | [] => done.reverse
  | [last] =>
    if isAbove last then ([] :: done.tail).reverse
    else if isHere last then ([] :: done).reverse
    else (percentEncode EncodeSet.path last :: done).reverse
  | s :: rest =>
    if isAbove s then resolve done.tail rest
    else if isHere s then resolve done rest
    else resolve (percentEncode EncodeSet.path s :: done) rest

def tail (u : Url) (s : List Char) : Url :=
  let special := isSpecial u.scheme
  let path := s.takeWhile fun c => c ≠ '?' && c ≠ '#'
  let rest := s.dropWhile fun c => c ≠ '?' && c ≠ '#'
  let segments := match path with
    | [] => if special then [[]] else []
    | c :: behind => resolve [] (cutSegments special (if isSlash special c then behind else path))
  let set := if special then EncodeSet.specialQuery else EncodeSet.query
  let (query, rest) := match rest with
    | '?' :: q =>
      (some (percentEncode set (q.takeWhile (· ≠ '#'))), q.dropWhile (· ≠ '#'))
    | rest => (none, rest)
  let fragment := match rest with
    | '#' :: f => some (percentEncode EncodeSet.fragment f)
    | _ => none
  { u with path := .segments segments, query, fragment }

def authority? (scheme s : List Char) : Option Url := do
  let special := isSpecial scheme
  let front := s.takeWhile (!endsAuthority special ·)
  let back := s.dropWhile (!endsAuthority special ·)
  let (user, rest) := match cutUser front with
    | some (user, rest) => (some user, rest)
    | none => (none, front)
  let hostText := rest.take (hostLength false rest)
  let port ← port? (usualPort scheme) (rest.drop (hostLength false rest))
  if hostText.isEmpty && (special || user.isSome || port.isSome) then none
  let host ← if special then Host.normalize? hostText else Host.opaque? hostText
  let name := (user.getD []).takeWhile (· ≠ ':')
  let password := match (user.getD []).dropWhile (· ≠ ':') with
    | ':' :: p => some p
    | _ => none
  let encode := percentEncode EncodeSet.userInfo
  let password := match password with
    | some [] => none
    | p => p.map encode
  return tail { scheme, user := encode name, password, host := some host, port } back

/-- Reads the address of a file; the local host is left out. -/
def file? (scheme s : List Char) : Option Url :=
  match s with
  | a :: b :: rest =>
    if isSlash true a && isSlash true b then do
      let front := rest.takeWhile (!endsAuthority true ·)
      let back := rest.dropWhile (!endsAuthority true ·)
      if front.isEmpty then return tail { scheme, host := some [] } back
      let host ← Host.normalize? front
      return tail { scheme, host := some (if host = "localhost".toList then [] else host) } back
    else some (tail { scheme, host := some [] } s)
  | s => some (tail { scheme, host := some [] } s)

/-- Reads an address whose scheme is not well known. -/
def other? (scheme s : List Char) : Option Url :=
  match s with
  | '/' :: '/' :: rest => authority? scheme rest
  | '/' :: _ => some (tail { scheme } s)
  | s =>
    let path := s.takeWhile fun c => c ≠ '?' && c ≠ '#'
    let u := tail { scheme } (s.dropWhile fun c => c ≠ '?' && c ≠ '#')
    some { u with path := .opaqueText (percentEncode EncodeSet.control path) }

/-- Reads an absolute address. Control characters and blanks around it, and line breaks and tabs
in it, do not count. -/
def ofText (text : String) : Option Url := do
  let isEdge (c : Char) : Bool := c.toNat ≤ 0x20
  let s := ((text.toList.dropWhile isEdge).reverse.dropWhile isEdge).reverse
  let (scheme, rest) ← scheme? (s.filter (· ∉ ['\t', '\n', '\r']))
  if isFile scheme then file? scheme rest
  else if isSpecial scheme then authority? scheme (rest.dropWhile (isSlash true))
  else other? scheme rest

def hasHost (u : Url) : Bool := u.host.any (!·.isEmpty)

end Url

end Workflow.Http
