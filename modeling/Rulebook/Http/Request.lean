/-
  Requests and what comes of them.

  A request is built from data: its headers and its query are written out, its body is JSON.  The
  names of headers are compared without regard to capitals; one that is given several times has its
  values joined.

  How a request is built from its parts is what httpx documents of its clients: a JSON body sets the
  type of the body unless the headers name one, and parameters take the place of the query of the
  address.  Of its errors, those of the transport are told apart from the others: `Reply.broken`.
-/
import Rulebook.Http.Query
import Rulebook.Http.Url
import Rulebook.Json.Reader
import Rulebook.Json.Writer
import Rulebook.Text.CaseMap

namespace Rulebook.Http

/-! ## Requests -/

/-- A request. -/
structure Request where
  method : String
  url : Url
  /-- The headers that were asked for, and the type of the body, by names in small letters. -/
  headers : Keyed String String
  body : String := ""

namespace Request

/-- The escape of a character beyond basic Latin, between quotes. -/
def escapeListing (c : Char) : String :=
  let n := c.toNat
  let escaped :=
    if n < 0x100 then '\\' :: 'x' :: Text.hexPadded 2 n
    else if n < 0x10000 then '\\' :: 'u' :: Text.hexPadded 4 n
    else '\\' :: 'U' :: Text.hexPadded 8 n
  String.ofList ('\'' :: escaped ++ ['\''])

/-- Checks that a text has characters of basic Latin only. -/
def checkAscii (s : String) : Except Fault Unit :=
  let before := s.toList.takeWhile fun c => c.toNat < 128
  match s.toList.drop before.length with
  | [] => .ok ()
  | c :: rest =>
    let more := rest.takeWhile fun c => 128 ≤ c.toNat
    .error (.notAscii (escapeListing c) before.length (before.length + more.length))

/-- The names and values of headers, written out. -/
def headerTexts : List (Data × Data) → Keyed String String → Except Fault (Keyed String String)
  | [], hs => .ok hs
  | e :: es, hs => do
    let name ← e.1.asText
    let value ← e.2.asText
    headerTexts es (hs.put name value)

/-- Adds a header. -/
def addHeader (hs : Keyed String String) (name value : String) : Keyed String String :=
  let name := Text.lower name
  match hs.get? name with
  | some before => hs.put name (before ++ ", " ++ value)
  | none => hs.put name value

/-- The headers of texts by name, which have to be basic Latin. -/
def headersOf : List (String × String) → Keyed String String → Except Fault (Keyed String String)
  | [], hs => .ok hs
  | (name, value) :: es, hs => do
    checkAscii name
    checkAscii value
    headersOf es (addHeader hs name value)

/-- The header that tells the type of a body. -/
def typeHeader : String := "content-type"

/-- Whether requests of a method have a body. -/
def hasBody (method : String) : Bool :=
  method ≠ "GET" ∧ method ≠ "HEAD"

/-- Builds a request; a query that counts as true takes the place of the one in the address, and a
    body that is `null` is none. -/
def build (method address : String) (headers query body : Data) : Except Fault Request := do
  let given ←
    match headers with
    | .mapping es => headerTexts es {}
    | d => .error (.noAttribute d.typeName "items")
  let url ← Url.read address
  let headers ← headersOf given.entries {}
  let url ←
    if query.truth then do url.withQuery (← Query.ofData query).text?
    else .ok url
  match hasBody method, body with
  | false, _ | _, .null => return { method, url, headers }
  | true, body => do
    let text ← Json.write Json.inBody body
    let headers :=
      if headers.contains typeHeader then headers else headers.put typeHeader "application/json"
    return { method, url, headers, body := text }

end Request

/-! ## Replies -/

/-- What comes of a request. -/
inductive Reply where
  /-- A service answered. -/
  | answer (status : Int) (body : String)
  /-- No answer came; another attempt may help if the cause lies on the way to the service. -/
  | broken (onTheWay : Bool) (message : String)
  /-- No answer could be made. -/
  | fault (f : Fault)

/-- The statuses from which on an answer tells of an error. -/
def firstError : Int := 400

/-- The statuses from which on an answer tells of an error of the service. -/
def firstServiceError : Int := 500

/-- The data that the body of an answer stands for: what it says in JSON, else the text itself. -/
def payload (body : String) : Data :=
  let text :=
    match body.toList with
    | '\ufeff' :: rest => String.ofList rest
    | _ => body
  match Json.read text with
  | .ok d => d
  | .error _ => .text body

end Rulebook.Http
