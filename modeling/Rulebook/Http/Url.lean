/-
  Addresses of requests.

  `Url.read` takes an address apart and normalises its parts: the host in lower case, characters
  that may not stand in a part escaped, segments of dots followed, a usual number after the host
  dropped.  An address without a host is only a path.  This is the normal form that httpx documents
  of its addresses.

  * `Url.text`: an address in one piece;
  * `authority`: the part of an address that tells services apart.
-/
import Rulebook.Data.Conversion
import Rulebook.Http.Address
import Rulebook.Http.Punycode

namespace Rulebook.Http

/-- An address, its parts as they are written. -/
structure Url where
  scheme : List Char := []
  user : List Char := []
  host : List Char := []
  number : Option Int := none
  path : List Char
  query : Option (List Char) := none
  fragment : Option (List Char) := none

namespace Url

/-! ## Characters of the parts -/

/-- The visible characters of basic Latin without some of them. -/
def visibleBut (excluded : String) (c : Char) : Bool :=
  32 < c.toNat && c.toNat < 127 && !excluded.toList.contains c

/-- The characters that stand in a fragment as they are. -/
def inFragment : Char → Bool := visibleBut "\"<>\x60"

/-- The characters that stand in a query as they are. -/
def inQuery : Char → Bool := visibleBut "\"#<>"

/-- The characters that stand in a path as they are. -/
def inPath : Char → Bool := visibleBut "\"#<>?\x60\x7b\x7d"

/-- The characters that stand in the name of a user as they are. -/
def inUser : Char → Bool := visibleBut "\"#<>?\x60\x7b\x7d/;=@[\\]^|"

/-- The characters that stand in a host as they are, besides letters and digits. -/
def inHost (c : Char) : Bool :=
  "!$&'()*+,;=\"\x60\x7b\x7d%|\\".toList.contains c

/-! ## Parts -/

/-- What stands before the last of the given characters, and what stands after it. -/
def splitLast (c : Char) (cs : List Char) : List Char × List Char :=
  let after := (cs.reverse.takeWhile (· ≠ c)).reverse
  (cs.take (cs.length - after.length - 1), after)

/-- The name of a user and what stands after it. -/
def splitUser (cs : List Char) : List Char × List Char :=
  if cs.contains '@' then splitLast '@' cs else ([], cs)

/-- A host and what stands after it; brackets belong to the host. -/
def splitHost (cs : List Char) : List Char × List Char :=
  let host :=
    if cs.head? = some '[' ∧ cs.contains ']' then (splitLast ']' cs).1 ++ [']']
    else cs.takeWhile (· ≠ ':')
  (host, cs.drop host.length)

/-- The written form of a host. -/
def writeHost (host : List Char) : Except Fault (List Char) :=
  let listing := Text.quoted (String.ofList host)
  if Address.looksLikeVersion4 host then
    if Address.isVersion4 host then .ok host else .error (.urlAddress 4 listing)
  else if host.head? = some '[' ∧ host.getLast? = some ']' then
    let address := (host.drop 1).dropLast
    if Address.isVersion6 address then .ok address else .error (.urlAddress 6 listing)
  else
    let lower := (Text.lower (String.ofList host)).toList
    if host.all fun c => c.toNat < 128 then .ok (encode inHost lower)
    else
      match Punycode.name? lower with
      | some name => .ok name
      | none => .error (.urlHost listing)

/-- The number that a scheme uses if none is given. -/
def usualNumber (scheme : List Char) : Int :=
  if scheme = "https".toList then 443 else 80

/-- The number after a host, unless it is the usual one. -/
def readNumber (scheme cs : List Char) : Except Fault (Option Int) :=
  let digits := if cs.head? = some ':' then cs.drop 1 else cs
  if digits.isEmpty then .ok none
  else
    match Data.readWhole (String.ofList digits) 10 with
    | .ok n => .ok (if n = usualNumber scheme then none else some n)
    | .error _ => .error (.urlPort (Text.quoted (String.ofList digits)))

/-- Segments with those of one dot left out and each of two dots taking the one before it away. -/
def followDots : List (List Char) → List (List Char) → List (List Char)
  | out, [] => out
  | out, ['.'] :: rest => followDots out rest
  | out, ['.', '.'] :: rest => followDots (if out = [[]] then out else out.dropLast) rest
  | out, s :: rest => followDots (out ++ [s]) rest

/-- A path without segments of dots. -/
def normalPath (cs : List Char) : List Char :=
  List.intercalate ['/'] (followDots [] (Address.splitAt '/' cs))

/-! ## Whole addresses -/

/-- The most characters of an address and of each of its parts. -/
def maxLength : Nat := 65536

/-- Whether a character may not stand in an address at all. -/
def isControl (c : Char) : Bool :=
  c.toNat < 32 || c.toNat == 127

/-- The part from a mark to the next one, if the mark is there. -/
def partAfter (mark : Char) (stop : List Char) (cs : List Char) : Option (List Char) :=
  if cs.head? = some mark then some ((cs.drop 1).takeWhile fun c => !stop.contains c) else none

/-- An address without a host, as a path. -/
def asPath (u : Url) : Url :=
  if u.host.isEmpty then { path := '/' :: u.path.dropWhile (· = '/'), query := u.query } else u

/-- Reads an address that has a scheme and two slashes after it. -/
def read (s : String) : Except Fault Url := do
  let cs := s.toList
  if maxLength < cs.length then throw .urlTooLong
  match cs.find? isControl with
  | some c => throw (.urlControl (Text.quoted c.toString) (cs.takeWhile (· ≠ c)).length)
  | none => pure ()
  let scheme := cs.takeWhile (· ≠ ':')
  let rest := cs.drop (scheme.length + 3)
  let authority := rest.takeWhile fun c => c ∉ ['/', '?', '#']
  let rest := rest.drop authority.length
  let path := rest.takeWhile fun c => c ∉ ['?', '#']
  let rest := rest.drop path.length
  let query := partAfter '?' ['#'] rest
  let fragment := partAfter '#' [] (rest.dropWhile (· ≠ '#'))
  let (user, host) := splitUser authority
  let (host, digits) := splitHost host
  let host ← writeHost host
  let number ← readNumber scheme digits
  return asPath {
    scheme, host, number
    user := encode inUser user
    path := encode inPath (normalPath path)
    query := query.map (encode inQuery)
    fragment := fragment.map (encode inFragment) }

/-- An address with another query. -/
def withQuery (u : Url) (query : Option (List Char)) : Except Fault Url :=
  if maxLength < (query.getD []).length then .error (.urlPartTooLong "query")
  else .ok { u with query }

/-- An address in one piece. -/
def text (u : Url) : String :=
  let authority :=
    (if u.user.isEmpty then [] else u.user ++ ['@']) ++
      (if u.host.contains ':' then '[' :: u.host ++ [']'] else u.host) ++
      match u.number with
      | some n => ':' :: (toString n).toList
      | none => []
  String.ofList <|
    (if u.scheme.isEmpty then [] else u.scheme ++ [':']) ++
      (if authority.isEmpty then [] else '/' :: '/' :: authority) ++ u.path ++
      (match u.query with | some q => '?' :: q | none => []) ++
      (match u.fragment with | some f => '#' :: f | none => [])

/-! ## Services -/

/-- Whether a text is a mark of a future form of addresses and an address in it. -/
def isFuture (cs : List Char) : Bool :=
  let version := (cs.drop 1).takeWhile fun c => (hexValue? c).isSome
  match cs.drop (1 + version.length) with
  | '.' :: _ :: _ => !version.isEmpty
  | _ => false

/-- Checks what stands in brackets. -/
def checkBrackets (cs : List Char) : Except Fault Unit :=
  if cs.head? = some 'v' then if isFuture cs then .ok () else .error .futureAddress
  else if Address.isVersion4 cs then .error .addressInBrackets
  else if Address.isVersion6 cs then .ok ()
  else .error (.noAddress (Text.quoted (String.ofList cs)))

/-- The part of an address that tells services apart: user, host and number as they are given. -/
def authority (s : String) : Except Fault String := do
  let cs := s.toList.filter fun c => c ∉ ['\t', '\r', '\n']
  let rest := cs.drop ((cs.takeWhile (· ≠ ':')).length + 3)
  let part := rest.takeWhile fun c => c ∉ ['/', '?', '#']
  let opened := part.contains '['
  if opened != part.contains ']' then throw .bracketsUnbalanced
  if opened then checkBrackets (((part.dropWhile (· ≠ '[')).drop 1).takeWhile (· ≠ ']'))
  return String.ofList part

end Url

end Rulebook.Http
