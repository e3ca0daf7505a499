/-
  Handlers that ask services: one sends a request, one changes a database.

  Requests go through a breaker for each service and are tried again where the cause of a failure
  lies on the way to it.
-/
import Rulebook.Config
import Rulebook.Handler.Basic
import Rulebook.Retry
import Rulebook.Text.CaseMap

namespace Rulebook.Handler

/-! ## Requests -/

/-- The answer of a service. -/
structure Answer where
  status : Int
  body : String

/-- Why a request got no answer. -/
inductive NoAnswer where
  /-- Nothing came back; `onTheWay` if another attempt may help. -/
  | broken (onTheWay : Bool) (message : String)
  | fault (f : Fault)
  /-- The action was cut off while it waited. -/
  | cut

/-- Whether another attempt may help. -/
def NoAnswer.again : NoAnswer → Bool
  | broken onTheWay _ => onTheWay
  | fault _ | cut => false

/-- Whether the action was cut off. -/
def NoAnswer.isCut : NoAnswer → Bool
  | cut => true
  | broken .. | fault _ => false

/-- What a reply is to whoever waits for it. -/
def received : Http.Reply → Except NoAnswer Answer
  | .answer status body => .ok ⟨status, body⟩
  | .broken onTheWay message => .error (.broken onTheWay message)
  | .fault f => .error (.fault f)

/-- Sends a request, if there is one to send, and waits for the reply. -/
def send (request : Except Fault Http.Request) (s : Surroundings) :
    Except NoAnswer Answer × Surroundings :=
  match request with
  | .error f => (.error (.fault f), s)
  | .ok r =>
    let reply := s.nextReply
    let s := (s.sent r).later
    (if s.isCut then .error .cut else received reply, s)

/-- Waits for the next attempt. -/
def pause (delay : Number) (s : Surroundings) : Except NoAnswer Unit × Surroundings :=
  let s := { s with waits := s.waits ++ [delay] }.later
  (if s.isCut then .error .cut else .ok (), s)

/-- The longest wait between two attempts, in seconds. -/
def longestWait : Number := .float 2.0

/-- How requests are tried again. -/
def requestBackoff (config : Config) : Backoff where
  attempts := .int config.callAttempts
  base := .float config.callBaseDelay
  most := longestWait

/-- The task of sending a request until a deadline. -/
def sending (request : Except Fault Http.Request) (deadline : Float) :
    Backoff.Task Surroundings NoAnswer Answer where
  call := send request
  again := NoAnswer.again
  now s := .float s.now
  sleep := pause
  deadline := some (.float deadline)

/-- What came of a request, however often it was tried. -/
def inTheEnd : Backoff.Ended NoAnswer Answer → Except NoAnswer Answer
  | .returned a => .ok a
  | .raised e => .error e
  | .gaveUp _ e => .error e
  | .fault f => .error (.fault f)

/-- Sends a request as often as is allowed until a deadline. -/
def sendTrying (config : Config) (request : Except Fault Http.Request) (deadline : Float)
    (s : Surroundings) : Except NoAnswer Answer × Surroundings :=
  let (ended, s) := (requestBackoff config).run (sending request deadline) s
  (inTheEnd ended, s)

/-- Sends a request through the breaker of a service, which does not count a call that is cut off. -/
def sendGuarded (config : Config) (service : String) (request : Except Fault Http.Request)
    (deadline : Float) : Act (Breakers.Called Float NoAnswer Answer) := fun s =>
  match Breakers.call (·.breakers) (fun bs s => { s with breakers := bs }) (·.now) service
      NoAnswer.isCut (fun a : Answer => .ok (Http.firstServiceError ≤ a.status))
      (sendTrying config request deadline) s with
  | (r, s) => .ok r s

/-- The breakers of the services, all closed. -/
def freshBreakers (config : Config) : Breakers Float where
  settings := { threshold := .int config.callFailureThreshold, recovery := config.callRecovery }

/-- Whether a text starts like the address of a service. -/
def isServiceAddress (s : String) : Bool :=
  s.startsWith "http://" || s.startsWith "https://"

/-- The data of a parameter, `absent` if it counts as false. -/
def orElse (d absent : Data) : Data :=
  if d.truth then d else absent

/-- What a service is asked, and the values that it is made of. -/
structure Inquiry where
  address : String
  service : String
  method : String
  headers : Value
  body : Value
  /-- The request, if one can be built of the values. -/
  request : Except Fault Http.Request

/-- Sends a request to a service and gives its answer. -/
def callService (config : Config) (stamps : Stamps) : Handler :=
  { requiring "CALL_API" ["url"] run with cutsOff := true }
where
  /-- Fails, with the address in the details. -/
  refuseAt (address message : String) (more : List (String × Data)) : Act Value :=
    Act.refuse message (.of (("url", .text address) :: more))
  /-- What the parameters of an action ask. -/
  prepare (ps : Details) (c : Context) : Act Inquiry := do
    let url ← Act.resolve c (ps.parameter "url")
    match url with
    | .text address =>
      if !isServiceAddress address then refuseAddress url
      else do
        let method := Text.upper (← Act.lift (ps.parameter "method" (.text "POST")).asText)
        let headers ← Act.resolve c (orElse (ps.parameter "headers") (.mapping []))
        let body ← Act.resolve c (ps.parameter "body")
        let query ← Act.resolve c (orElse (ps.parameter "query") (.mapping []))
        let service ← Act.lift (Http.Url.authority address)
        let h ← Act.heap
        let request :=
          Http.Request.build method address (h.plain headers) (h.plain query) (h.plain body)
        return { address, service, method, headers, body, request }
    | _ => refuseAddress url
  /-- Gives the answer of a service, or tells why there is none. -/
  answer (q : Inquiry) : Breakers.Called Float NoAnswer Answer → Act Value
    | .blocked _ => refuseAt q.address (Breaker.blockedMessage q.service) []
    | .raised (.fault f) => Act.fail (.fault f)
    | .raised .cut => throw .cut
    | .raised (.broken _ message) =>
      refuseAt q.address (s!"API call to {q.address} failed: " ++ message) []
    | .returned a =>
      if Http.firstError ≤ a.status then
        refuseAt q.address (s!"API call to {q.address} returned HTTP " ++ toString a.status)
          [("status_code", .int a.status)]
      else do
        let response ← Act.load (Http.payload a.body)
        Act.give [("response_id", stamps.idOf "api"), ("url", .text q.address),
          ("method", .text q.method), ("headers", q.headers), ("body", q.body),
          ("status_code", .int a.status), ("response", response), ("executed_at", stamps.timeOf)]
  /-- Asks a service what the parameters of an action ask. -/
  run (ps : Details) (c : Context) (deadline : Float) : Act Value := do
    let q ← prepare ps c
    answer q (← sendGuarded config q.service q.request deadline)
  /-- Refuses what is no address of a service. -/
  refuseAddress (v : Value) : Act Inquiry := do
    Act.refuse ("CALL_API url must be an http(s) URL, got " ++
      (← Act.lift ((← Act.heap).listing v)))

/-! ## The database -/

/-- What a database does with a change: how many rows it changed, as it tells it. -/
abbrev Database := DatabaseUpdate → Except Failure Data

/-- Asks a database for a change, or only says what would be changed if there is none. -/
def updateDatabase (stamps : Stamps) (database : Option Database) : Handler :=
  requiring "UPDATE_DATABASE" ["table"] fun ps c _ => do
    let table := ps.parameter "table"
    let operation := ps.parameter "operation" (.text "update")
    let rows ← Act.resolve c (ps.parameter "where" (.mapping []))
    let fields ← Act.resolve c (ps.parameter "data" (.mapping []))
    let changed ←
      match database with
      | none => pure (.int 0)
      | some database => do
        let h ← Act.heap
        let update : DatabaseUpdate := ⟨table, operation, h.plain rows, h.plain fields⟩
        modify fun s => { s with updates := s.updates ++ [update] }
        Act.wait
        match database update with
        | .ok d => Act.load d
        | .error e => Act.fail e
    Act.give [("table", ← Act.load table), ("operation", ← Act.load operation), ("where", rows),
      ("data", fields), ("affected_rows", changed), ("simulated", .bool database.isNone),
      ("updated", .bool true), ("executed_at", stamps.timeOf)]

end Rulebook.Handler
