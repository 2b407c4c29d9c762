import Mathlib.Data.Int.Notation
import Mathlib.Data.List.Basic

/-!
Validation of license keys in `LicenseValidator`. Blocks of the main queue run
one after the other; the critical sections on the class stand between the
sections of other threads, so the handler of a response is two steps, with the
generation check in one and the change of the session in the other.
-/
namespace XitForge.License

/-- The functions of Foundation that the validator calls. Dates are milliseconds. -/
structure Foundation where
  /-- `stringByTrimmingCharactersInSet:` and `uppercaseString`. -/
  normalized : String → String
  isoDateWithFractionalSeconds : String → Option ℤ
  isoDate : String → Option ℤ
  /-- The `Date` header, as `EEE, dd MMM yyyy HH:mm:ss zzz`. -/
  serverClock : String → Option ℤ

def isKeyCharacter (c : Char) : Bool := ('A' ≤ c && c ≤ 'Z') || ('0' ≤ c && c ≤ '9')

/-- `isValidFormat`: four groups of four, joined by hyphens. -/
def isValidFormat (key : String) : Bool :=
  let groups := key.toList.splitOn '-'
  groups.length == 4 && groups.all fun group => group.length == 4 && group.all isKeyCharacter

def isHexDigit (c : Char) : Bool := ('0' ≤ c && c ≤ '9') || ('a' ≤ c && c ≤ 'f')

/-- `^xf2_[0-9a-f]{64}$`. -/
def tokenFormat (token : String) : Bool :=
  match token.toList with
  | 'x' :: 'f' :: '2' :: '_' :: rest => rest.length == 64 && rest.all isHexDigit
  | _ => false

/-- The fields that the handler reads; one of another class counts as absent. -/
structure Json where
  valid : Option Bool := none
  sessionToken : Option String := none
  sessionExpiresAt : Option String := none
  reason : Option String := none
  expiresAt : Option String := none
  accessLevel : Option String := none
  deriving DecidableEq, Repr

inductive Body where
  /-- No data at all. -/
  | absent
  /-- Data that is not a JSON object. -/
  | malformed
  | object (json : Json)
  deriving DecidableEq, Repr

/-- What the completion handler of the task is given. The status is 0 if the
response is none of HTTP. -/
structure Response where
  error : Bool := false
  statusCode : ℤ := 200
  date : Option String := none
  body : Body := .absent
  deriving DecidableEq, Repr

/-- The arguments of a completion. -/
structure Outcome where
  valid : Bool
  reason : Option String
  expiresAt : Option String
  deriving DecidableEq, Repr

inductive Verdict where
  /-- The response says nothing about the key. -/
  | transient (reason : String)
  | refused (outcome : Outcome)
  | granted (token : String) (expiry remaining : ℤ) (accessLevel : String) (outcome : Outcome)
  deriving DecidableEq, Repr

/-- The token and its expiry, if the session is complete. -/
def Json.completeSession (foundation : Foundation) (json : Json) (serverNow : ℤ) :
    Option (String × ℤ) := do
  let token ← json.sessionToken
  let text ← json.sessionExpiresAt
  let expiry ← foundation.isoDateWithFractionalSeconds text <|> foundation.isoDate text
  if tokenFormat token ∧ 0 < expiry - serverNow then some (token, expiry) else none

/-- The handler of a response behind the generation check, up to the change of the session. -/
def judge (foundation : Foundation) (response : Response) (now : ℤ) : Verdict :=
  if response.error then .transient "network_error"
  else if response.statusCode < 200 ∨ 300 ≤ response.statusCode then .transient "server_error"
  else
    match response.body with
    | .absent => .transient "empty_response"
    | .malformed => .transient "invalid_response"
    | .object json =>
      match json.valid with
      | none => .transient "invalid_response"
      | some valid =>
        let serverNow := ((response.date.bind foundation.serverClock).getD now)
        let session := json.completeSession foundation serverNow
        let reason := if valid ∧ session = none then some "authorization_unavailable" else json.reason
        match valid, session with
        | true, some (token, expiry) =>
          if json.accessLevel.map String.toLower = some "premium" then
            .granted token expiry (expiry - serverNow) "premium" ⟨true, reason, json.expiresAt⟩
          else .refused ⟨false, reason, json.expiresAt⟩
        | _, _ => .refused ⟨false, reason, json.expiresAt⟩

/-- A call of `validateKey`, with the generation in which it was made. -/
structure Call where
  id : ℕ
  key : String
  generation : ℕ
  deriving DecidableEq, Repr

/-- A request of `performValidationForKey`, with the generation it read. Requests
are numbered as they are sent. -/
structure Request where
  id : ℕ
  key : String
  generation : ℕ
  deriving DecidableEq, Repr

/-- `xfSessionToken`, `xfSessionExpiresAt` and `xfSessionRefreshDeadline`, which are
set and cleared together, and the request that obtained the token. -/
structure Session where
  token : String
  expiresAt : ℤ
  refreshDeadline : ℤ
  obtained : Request
  deriving DecidableEq, Repr

/-- A block of the main queue. -/
inductive Block where
  | validate (call : Call)
  /-- The completion of a validation that sends no request. -/
  | reject (key reason : String)
  | respond (request : Request) (response : Response)
  deriving DecidableEq, Repr

/-- Where the main thread stands: between blocks, or in the handler of a
response that passed the generation check. -/
inductive MainThread where
  | idle
  | checked (request : Request) (response : Response)
  deriving DecidableEq, Repr

/-- An entry of `xfValidationWaiters`. -/
structure Validation where
  key : String
  calls : List Call
  deriving DecidableEq, Repr

inductive Event where
  | called (call : Call)
  | sent (request : Request)
  /-- `clearSession`. -/
  | cleared
  /-- The `clearSession` of a handler, and the session that it erased. -/
  | refused (request : Request) (erased : Option Session)
  | installed (request : Request)
  /-- A completion, by the response to a request or without one. -/
  | completed (call : Call) (request : Option Request) (outcome : Outcome)
  deriving DecidableEq, Repr

structure State where
  generation : ℕ := 0
  session : Option Session := none
  cleanupToken : Option String := none
  accessLevel : Option String := none
  waiters : List Validation := []
  queue : List Block := []
  main : MainThread := .idle
  flying : List Request := []
  calls : ℕ := 0
  requests : ℕ := 0
  trace : List Event := []
  deriving DecidableEq, Repr

namespace State

/-- The critical section of `clearSession`. -/
def clear (state : State) (event : Event) : State :=
  { state with
    generation := state.generation + 1
    session := none
    trace := state.trace ++ [event] }

/-- What a handler does about a refused key. -/
def refuse (state : State) (request : Request) : State :=
  { state.clear (.refused request state.session) with accessLevel := none }

/-- The critical section that takes a session in, and the level it comes with. -/
def install (state : State) (session : Session) (accessLevel : String) : State :=
  { state with
    session := some session
    cleanupToken := some session.token
    accessLevel := some accessLevel
    trace := state.trace ++ [.installed session.obtained] }

/-- `validateKey`, in the calling thread. -/
def call (foundation : Foundation) (state : State) (key : Option String) : State :=
  let call : Call := ⟨state.calls, (key.map foundation.normalized).getD "", state.generation⟩
  { state with
    calls := state.calls + 1
    queue := state.queue ++ [.validate call]
    trace := state.trace ++ [.called call] }

/-- The completion that `validateKey` hands to `performValidationForKey`. -/
def complete (state : State) (key : String) (request : Option Request) (outcome : Outcome) : State :=
  let callbacks := (state.waiters.filter fun waiter => waiter.key = key).flatMap Validation.calls
  { state with
    waiters := state.waiters.filter fun waiter => waiter.key ≠ key
    trace := state.trace ++ callbacks.map fun call => .completed call request outcome }

/-- `performValidationForKey`, up to the request that it sends. -/
def perform (foundation : Foundation) (state : State) (key : String) (deviceID : String) : State :=
  if isValidFormat (foundation.normalized key) = false then
    { state with queue := state.queue ++ [.reject key "invalid_format"] }
  else if deviceID = "" then
    { state with queue := state.queue ++ [.reject key "device_unavailable"] }
  else
    let request : Request := ⟨state.requests, key, state.generation⟩
    { state with
      requests := state.requests + 1
      flying := state.flying ++ [request]
      trace := state.trace ++ [.sent request] }

/-- The block of `validateKey`: a validation of the same key takes the call in. -/
def validate (foundation : Foundation) (state : State) (call : Call) (deviceID : String) : State :=
  if state.waiters.any fun waiter => waiter.key = call.key then
    { state with
      waiters := state.waiters.map fun waiter =>
        if waiter.key = call.key then { waiter with calls := waiter.calls ++ [call] } else waiter }
  else
    perform foundation { state with waiters := state.waiters ++ [⟨call.key, [call]⟩] } call.key deviceID

/-- The next block, up to the end of the generation check if it handles a response. -/
def runBlock (foundation : Foundation) (state : State) (deviceID : String) : Block → State
  | .validate call => state.validate foundation call deviceID
  | .reject key reason => state.complete key none ⟨false, some reason, none⟩
  | .respond request response =>
    if request.generation ≠ state.generation then
      state.complete request.key (some request) ⟨false, some "session_changed", none⟩
    else { state with main := .checked request response }

/-- The rest of the handler of a response. -/
def handle (state : State) (request : Request) (uptime : ℤ) : Verdict → State
  | .transient reason => state.complete request.key (some request) ⟨false, some reason, none⟩
  | .refused outcome =>
    (state.refuse request).complete request.key (some request) outcome
  | .granted token expiry remaining accessLevel outcome =>
    (state.install ⟨token, expiry, uptime + remaining, request⟩ accessLevel).complete request.key
      (some request) outcome

end State

inductive Action where
  /-- `validateKey`, from any thread. -/
  | call (key : Option String)
  /-- `clearSession`, from any thread. -/
  | clear
  /-- The session hands the response to a request, or the error, to its completion handler. -/
  | answer (request : Request) (response : Response)
  /-- The main thread takes the next block of its queue. -/
  | block (deviceID : String)
  /-- The main thread goes on behind the generation check. -/
  | handle (now uptime : ℤ)
  deriving DecidableEq, Repr

def step (foundation : Foundation) (state : State) : Action → Option State
  | .call key => some (state.call foundation key)
  | .clear => some (state.clear .cleared)
  | .answer request response =>
    if request ∈ state.flying then
      some { state with
        flying := state.flying.erase request
        queue := state.queue ++ [.respond request response] }
    else none
  | .block deviceID =>
    match state.main, state.queue with
    | .idle, block :: queue => some ({ state with queue := queue }.runBlock foundation deviceID block)
    | _, _ => none
  | .handle now uptime =>
    match state.main with
    | .checked request response =>
      some ({ state with main := .idle }.handle request uptime (judge foundation response now))
    | .idle => none

/-- The states that steps of a kind lead to. -/
inductive Reachable (foundation : Foundation) (allowed : State → Action → Prop) : State → Prop where
  | start : Reachable foundation allowed {}
  | next {state state' : State} {action : Action} (h : Reachable foundation allowed state)
      (hallowed : allowed state action) (hstep : step foundation state action = some state') :
      Reachable foundation allowed state'

/-- The state after some actions, if each of them is possible. -/
def run (foundation : Foundation) : State → List Action → Option State
  | state, [] => some state
  | state, action :: actions => (step foundation state action).bind fun state => run foundation state actions

end XitForge.License
