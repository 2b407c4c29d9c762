import XitForge.CoreDevice.FileService
import XitForge.StepRuns
import XitForge.Xpc.Reassembly
import XitForge.Xpc.RecvAny

/-!
The calls of a `CoreDeviceServiceClient`. A request names its invocation, an answer does
not: a call takes the next message of its channel. What a call leaves behind when it is
dropped stays in the channel, or comes to it later.
-/
namespace XitForge.CoreDevice.Invocations

open FileService (CoreDeviceError asArray asDictionary)
open RustEval StepRuns
open Xpc (AnyChannel PlistValue Sent Stream Uuid Wire XPCObject delivered)

section Requests

/-- `create_xpc_version_from_string` of `CORE_SERVICE_VERSION`. -/
def coreServiceVersion : XPCObject :=
  .dictionary [("originalComponentsCount", .int64 2),
    ("components", .array [.uint64 629, .uint64 3]), ("stringValue", .string "629.3")]

/-- A call, with its input as an XPC object. -/
inductive Call where
  /-- `invoke_inner`. -/
  | inner (feature : Option String) (input : Option (List (String × XPCObject)))
    (actionIdentifier : Option String)
  /-- `invoke_streaming_with_plist`. -/
  | streaming (feature : String) (input : XPCObject)

namespace Call

def invoke (feature : String) (input : Option (List (String × XPCObject))) : Call :=
  .inner (some feature) input none

def invokeWithPlist (feature : String) (input : List (String × XPCObject)) : Call :=
  invoke feature (some input)

def invokeWithPlistAction (feature : String) (input : List (String × XPCObject))
    (actionIdentifier : String) : Call := .inner (some feature) (some input) (some actionIdentifier)

def invokeActionWithPlist (actionIdentifier : String) (input : List (String × XPCObject)) : Call :=
  .inner none (some input) (some actionIdentifier)

/-- Where the answer is taken from: `recv` or `recv_root`. -/
def channel : Call → AnyChannel
  | .inner .. => .reply
  | .streaming .. => .root

end Call

/-- The identifiers that are drawn for a request. -/
structure Drawn where
  deviceIdentifier : Uuid
  invocationIdentifier : Uuid
  sideChannel : Uuid

def buildStreamingInput (input : XPCObject) (sideChannel : Uuid) : XPCObject :=
  .dictionary [("actualInput", input),
    ("streamProxy", .dictionary [("sideChannel", .uuid sideChannel)])]

/-- The request of a call. -/
def Call.request (drawn : Drawn) : Call → XPCObject
  | .inner feature input actionIdentifier =>
    .dictionary <|
      [("CoreDevice.CoreDeviceDDIProtocolVersion", .int64 (if actionIdentifier.isSome then 2 else 0)),
        ("CoreDevice.action", .dictionary []), ("CoreDevice.coreDeviceVersion", coreServiceVersion),
        ("CoreDevice.deviceIdentifier", .string drawn.deviceIdentifier.toText)] ++
      (feature.map fun feature => ("CoreDevice.featureIdentifier", XPCObject.string feature)).toList ++
      [("CoreDevice.input", .dictionary (input.getD [])),
        ("CoreDevice.invocationIdentifier", .string drawn.invocationIdentifier.toText)] ++
      (actionIdentifier.map fun action =>
        ("CoreDevice.actionIdentifier", XPCObject.string action)).toList
  | .streaming feature input =>
    .dictionary [("CoreDevice.CoreDeviceDDIProtocolVersion", .int64 2),
      ("CoreDevice.action", .dictionary []), ("CoreDevice.coreDeviceVersion", coreServiceVersion),
      ("CoreDevice.deviceIdentifier", .string drawn.deviceIdentifier.toText),
      ("CoreDevice.featureIdentifier", .string feature),
      ("CoreDevice.input", buildStreamingInput input drawn.sideChannel),
      ("CoreDevice.invocationIdentifier", .string drawn.invocationIdentifier.toText)]

end Requests

section Answers

-- the debug output of a value
variable (debug : PlistValue → String)

/-- What `invoke_inner` returns for a reply. -/
def invokeOutput (res : PlistValue) : Except CoreDeviceError PlistValue :=
  match asDictionary res with
  | none => .error (.malformedField "(root)")
  | some res =>
    match res.lookup "CoreDevice.output" with
    | some output => .ok output
    | none =>
      match res.lookup "CoreDevice.error" with
      | some error => .error (.deviceError (debug error))
      | none => .error (.missingField "CoreDevice.output")

inductive StreamingResponse where
  | elements (batch : List PlistValue)
  | finished

def parseStreamResponse (response : PlistValue) : Except CoreDeviceError StreamingResponse :=
  match asDictionary response with
  | none => .error (.malformedField "(root)")
  | some response =>
    match response.lookup "CoreDevice.XPCMessageKey.sideChannelStatus" with
    | some (.dictionary status) =>
      match status.lookup "receivedError" with
      | some error => .error (.deviceError (debug error))
      | none =>
        if (status.lookup "finishStreaming").isSome then .ok .finished
        else
          match (status.lookup "pushing").bind asDictionary with
          | none => .error (.missingField "pushing")
          | some pushing =>
            match (pushing.lookup "elements").bind asArray with
            | none => .error (.malformedField "elements")
            | some elements => .ok (.elements elements)
    | some _ => .error (.malformedField "sideChannelStatus")
    | none =>
      match response.lookup "CoreDevice.error" with
      | some error => .error (.deviceError (debug error))
      | none => .error (.missingField "sideChannelStatus")

end Answers

section Model

variable {checks : Bool}

/-- A message of the device, which can be read back. -/
structure Reply (checks : Bool) where
  sent : Sent
  bytes : List UInt8
  wire : Wire checks sent bytes

/-- A request that the device has received whole. -/
structure Request where
  id : ℕ
  object : XPCObject

/-- One of the two channels, on both sides of the connection. -/
structure Line (checks : Bool) where
  /-- The requests that the device has not answered to the end. -/
  pending : List Request := []
  /-- All that the device has sent, with the call it answers. -/
  sent : List (ℕ × Reply checks) := []
  flight : List UInt8 := []
  channel : Xpc.Channel := {}
  /-- The values that were taken off the channel, with the call that took them. -/
  taken : List (ℕ × PlistValue) := []

/-- The values that the device has sent, with the call they answer. -/
def Line.answers (line : Line checks) : List (ℕ × PlistValue) :=
  line.sent.filterMap fun message => (delivered message.2.sent).map (message.1, ·)

/-- The device has nothing more to send, and all of it was taken. -/
def Line.Clear (line : Line checks) : Prop :=
  line.pending = [] ∧ line.taken.length = line.answers.length

inductive CallError where
  | coreDevice (error : CoreDeviceError)
  | xpc (error : Xpc.IdeviceError)
  | disconnected
  deriving DecidableEq

/-- What the caller gets. -/
inductive Result where
  | returned (value : PlistValue)
  | yielded (element : PlistValue)
  /-- The stream ends. -/
  | finished
  | failed (error : CallError)

/-- The call that is under way. -/
structure Running where
  id : ℕ
  call : Call
  drawn : Drawn
  /-- `send_object` is over. -/
  sent : Bool := false
  /-- The elements that are still to be yielded. -/
  batch : List PlistValue := []

structure State (checks : Bool) where
  calls : ℕ := 0
  running : Option Running := none
  lines : AnyChannel → Line checks := fun _ => {}
  results : List (ℕ × Result) := []

inductive Tick (checks : Bool) where
  | start (call : Call) (drawn : Drawn)
  /-- `send_object` is over, and the device has the whole request or never gets it. -/
  | sent (received : Bool)
  /-- The future or the stream is dropped, in `send_object` perhaps after its last write. -/
  | drop (received : Bool)
  /-- The connection fails. -/
  | disconnect (received : Bool)
  /-- The device answers the first request of a channel. -/
  | answer (channel : AnyChannel) (reply : Reply checks) (last : Bool)
  /-- The device sends a message that delivers nothing. -/
  | keepAlive (channel : AnyChannel) (message : Reply checks)
  /-- The payload of a frame is put into the cache of its channel. -/
  | arrive (channel : AnyChannel) (count : ℕ)
  /-- `recv` or `recv_root` goes on until it returns or waits for a frame. -/
  | receive
  | yield

/-- A message is on its way. -/
def Line.push (line : Line checks) (origin : ℕ) (reply : Reply checks) : Line checks :=
  { line with sent := line.sent ++ [(origin, reply)], flight := line.flight ++ reply.bytes }

namespace State

def set (s : State checks) (channel : AnyChannel) (line : Line checks) : State checks :=
  { s with lines := Function.update s.lines channel line }

/-- The request of a call that has not been sent to the end before. -/
def request (s : State checks) (r : Running) (received : Bool) : State checks :=
  if !r.sent && received then
    let line := s.lines r.call.channel
    s.set r.call.channel
      { line with pending := line.pending ++ [⟨r.id, r.call.request r.drawn⟩] }
  else s

/-- The call is over. -/
def settle (s : State checks) (r : Running) (results : List Result) : State checks :=
  { s with running := none, results := s.results ++ results.map (r.id, ·) }

variable (debug : PlistValue → String)

/-- The call goes on with the value it has received. -/
def answered (s : State checks) (r : Running) (value : PlistValue) : State checks :=
  match r.call with
  | .inner .. =>
    match invokeOutput debug value with
    | .ok output => s.settle r [.returned output]
    | .error error => s.settle r [.failed (.coreDevice error)]
  | .streaming .. =>
    match parseStreamResponse debug value with
    | .ok (.elements batch) => { s with running := some { r with batch := batch } }
    | .ok .finished => s.settle r [.finished]
    | .error error => s.settle r [.failed (.coreDevice error)]

/-- A value is taken off the channel. -/
def take (s : State checks) (r : Running) (value : PlistValue) (channel : Xpc.Channel) :
    State checks :=
  let line := s.lines r.call.channel
  (s.set r.call.channel
    { line with channel := channel, taken := line.taken ++ [(r.id, value)] }).answered debug r value

def receive (s : State checks) (r : Running) : Option (State checks) :=
  let line := s.lines r.call.channel
  match Xpc.recvFromChannel checks line.channel [] with
  | .ok (.value value channel _) => some (s.take debug r value channel)
  | .ok (.pending channel) => some (s.set r.call.channel { line with channel := channel })
  | .ok (.dropped _ _) => none
  -- the message stays in front, and every later call finds it there
  | .err error => some (s.settle r [.failed (.xpc error)])
  | .panic => none

/-- What happens next, if it can. -/
def step (s : State checks) : Tick checks → Option (State checks)
  | .start call drawn =>
    match s.running with
    | none => some { s with calls := s.calls + 1, running := some { id := s.calls, call, drawn } }
    | some _ => none
  | .sent received =>
    match s.running with
    | some r =>
      if r.sent then none
      else some { s.request r received with running := some { r with sent := true } }
    | none => none
  | .drop received => s.running.map fun r => (s.request r received).settle r []
  | .disconnect received =>
    s.running.map fun r => (s.request r received).settle r [.failed .disconnected]
  | .answer channel reply last =>
    let line := s.lines channel
    match line.pending with
    | [] => none
    | request :: rest =>
      some (s.set channel
        { line.push request.id reply with pending := if last then rest else request :: rest })
  | .keepAlive channel message =>
    if (delivered message.sent).isNone then
      -- the call it is put down to is never looked at
      some (s.set channel ((s.lines channel).push 0 message))
    else none
  | .arrive channel count =>
    let line := s.lines channel
    if 0 < count ∧ count ≤ line.flight.length then
      some (s.set channel
        { line with
          channel := { line.channel with cache := line.channel.cache ++ [line.flight.take count] }
          flight := line.flight.drop count })
    else none
  | .receive =>
    match s.running with
    | some r => if r.sent ∧ r.batch = [] then s.receive debug r else none
    | none => none
  | .yield =>
    match s.running with
    | some r =>
      match r.batch with
      | [] => none
      | element :: rest =>
        some { s with
          running := some { r with batch := rest }
          results := s.results ++ [(r.id, .yielded element)] }
    | none => none

end State

/-- The message of the list that a result was made of. -/
def Result.From (debug : PlistValue → String) (messages : AnyChannel → List (ℕ × PlistValue))
    (id : ℕ) : Result → Prop
  | .returned value => ∃ reply, (id, reply) ∈ messages .reply ∧ invokeOutput debug reply = .ok value
  | .yielded element => ∃ response batch, (id, response) ∈ messages .root ∧
      parseStreamResponse debug response = .ok (.elements batch) ∧ element ∈ batch
  | .finished => True
  | .failed _ => True

theorem Result.From.mono {debug : PlistValue → String} {id : ℕ} {result : Result}
    {messages messages' : AnyChannel → List (ℕ × PlistValue)}
    (hsub : ∀ channel, messages channel ⊆ messages' channel)
    (h : result.From debug messages id) : result.From debug messages' id := by
  cases result with
  | returned value =>
    obtain ⟨reply, hreply, hvalue⟩ := h
    exact ⟨reply, hsub _ hreply, hvalue⟩
  | yielded element =>
    obtain ⟨response, batch, hresponse, hbatch⟩ := h
    exact ⟨response, batch, hsub _ hresponse, hbatch⟩
  | finished => trivial
  | failed error => trivial

/-- Calls begin where the device owes nothing and has left nothing. -/
def StartsClear (s : State checks) : Tick checks → Prop
  | .start call _ => (s.lines call.channel).Clear
  | _ => True

section Lines

variable {line : Line checks}

/-- The bytes on the way are those of the messages that are not taken yet. -/
def Line.Ordered (line : Line checks) : Prop :=
  ∃ done rest, line.sent.map (fun message => message.2.sent) = done ++ rest ∧
    done.filterMap delivered = line.taken.map Prod.snd ∧
    Stream checks rest (line.channel.bytes [] ++ line.flight)

/-- All that was taken answers its call, and the rest will answer the one that has the channel. -/
structure Line.Owned (line : Line checks) (owner : Option ℕ) : Prop where
  own : line.taken <+: line.answers
  left : ∀ id ∈ owner, ∀ answer ∈ line.answers.drop line.taken.length, answer.1 = id
  pending : ∀ id ∈ owner, ∀ request ∈ line.pending, request.id = id

theorem Line.answers_push (line : Line checks) (origin : ℕ) (reply : Reply checks) :
    (line.push origin reply).answers =
      line.answers ++ ((delivered reply.sent).map (origin, ·)).toList := by
  unfold Line.answers Line.push
  rw [List.filterMap_append]
  cases hvalue : delivered reply.sent <;> simp [hvalue]

theorem Line.answers_values (line : Line checks) : line.answers.map Prod.snd =
    (line.sent.map fun message => message.2.sent).filterMap delivered := by
  unfold Line.answers
  rw [List.map_filterMap, List.filterMap_map]
  apply List.filterMap_congr
  intro message _
  change ((delivered message.2.sent).map (message.1, ·)).map Prod.snd = delivered message.2.sent
  rw [Option.map_map]
  exact Option.map_id'

namespace Line.Ordered

/-- Values are taken in the order in which they were sent. -/
theorem taken_of_wire (h : line.Ordered) :
    line.taken.map Prod.snd <+: line.answers.map Prod.snd := by
  obtain ⟨done, rest, hsent, hdone, -⟩ := h
  rw [line.answers_values, hsent, List.filterMap_append, ← hdone]
  exact List.prefix_append _ _

theorem push (h : line.Ordered) (origin : ℕ) (reply : Reply checks) :
    (line.push origin reply).Ordered := by
  obtain ⟨done, rest, hsent, hdone, hstream⟩ := h
  refine ⟨done, rest ++ [reply.sent], ?_, hdone, ?_⟩
  · unfold Line.push
    rw [List.map_append, hsent, List.append_assoc]
    rfl
  · have hpush := hstream.push reply.wire
    rwa [List.append_assoc] at hpush

theorem arrive (h : line.Ordered) (count : ℕ) :
    Line.Ordered { line with
      channel := { line.channel with cache := line.channel.cache ++ [line.flight.take count] }
      flight := line.flight.drop count } := by
  obtain ⟨done, rest, hsent, hdone, hstream⟩ := h
  refine ⟨done, rest, hsent, hdone, ?_⟩
  simpa [Xpc.Channel.bytes, List.append_assoc] using hstream

/-- A call takes the next value that there is, or waits with the bytes of its channel kept. -/
theorem recv (h : line.Ordered) :
    ∃ result, Xpc.recvFromChannel checks line.channel [] = .ok result ∧
      ((∃ value channel, result = .value value channel [] ∧ ∀ id,
          Line.Ordered { line with channel := channel, taken := line.taken ++ [(id, value)] }) ∨
        ∃ channel, result = .pending channel ∧ Line.Ordered { line with channel := channel }) := by
  obtain ⟨done, rest, hsent, hdone, hstream⟩ := h
  obtain ⟨result, hresult, hsplits⟩ :=
    Xpc.recvLoop_splits _ rest line.channel [] le_rfl hstream
  refine ⟨result, hresult, ?_⟩
  rcases Xpc.recvLoop_without_wakes hresult with ⟨value, channel, rfl⟩ | ⟨channel, rfl⟩
  · obtain ⟨more, rest, rfl, hmore, hrest, -⟩ := hsplits
    refine .inl ⟨value, channel, rfl, fun id => ⟨done ++ more, rest, ?_, ?_, hrest⟩⟩
    · rw [hsent, List.append_assoc]
    · rw [List.filterMap_append, hdone, hmore, List.map_append]
      rfl
  · obtain ⟨more, rest, rfl, hmore, hrest, -, hcache⟩ := hsplits
    refine .inr ⟨channel, rfl, done ++ more, rest, ?_, ?_, ?_⟩
    · rw [hsent, List.append_assoc]
    · rw [List.filterMap_append, hdone, hmore, List.append_nil]
    · simpa [Xpc.Channel.bytes, hcache] using hrest

end Line.Ordered

namespace Line.Owned

theorem unowned {owner : Option ℕ} (h : line.Owned owner) : line.Owned none :=
  ⟨h.own, fun _ hid => (nomatch hid), fun _ hid => (nomatch hid)⟩

/-- A channel with nothing left can be given to any call. -/
theorem of_clear {owner : Option ℕ} (h : line.Owned owner) (hclear : line.Clear) (id : ℕ) :
    line.Owned (some id) := by
  obtain ⟨hpending, hlength⟩ := hclear
  refine ⟨h.own, fun _ _ answer hanswer => ?_, fun _ _ request hrequest => ?_⟩
  · rw [hlength, List.drop_length] at hanswer
    cases hanswer
  · rw [hpending] at hrequest
    cases hrequest

theorem fewer {owner : Option ℕ} {pending : List Request} (h : line.Owned owner)
    (hpending : pending ⊆ line.pending) : Line.Owned { line with pending := pending } owner :=
  ⟨h.own, h.left, fun id hid request hrequest => h.pending id hid request (hpending hrequest)⟩

theorem request {id : ℕ} (h : line.Owned (some id)) (object : XPCObject) :
    Line.Owned { line with pending := line.pending ++ [⟨id, object⟩] } (some id) := by
  refine ⟨h.own, h.left, fun owner howner request hrequest => ?_⟩
  rcases List.mem_append.mp hrequest with hrequest | hrequest
  · exact h.pending owner howner request hrequest
  · cases howner
    rw [List.mem_singleton.mp hrequest]

/-- What the device sends more answers the call that has the channel, or delivers nothing. -/
theorem push {owner : Option ℕ} (h : line.Owned owner) (origin : ℕ) (reply : Reply checks)
    (horigin : ∀ value, delivered reply.sent = some value → ∀ id ∈ owner, origin = id) :
    (line.push origin reply).Owned owner := by
  refine ⟨?_, fun id hid answer hanswer => ?_, h.pending⟩
  · rw [line.answers_push]
    exact h.own.trans (List.prefix_append _ _)
  · rw [line.answers_push] at hanswer
    have hdrop : answer ∈ line.answers.drop line.taken.length ++
        ((delivered reply.sent).map (origin, ·)).toList := by
      rw [← List.drop_append_of_le_length h.own.length_le]
      exact hanswer
    rcases List.mem_append.mp hdrop with hanswer | hanswer
    · exact h.left id hid answer hanswer
    · cases hvalue : delivered reply.sent with
      | none =>
        rw [hvalue] at hanswer
        cases hanswer
      | some value =>
        rw [hvalue] at hanswer
        rw [List.mem_singleton.mp hanswer]
        exact horigin value hvalue id hid

/-- The next value is one for the call that has the channel. -/
theorem take {id : ℕ} {value : PlistValue} {channel : Xpc.Channel} (h : line.Owned (some id))
    (hordered : Line.Ordered
      { line with channel := channel, taken := line.taken ++ [(id, value)] }) :
    Line.Owned { line with channel := channel, taken := line.taken ++ [(id, value)] } (some id) := by
  have hvalues := hordered.taken_of_wire
  obtain ⟨rest, hrest⟩ := h.own
  have hanswers : line.answers.drop line.taken.length = rest := by
    rw [← hrest, List.drop_left]
  have hprefix : [value] <+: rest.map Prod.snd := by
    change (line.taken ++ [(id, value)]).map Prod.snd <+: line.answers.map Prod.snd at hvalues
    rw [← hrest, List.map_append, List.map_append] at hvalues
    exact (List.prefix_append_right_inj _).mp hvalues
  cases rest with
  | nil => cases List.prefix_nil.mp hprefix
  | cons answer rest =>
    have hid : answer.1 = id := h.left id rfl answer (by rw [hanswers]; exact .head _)
    obtain ⟨hvalue, -⟩ := List.cons_prefix_cons.mp hprefix
    obtain rfl : answer = (id, value) := Prod.ext hid hvalue.symm
    have hanswers' : line.answers = line.taken ++ [(id, value)] ++ rest := by
      rw [← hrest, List.append_assoc]
      rfl
    refine ⟨⟨rest, hanswers'.symm⟩, fun owner howner other hother => ?_, h.pending⟩
    apply h.left owner howner other
    rw [hanswers]
    have hdrop : line.answers.drop (line.taken ++ [(id, value)]).length = rest := by
      rw [hanswers', List.drop_left]
    exact .tail _ (hdrop ▸ hother)

end Line.Owned

end Lines

namespace State

variable {debug : PlistValue → String} {s s' : State checks}

/-- The call that has a channel. -/
def owner (s : State checks) (channel : AnyChannel) : Option ℕ :=
  s.running.bind fun r => if r.call.channel = channel then some r.id else none

/-- What a step does, where it can be taken. -/
inductive Move (debug : PlistValue → String) (s : State checks) : Tick checks → State checks → Prop
  | start (call : Call) (drawn : Drawn) (hrunning : s.running = none) :
    Move debug s (.start call drawn)
      { s with calls := s.calls + 1, running := some { id := s.calls, call, drawn } }
  | sent (r : Running) (received : Bool) (hrunning : s.running = some r) :
    Move debug s (.sent received)
      { s.request r received with running := some { r with sent := true } }
  /-- The call ends without a value. -/
  | leave (r : Running) (received : Bool) (tick : Tick checks) (results : List Result)
    (hrunning : s.running = some r)
    (hresults : ∀ result ∈ results, ∃ error, result = .failed error) (htick : StartsClear s tick) :
    Move debug s tick ((s.request r received).settle r results)
  | push (channel : AnyChannel) (origin : ℕ) (reply : Reply checks) (pending : List Request)
    (tick : Tick checks) (hpending : pending ⊆ (s.lines channel).pending)
    (horigin : ∀ value, delivered reply.sent = some value →
      ∃ request ∈ (s.lines channel).pending, request.id = origin) (htick : StartsClear s tick) :
    Move debug s tick
      (s.set channel { (s.lines channel).push origin reply with pending := pending })
  | arrive (channel : AnyChannel) (count : ℕ) :
    Move debug s (.arrive channel count)
      (s.set channel
        { s.lines channel with
          channel := { (s.lines channel).channel with
            cache := (s.lines channel).channel.cache ++ [(s.lines channel).flight.take count] }
          flight := (s.lines channel).flight.drop count })
  | receive (r : Running) (next : State checks) (hrunning : s.running = some r)
    (hreceive : s.receive debug r = some next) : Move debug s .receive next
  | yield (r : Running) (element : PlistValue) (rest : List PlistValue)
    (hrunning : s.running = some r) (hbatch : r.batch = element :: rest) :
    Move debug s .yield
      { s with
        running := some { r with batch := rest }
        results := s.results ++ [(r.id, .yielded element)] }

theorem step_move {tick : Tick checks} (h : s.step debug tick = some s') : Move debug s tick s' := by
  cases tick with
  | start call drawn =>
    cases hrunning : s.running with
    | some r => simp [step, hrunning] at h
    | none =>
      simp only [step, hrunning, Option.some.injEq] at h
      subst h
      exact .start call drawn hrunning
  | sent received =>
    cases hrunning : s.running with
    | none => simp [step, hrunning] at h
    | some r =>
      simp only [step, hrunning, Option.ite_none_left_eq_some, Option.some.injEq] at h
      obtain ⟨-, rfl⟩ := h
      exact .sent r received hrunning
  | drop received =>
    obtain ⟨r, hrunning, rfl⟩ := Option.map_eq_some_iff.mp h
    exact .leave r received _ [] hrunning (fun _ hresult => (nomatch hresult)) trivial
  | disconnect received =>
    obtain ⟨r, hrunning, rfl⟩ := Option.map_eq_some_iff.mp h
    refine .leave r received _ [.failed .disconnected] hrunning ?_ trivial
    intro result hresult
    exact ⟨_, List.mem_singleton.mp hresult⟩
  | answer channel reply last =>
    cases hpending : (s.lines channel).pending with
    | nil => simp [step, hpending] at h
    | cons request rest =>
      simp only [step, hpending, Option.some.injEq] at h
      subst h
      refine .push channel request.id reply _ _ ?_ (fun _ _ => ⟨request, ?_, rfl⟩) trivial
      · rw [hpending]
        cases last with
        | false => exact List.Subset.refl _
        | true => exact List.subset_cons_self _ _
      · rw [hpending]
        exact .head _
  | keepAlive channel message =>
    simp only [step, Option.ite_none_right_eq_some, Option.some.injEq] at h
    obtain ⟨hnone, rfl⟩ := h
    refine .push channel 0 message _ _ (List.Subset.refl _) (fun value hvalue => ?_) trivial
    rw [hvalue] at hnone
    cases hnone
  | arrive channel count =>
    simp only [step, Option.ite_none_right_eq_some, Option.some.injEq] at h
    obtain ⟨-, rfl⟩ := h
    exact .arrive channel count
  | receive =>
    cases hrunning : s.running with
    | none => simp [step, hrunning] at h
    | some r =>
      simp only [step, hrunning, Option.ite_none_right_eq_some] at h
      exact .receive r s' hrunning h.2
  | yield =>
    cases hrunning : s.running with
    | none => simp [step, hrunning] at h
    | some r =>
      cases hbatch : r.batch with
      | nil => simp [step, hrunning, hbatch] at h
      | cons element rest =>
        simp only [step, hrunning, hbatch, Option.some.injEq] at h
        subst h
        exact .yield r element rest hrunning hbatch

section Taking

theorem forall_set {P : AnyChannel → Line checks → Prop} {channel : AnyChannel} {line : Line checks}
    (h : ∀ other, P other (s.lines other)) (hline : P channel line) (other : AnyChannel) :
    P other ((s.set channel line).lines other) := by
  change P other (Function.update s.lines channel line other)
  by_cases hother : other = channel
  · rw [hother, Function.update_self]
    exact hline
  · rw [Function.update_of_ne hother]
    exact h other

theorem answered_lines (r : Running) (value : PlistValue) :
    (s.answered debug r value).lines = s.lines := by
  unfold answered
  cases r.call with
  | inner feature input action => cases invokeOutput debug value <;> rfl
  | streaming feature input =>
    rcases parseStreamResponse debug value with error | response
    · rfl
    · cases response <;> rfl

/-- After an answer the call is over, or it has a batch of elements. -/
theorem answered_running (r : Running) (value : PlistValue) :
    (s.answered debug r value).running = none ∨
      ∃ batch, (s.answered debug r value).running = some { r with batch := batch } := by
  unfold answered
  cases r.call with
  | inner feature input action => cases invokeOutput debug value <;> exact .inl rfl
  | streaming feature input =>
    rcases parseStreamResponse debug value with error | response
    · exact .inl rfl
    · cases response with
      | elements batch => exact .inr ⟨batch, rfl⟩
      | finished => exact .inl rfl

/-- What `receive` does on a channel whose messages can be read. -/
theorem receive_cases {r : Running} (hline : (s.lines r.call.channel).Ordered)
    (h : s.receive debug r = some s') :
    (∃ value channel, s' = s.take debug r value channel ∧ Line.Ordered
        { s.lines r.call.channel with
          channel := channel
          taken := (s.lines r.call.channel).taken ++ [(r.id, value)] }) ∨
      ∃ channel, s' = s.set r.call.channel { s.lines r.call.channel with channel := channel } ∧
        Line.Ordered { s.lines r.call.channel with channel := channel } := by
  obtain ⟨result, hresult, ⟨value, channel, rfl, htaken⟩ | ⟨channel, rfl, hkept⟩⟩ := hline.recv
  · simp only [receive, hresult, Option.some.injEq] at h
    exact .inl ⟨value, channel, h.symm, htaken r.id⟩
  · simp only [receive, hresult, Option.some.injEq] at h
    exact .inr ⟨channel, h.symm, hkept⟩

end Taking

section Order

theorem ordered_request (h : ∀ channel, (s.lines channel).Ordered) (r : Running) (received : Bool) :
    ∀ channel, ((s.request r received).lines channel).Ordered := by
  unfold request
  split
  · exact forall_set h (h r.call.channel)
  · exact h

theorem ordered_move {tick : Tick checks} (h : ∀ channel, (s.lines channel).Ordered)
    (hmove : Move debug s tick s') : ∀ channel, (s'.lines channel).Ordered := by
  cases hmove with
  | start => exact h
  | sent r received => exact ordered_request h r received
  | leave r received => exact ordered_request h r received
  | push channel origin reply => exact forall_set h ((h channel).push origin reply)
  | arrive channel count => exact forall_set h ((h channel).arrive count)
  | receive r _ hrunning hreceive =>
    obtain ⟨value, channel, rfl, htaken⟩ | ⟨channel, rfl, hkept⟩ :=
      receive_cases (h r.call.channel) hreceive
    · unfold take
      rw [answered_lines]
      exact forall_set h htaken
    · exact forall_set h hkept
  | yield => exact h

end Order

section Sources

/-- The results so far, and those that are to come of the batch. -/
def values (s : State checks) : List (ℕ × Result) :=
  s.results ++ s.running.elim [] fun r => r.batch.map fun element => (r.id, .yielded element)

def taken (s : State checks) (channel : AnyChannel) : List (ℕ × PlistValue) :=
  (s.lines channel).taken

def answers (s : State checks) (channel : AnyChannel) : List (ℕ × PlistValue) :=
  (s.lines channel).answers

theorem taken_set {channel : AnyChannel} {line : Line checks}
    (hline : s.taken channel ⊆ line.taken) (other : AnyChannel) :
    s.taken other ⊆ (s.set channel line).taken other :=
  forall_set (P := fun other line => s.taken other ⊆ line.taken)
    (fun _ => List.Subset.refl _) hline other

theorem taken_request (r : Running) (received : Bool) (channel : AnyChannel) :
    s.taken channel ⊆ (s.request r received).taken channel := by
  unfold request
  split
  · apply taken_set
    exact List.Subset.refl _
  · exact List.Subset.refl _

/-- A step takes at most one value more. -/
theorem taken_move {tick : Tick checks} (h : ∀ channel, (s.lines channel).Ordered)
    (hmove : Move debug s tick s') (channel : AnyChannel) :
    s.taken channel ⊆ s'.taken channel := by
  cases hmove with
  | start => exact List.Subset.refl _
  | sent r received => exact taken_request r received channel
  | leave r received => exact taken_request r received channel
  | push =>
    apply taken_set
    exact List.Subset.refl _
  | arrive =>
    apply taken_set
    exact List.Subset.refl _
  | receive r _ hrunning hreceive =>
    obtain ⟨value, after, rfl, -⟩ | ⟨after, rfl, -⟩ :=
      receive_cases (h r.call.channel) hreceive
    · unfold take
      unfold taken
      rw [answered_lines]
      exact taken_set (List.subset_append_left _ _) channel
    · apply taken_set
      exact List.Subset.refl _
  | yield => exact List.Subset.refl _

/-- What a call makes of an answer. -/
theorem answered_values {r : Running} {value : PlistValue} {entry : ℕ × Result}
    {messages : AnyChannel → List (ℕ × PlistValue)}
    (hvalue : (r.id, value) ∈ messages r.call.channel)
    (hentry : entry ∈ (s.answered debug r value).values) :
    entry ∈ s.results ∨ entry.2.From debug messages entry.1 := by
  unfold answered at hentry
  cases hcall : r.call with
  | inner feature input action =>
    rw [hcall] at hvalue
    cases houtput : invokeOutput debug value with
    | ok output =>
      simp only [hcall, houtput, values, settle, Option.elim_none, List.append_nil] at hentry
      rcases List.mem_append.mp hentry with hentry | hentry
      · exact .inl hentry
      · rw [List.mem_singleton.mp hentry]
        exact .inr ⟨value, hvalue, houtput⟩
    | error error =>
      simp only [hcall, houtput, values, settle, Option.elim_none, List.append_nil] at hentry
      rcases List.mem_append.mp hentry with hentry | hentry
      · exact .inl hentry
      · rw [List.mem_singleton.mp hentry]
        exact .inr trivial
  | streaming feature input =>
    rw [hcall] at hvalue
    cases hresponse : parseStreamResponse debug value with
    | error error =>
      simp only [hcall, hresponse, values, settle, Option.elim_none, List.append_nil] at hentry
      rcases List.mem_append.mp hentry with hentry | hentry
      · exact .inl hentry
      · rw [List.mem_singleton.mp hentry]
        exact .inr trivial
    | ok response =>
      cases response with
      | finished =>
        simp only [hcall, hresponse, values, settle, Option.elim_none, List.append_nil] at hentry
        rcases List.mem_append.mp hentry with hentry | hentry
        · exact .inl hentry
        · rw [List.mem_singleton.mp hentry]
          exact .inr trivial
      | elements batch =>
        simp only [hcall, hresponse, values, Option.elim_some] at hentry
        rcases List.mem_append.mp hentry with hentry | hentry
        · exact .inl hentry
        · obtain ⟨element, helement, rfl⟩ := List.mem_map.mp hentry
          exact .inr ⟨value, batch, hvalue, hresponse, helement⟩

/-- Every new value is made of a message that its call took. -/
theorem values_move {tick : Tick checks} (h : ∀ channel, (s.lines channel).Ordered)
    (hmove : Move debug s tick s') {entry : ℕ × Result} (hentry : entry ∈ s'.values) :
    entry ∈ s.values ∨ entry.2.From debug s'.taken entry.1 := by
  cases hmove with
  | start call drawn hrunning =>
    left
    simpa [values, hrunning] using hentry
  | sent r received hrunning =>
    left
    have hresults : (s.request r received).results = s.results := by
      unfold request
      split <;> rfl
    simpa only [values, hrunning, hresults, Option.elim_some] using hentry
  | leave r received tick results hrunning hresults =>
    have hsame : (s.request r received).results = s.results := by
      unfold request
      split <;> rfl
    simp only [values, settle, hsame, Option.elim_none, List.append_nil] at hentry
    rcases List.mem_append.mp hentry with hentry | hentry
    · exact .inl (List.mem_append_left _ hentry)
    · obtain ⟨result, hresult, rfl⟩ := List.mem_map.mp hentry
      obtain ⟨error, rfl⟩ := hresults result hresult
      exact .inr trivial
  | push => exact .inl hentry
  | arrive => exact .inl hentry
  | receive r _ hrunning hreceive =>
    obtain ⟨value, channel, rfl, -⟩ | ⟨channel, rfl, -⟩ :=
      receive_cases (h r.call.channel) hreceive
    · have htaken : (r.id, value) ∈ (s.take debug r value channel).taken r.call.channel := by
        unfold taken take
        rw [answered_lines]
        change (r.id, value) ∈ (Function.update s.lines r.call.channel _ r.call.channel).taken
        rw [Function.update_self]
        exact List.mem_append_right _ (.head _)
      rcases answered_values htaken hentry with hold | hnew
      · exact .inl (List.mem_append_left _ hold)
      · exact .inr hnew
    · exact .inl hentry
  | yield r element rest hrunning hbatch =>
    left
    simpa [values, hrunning, hbatch] using hentry

end Sources

section Ownership

theorem owner_of_running {r : Running} (hrunning : s.running = some r) :
    s.owner r.call.channel = some r.id := by
  rw [owner, hrunning, Option.bind_some, if_pos rfl]

theorem owned_request {r : Running} (hrunning : s.running = some r) (received : Bool)
    (h : ∀ channel, (s.lines channel).Owned (s.owner channel)) (channel : AnyChannel) :
    ((s.request r received).lines channel).Owned (s.owner channel) := by
  unfold request
  split
  · have hline := h r.call.channel
    rw [owner_of_running hrunning] at hline
    apply forall_set (P := fun other line => line.Owned (s.owner other)) h
    rw [owner_of_running hrunning]
    exact hline.request _
  · exact h channel

/-- A call that has its answer keeps the channel, or gives it up. -/
theorem owned_answered {r : Running} {value : PlistValue} {line : Line checks}
    {channel : AnyChannel} (hrunning : s.running = some r) (h : line.Owned (s.owner channel)) :
    line.Owned ((s.answered debug r value).owner channel) := by
  obtain hnone | ⟨batch, hbatch⟩ : (s.answered debug r value).running = none ∨
      ∃ batch, (s.answered debug r value).running = some { r with batch := batch } :=
    answered_running r value
  · rw [owner, hnone]
    exact h.unowned
  · rw [owner, hrunning] at h
    rw [owner, hbatch]
    exact h

/-- What is taken and what is left stay with the call that has the channel. -/
theorem owned_move {tick : Tick checks} (hordered : ∀ channel, (s.lines channel).Ordered)
    (h : ∀ channel, (s.lines channel).Owned (s.owner channel)) (hclear : StartsClear s tick)
    (hmove : Move debug s tick s') (channel : AnyChannel) :
    (s'.lines channel).Owned (s'.owner channel) := by
  cases hmove with
  | start call drawn hrunning =>
    unfold owner
    rw [Option.bind_some]
    split
    · rename_i hchannel
      subst hchannel
      exact (h call.channel).of_clear hclear _
    · exact (h channel).unowned
  | sent r received hrunning =>
    have howned := owned_request hrunning received h channel
    unfold owner at howned ⊢
    rw [hrunning] at howned
    exact howned
  | leave r received _ results hrunning =>
    exact (owned_request hrunning received h channel).unowned
  | push other origin reply pending _ hpending horigin =>
    apply forall_set (P := fun other line => line.Owned (s.owner other)) h
    have hpush : ((s.lines other).push origin reply).Owned (s.owner other) := by
      refine (h other).push origin reply fun value hvalue id hid => ?_
      obtain ⟨request, hrequest, rfl⟩ := horigin value hvalue
      exact (h other).pending id hid request hrequest
    exact hpush.fewer hpending
  | arrive other count =>
    apply forall_set (P := fun other line => line.Owned (s.owner other)) h
    exact ⟨(h other).own, (h other).left, (h other).pending⟩
  | receive r _ hrunning hreceive =>
    have hline := h r.call.channel
    rw [owner_of_running hrunning] at hline
    obtain ⟨value, after, rfl, htaken⟩ | ⟨after, rfl, -⟩ :=
      receive_cases (hordered r.call.channel) hreceive
    · have hset := forall_set (P := fun other line => line.Owned (s.owner other)) h
        (owner_of_running hrunning ▸ hline.take htaken) channel
      unfold take
      rw [answered_lines]
      exact owned_answered hrunning hset
    · apply forall_set (P := fun other line => line.Owned (s.owner other)) h
      rw [owner_of_running hrunning]
      exact ⟨hline.own, hline.left, hline.pending⟩
  | yield r element rest hrunning =>
    have howned := h channel
    unfold owner at howned ⊢
    rw [hrunning] at howned
    exact howned

end Ownership

section Runs

variable {ticks : List (Tick checks)}

theorem ordered_run (hrun : run (step debug) {} ticks = some s) (channel : AnyChannel) :
    (s.lines channel).Ordered :=
  run_invariant (I := fun s => ∀ channel, (s.lines channel).Ordered)
    (fun _ _ _ h hstep => ordered_move h (step_move hstep))
    (fun _ => ⟨[], [], rfl, rfl, .nil⟩) hrun channel

/-- Every value of a run is made of a message that its call took. -/
theorem values_run (hrun : run (step debug) {} ticks = some s) :
    ∀ entry ∈ s.values, entry.2.From debug s.taken entry.1 := by
  refine (run_invariant (I := fun s : State checks => (∀ channel, (s.lines channel).Ordered) ∧
    ∀ entry ∈ s.values, entry.2.From debug s.taken entry.1) ?_ ⟨?_, ?_⟩ hrun).2
  · rintro s tick next ⟨hordered, hvalues⟩ hstep
    have hmove := step_move hstep
    refine ⟨ordered_move hordered hmove, fun entry hentry => ?_⟩
    rcases values_move hordered hmove hentry with hold | hnew
    · exact (hvalues entry hold).mono (taken_move hordered hmove)
    · exact hnew
  · exact fun _ => ⟨[], [], rfl, rfl, .nil⟩
  · intro entry hentry
    cases hentry

/-- With clear starts, calls take nothing but what answers them. -/
theorem owned_run (hrun : run (step debug) {} ticks = some s)
    (hclear : Along (step debug) StartsClear {} ticks) (channel : AnyChannel) :
    (s.lines channel).Owned (s.owner channel) := by
  refine (run_along (I := fun s : State checks => (∀ channel, (s.lines channel).Ordered) ∧
    ∀ channel, (s.lines channel).Owned (s.owner channel)) ?_ ⟨?_, ?_⟩ hclear hrun).2 channel
  · rintro s tick next ⟨hordered, howned⟩ hclear hstep
    have hmove := step_move hstep
    exact ⟨ordered_move hordered hmove, owned_move hordered howned hclear hmove⟩
  · exact fun _ => ⟨[], [], rfl, rfl, .nil⟩
  · exact fun _ => ⟨List.nil_prefix, fun _ hid => (nomatch hid), fun _ hid => (nomatch hid)⟩

end Runs

/-- Every value is of an answer to the call that gives it, and no call takes an answer to another. -/
structure AnswersBelong (debug : PlistValue → String) (s : State checks) : Prop where
  results : ∀ id result, (id, result) ∈ s.results → result.From debug s.answers id
  taken : ∀ channel, s.taken channel ⊆ s.answers channel

end State

/-- A value is made of a message that its call took itself, and messages are taken in the
order in which they were sent. Where nothing is outstanding on the channel of a call that
starts, its values are of the answers to it. -/
theorem calls_own_answers (debug : PlistValue → String) (ticks : List (Tick checks))
    (s : State checks) (hrun : run (State.step debug) {} ticks = some s) :
    (∀ id result, (id, result) ∈ s.results → result.From debug s.taken id) ∧
      (∀ channel, (s.taken channel).map Prod.snd <+: (s.answers channel).map Prod.snd) ∧
      (Along (State.step debug) StartsClear {} ticks → s.AnswersBelong debug) := by
  have hvalues : ∀ id result, (id, result) ∈ s.results → result.From debug s.taken id :=
    fun id result hresult => State.values_run hrun (id, result) (List.mem_append_left _ hresult)
  refine ⟨hvalues, fun channel => (State.ordered_run hrun channel).taken_of_wire, fun hclear => ?_⟩
  have htaken : ∀ channel, s.taken channel ⊆ s.answers channel :=
    fun channel => (State.owned_run hrun hclear channel).own.subset
  exact ⟨fun id result hresult => (hvalues id result hresult).mono htaken, htaken⟩

end Model

section Examples

/-- `CoreDevice.output` and a boolean. -/
def outputBytes (value : Bool) : List UInt8 :=
  [146, 11, 176, 41, 1, 0, 0, 0, 48, 0, 0, 0, 0, 0, 0, 0, 7, 0, 0, 0, 0, 0, 0, 0, 66, 55, 19, 66, 5,
    0, 0, 0, 0, 240, 0, 0, 32, 0, 0, 0, 1, 0, 0, 0, 67, 111, 114, 101, 68, 101, 118, 105, 99, 101,
    46, 111, 117, 116, 112, 117, 116, 0, 0, 0, 0, 32, 0, 0, if value then 1 else 0, 0, 0, 0]

def outputReply (value : Bool) : Reply true where
  sent := (⟨1, some (.dictionary [("CoreDevice.output", .bool value)]), none⟩, 7)
  bytes := outputBytes value
  wire := by
    refine ⟨by cases value <;> rfl, fun object hobject => ?_, by cases value <;> decide⟩
    cases hobject
    refine .dictionary _ (by simp) (by simp) (fun entry hentry => ?_) (fun entry hentry => ?_)
      fun entry hentry => ?_
    · obtain rfl := List.mem_singleton.mp hentry
      cases value <;> decide
    · obtain rfl := List.mem_singleton.mp hentry
      cases value <;> decide
    · rw [List.mem_singleton.mp hentry]
      exact .bool value

def nilUuid : Uuid := ⟨List.replicate 16 0, List.length_replicate⟩

def drawn : Drawn := ⟨nilUuid, nilUuid, nilUuid⟩

def started : Tick true := .start (.invoke "feature" none) drawn

theorem outputBytes_length (value : Bool) : (outputBytes value).length = 72 := rfl

theorem outputBytes_take (value : Bool) : (outputBytes value).take 72 = outputBytes value := rfl

theorem outputBytes_drop (value : Bool) : (outputBytes value).drop 72 = [] := rfl

theorem recv_output (value : Bool) :
    Xpc.recvFromChannel true ⟨[], [outputBytes value]⟩ [] =
      .ok (.value (.dictionary [("CoreDevice.output", .boolean value)]) {} []) := by
  cases value <;> rfl

theorem invokeOutput_output (debug : PlistValue → String) (value : Bool) :
    invokeOutput debug (.dictionary [("CoreDevice.output", .boolean value)]) =
      .ok (.boolean value) := by
  rw [invokeOutput, asDictionary]
  dsimp only
  rw [List.lookup_cons_self]

/-- One call after the other. -/
def carriedThrough : List (Tick true) :=
  [started, .sent true, .answer .reply (outputReply true) true, .arrive .reply 72, .receive,
    started, .sent true, .answer .reply (outputReply false) true, .arrive .reply 72, .receive]

/-- The first call is dropped, and the answer to it comes all the same. -/
def dropped : List (Tick true) :=
  [started, .sent true, .drop false, .answer .reply (outputReply true) true, started, .sent true,
    .arrive .reply 72, .receive]

theorem calls_own_answers_carriedThrough :
    ∃ s, run (State.step fun _ => "") {} carriedThrough = some s ∧
      s.results = [(0, .returned (.boolean true)), (1, .returned (.boolean false))] ∧
      s.AnswersBelong fun _ => "" := by
  have hrun : ∃ s, run (State.step fun _ => "") {} carriedThrough = some s ∧
      s.results = [(0, .returned (.boolean true)), (1, .returned (.boolean false))] := by
    simp [carriedThrough, started, run, State.step, State.request, State.set, State.settle,
      Call.invoke, Call.channel, Line.push, outputReply, outputBytes_length, outputBytes_take,
      outputBytes_drop, State.receive, recv_output, State.take, State.answered, invokeOutput_output]
  obtain ⟨s, hs, hresults⟩ := hrun
  refine ⟨s, hs, hresults, (calls_own_answers _ carriedThrough s hs).2.2 ?_⟩
  simp [carriedThrough, started, Along, StartsClear, Line.Clear, Line.answers, delivered,
    XPCObject.isEmptyDictionary, State.step, State.request, State.set, State.settle, Call.invoke,
    Call.channel, Line.push, outputReply, outputBytes_length, outputBytes_take, outputBytes_drop,
    State.receive, recv_output, State.take, State.answered, invokeOutput_output]

theorem leftover_taken :
    ¬ ∀ (debug : PlistValue → String) (ticks : List (Tick true)) s,
      run (State.step debug) {} ticks = some s → s.AnswersBelong debug := by
  intro h
  have hrun : ∃ s, run (State.step fun _ => "") {} dropped = some s ∧
      s.results = [(1, .returned (.boolean true))] ∧
      (s.answers .reply).map Prod.fst = [0] := by
    simp [dropped, started, run, State.step, State.request, State.set, State.settle, Call.invoke,
      Call.channel, Line.push, outputReply, outputBytes_length, outputBytes_take,
      outputBytes_drop, State.receive, recv_output, State.take, State.answered, invokeOutput_output,
      State.answers, Line.answers, delivered, XPCObject.isEmptyDictionary]
  obtain ⟨s, hs, hresults, hanswers⟩ := hrun
  obtain ⟨reply, hreply, -⟩ := (h _ dropped s hs).results 1 (.returned (.boolean true))
    (by rw [hresults]; exact .head _)
  have hid := List.mem_map_of_mem (f := Prod.fst) hreply
  rw [hanswers] at hid
  cases List.mem_singleton.mp hid

end Examples

end XitForge.CoreDevice.Invocations
