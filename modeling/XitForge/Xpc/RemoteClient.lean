import XitForge.Http2.Client
import XitForge.Xpc.FileChunks
import XitForge.Xpc.RecvAny

/-!
`RemoteXpcClient` over its HTTP/2 connection. What a DATA payload brings is put into the
buffer of its channel as soon as the read returns it; a message is taken out of the buffer
when it is whole. Every await is one of the HTTP/2 client, and may be where a call is
dropped.
-/
namespace XitForge.Xpc

open Http2 (H2)
open Program RustEval

/-- `ROOT_CHANNEL`. -/
def rootChannel : ℕ := 1

/-- `REPLY_CHANNEL`. -/
def replyChannel : ℕ := 3

/-- `FIRST_OUTBOUND_FILE_STREAM`. -/
def firstOutboundFileStream : ℕ := 5

inductive RemoteError where
  | http2 (error : Http2.Error)
  | idevice (error : IdeviceError)
  | panic
  deriving DecidableEq, Repr

/-- A `RemoteXpcClient`. The values that it has returned, each with its channel, are kept
beside it to judge a run by. -/
structure RemoteXpcClient where
  h2Client : Http2.World
  rootId : UInt64
  /-- The field `partial`. -/
  buffers : ℕ → List UInt8
  nextOutboundFileStream : ℕ
  returned : List (ℕ × PlistValue)

abbrev Remote := Prog RemoteXpcClient RemoteError

namespace RemoteXpcClient

/-- `RemoteXpcClient::new`, on a socket with these answers in store. -/
def new (answers : List Http2.Answer) : RemoteXpcClient where
  h2Client := .new answers
  rootId := 1
  buffers := fun _ => []
  nextOutboundFileStream := firstOutboundFileStream
  returned := []

def setBuffer (client : RemoteXpcClient) (channel : ℕ) (bytes : List UInt8) : RemoteXpcClient :=
  { client with buffers := Function.update client.buffers channel bytes }

/-- `entry(channel).or_default().extend(chunk)`. -/
def extend (client : RemoteXpcClient) (channel : ℕ) (chunk : List UInt8) : RemoteXpcClient :=
  client.setBuffer channel (client.buffers channel ++ chunk)

end RemoteXpcClient

/-- A call of the HTTP/2 client. -/
def onHttp2 {α : Type} (m : H2 α) : Remote α := fun client =>
  match m client.h2Client with
  | (.done value, w) => (.done value, { client with h2Client := w })
  | (.failed error, w) => (.failed (.http2 error), { client with h2Client := w })
  | (.stopped, w) => (.stopped, { client with h2Client := w })

def ofEval {α : Type} : Eval IdeviceError α → Remote α
  | .ok value => pure value
  | .err error => Prog.fail (.idevice error)
  | .panic => Prog.fail .panic

section Model

variable (checks : Bool)

/-- `take_buffered`. -/
def takeBufferedOn (channel : ℕ) : Remote (Option XPCMessage) := do
  let client ← Prog.get
  let (message, rest) ← ofEval (takeBuffered checks (client.buffers channel))
  Prog.modify (·.setBuffer channel rest)
  return message

/-- The value goes to the caller. -/
def giveBack (channel : ℕ) (value : PlistValue) : Remote PlistValue := do
  Prog.modify fun client => { client with returned := client.returned ++ [(channel, value)] }
  return value

/-- `recv_from_channel`. The run is cut off after some rounds. -/
def recvOn (rounds channel : ℕ) : ℕ → Remote PlistValue
  | 0 => Prog.stop
  | fuel + 1 => do
    match ← takeBufferedOn checks channel with
    | some message =>
      match message.deliver with
      | some value => giveBack channel value
      | none => recvOn rounds channel fuel
    | none =>
      let chunk ← onHttp2 (Http2.read rounds channel)
      Prog.modify (·.extend channel chunk)
      recvOn rounds channel fuel

/-- `recv`. -/
def recv (rounds : ℕ) : Remote PlistValue := recvOn checks rounds replyChannel rounds

def recvRoot (rounds : ℕ) : Remote PlistValue := recvOn checks rounds rootChannel rounds

/-- The channels of `recv_any`, one message of each at most. -/
def anyPass : List ℕ → Remote (Option PlistValue)
  | [] => return none
  | channel :: channels => do
    let message ← takeBufferedOn checks channel
    match message.bind XPCMessage.deliver with
    | some value =>
      let value ← giveBack channel value
      return some value
    | none => anyPass channels

/-- `recv_any`. -/
def recvFromAny (rounds : ℕ) : ℕ → Remote PlistValue
  | 0 => Prog.stop
  | fuel + 1 => do
    match ← anyPass checks [rootChannel, replyChannel] with
    | some value => return value
    | none =>
      let (channel, chunk) ← onHttp2 (Http2.readAny rounds [rootChannel, replyChannel])
      Prog.modify (·.extend channel chunk)
      recvFromAny rounds fuel

/-- `send_root` and `send_reply`. -/
def sendOn (rounds channel : ℕ) (message : XPCMessage) : Remote Unit := do
  let client ← Prog.get
  let bytes ← ofEval (message.encode checks client.rootId)
  onHttp2 (Http2.send rounds bytes channel)

def sendRoot (rounds : ℕ) (message : XPCMessage) : Remote Unit :=
  sendOn checks rounds rootChannel message

def sendReply (rounds : ℕ) (message : XPCMessage) : Remote Unit :=
  sendOn checks rounds replyChannel message

/-- `XPCFlag::AlwaysSet`, an empty dictionary. -/
def emptyMessage : XPCMessage := ⟨0x00000001, some (.dictionary []), none⟩

/-- `InitHandshake` and `AlwaysSet`, without a body. -/
def initMessage : XPCMessage := ⟨0x00400001, none, none⟩

/-- `Custom(0x201)`, without a body. -/
def weirdMessage : XPCMessage := ⟨0x201, none, none⟩

def doHandshake (rounds : ℕ) : Remote Unit := do
  onHttp2 (Http2.setSettings [.maxConcurrentStreams 100, .initialWindowSize 1048576] 0)
  onHttp2 (Http2.windowUpdate 983041 0)
  onHttp2 (Http2.openStream rootChannel)
  sendRoot checks rounds emptyMessage
  onHttp2 (Http2.openStream replyChannel)
  sendReply checks rounds initMessage
  sendRoot checks rounds weirdMessage

/-- What `send_object` makes of an object: `DataFlag`, `AlwaysSet` and maybe `WantingReply`. -/
def objectMessage (object : XPCObject) (expectReply : Bool) (rootId : UInt64) : XPCMessage :=
  ⟨if expectReply then 0x00010101 else 0x00000101, some object, some rootId⟩

def sendObject (rounds : ℕ) (object : XPCObject) (expectReply : Bool) : Remote Unit := do
  let client ← Prog.get
  sendRoot checks rounds (objectMessage object expectReply client.rootId)

/-- The message of `send_device_handshake`. -/
def deviceHandshake (uuid : Uuid) : XPCObject :=
  .dictionary [
    ("MessageType", .string "Handshake"),
    ("MessagingProtocolVersion", .uint64 7),
    ("UUID", .uuid uuid),
    ("Properties", .dictionary [
      ("RemoteXPCVersionFlags", .uint64 0x0100000000000006),
      ("SensitivePropertiesVisible", .bool true)]),
    ("Services", .dictionary [])]

def sendDeviceHandshake (rounds : ℕ) (uuid : Uuid) : Remote Unit :=
  sendObject checks rounds (deviceHandshake uuid) false

def openFileStreamForResponse (rounds streamId : ℕ) : Remote Unit := do
  onHttp2 (Http2.openStream streamId)
  let bytes ← ofEval (XPCMessage.encode checks ⟨0x00200001, none, some 0⟩ 0)
  onHttp2 (Http2.send rounds bytes streamId)

/-- The chunks of a file up to its size, or as many as the consumer takes of them. -/
def fileChunksOn (rounds streamId totalSize : ℕ) : ℕ → ℕ → ℕ → Remote (List (List UInt8))
  | 0, _, _ => Prog.stop
  | fuel + 1, wanted, got =>
    if totalSize ≤ got ∨ wanted = 0 then return []
    else do
      let bytes ← onHttp2 (Http2.read rounds streamId)
      let (after, stripped) ← ofEval (stripXpcWrapperPrefix checks bytes)
      let data := if stripped then after else bytes
      if data.isEmpty then fileChunksOn rounds streamId totalSize fuel wanted got
      else do
        let got ← ofEval (add64 checks got data.length)
        let chunks ← fileChunksOn rounds streamId totalSize fuel (wanted - 1) got
        return data :: chunks

/-- `iter_file_chunks`; twice the index behind `fileIdx` is a sum here. -/
def iterChunks (rounds wanted totalSize fileIdx : ℕ) : Remote (List (List UInt8)) := do
  let next ← ofEval (Eval.add 32 checks fileIdx 1)
  let streamId ← ofEval (Eval.add 32 checks next next)
  openFileStreamForResponse checks rounds streamId
  fileChunksOn checks rounds streamId totalSize rounds wanted 0

def sendFileTransfer (rounds : ℕ) (transferId : UInt64) (data : List UInt8) : Remote Unit := do
  let client ← Prog.get
  let streamId := client.nextOutboundFileStream
  let next ← ofEval (Eval.add 32 checks streamId 2)
  Prog.modify fun client => { client with nextOutboundFileStream := next }
  onHttp2 (Http2.openStream streamId)
  let preamble ← ofEval (XPCMessage.encode checks ⟨0x00100001, none, some transferId⟩ transferId)
  onHttp2 (Http2.send rounds preamble streamId)
  onHttp2 (Http2.send rounds data streamId)
  onHttp2 (Http2.sendEndStream rounds [] streamId)

/-- A call of the client. -/
inductive RemoteCall where
  | doHandshake
  | sendDeviceHandshake (uuid : Uuid)
  | sendObject (object : XPCObject) (expectReply : Bool)
  | sendFileTransfer (transferId : UInt64) (data : List UInt8)
  | iterFileChunks (wanted totalSize fileIdx : ℕ)
  | recv
  | recvRoot
  | recvAny

/-- What is left of a call once its result is known to the caller. -/
def RemoteCall.run (rounds : ℕ) : RemoteCall → Remote Unit
  | .doHandshake => Xpc.doHandshake checks rounds
  | .sendDeviceHandshake uuid => Xpc.sendDeviceHandshake checks rounds uuid
  | .sendObject object expectReply => Xpc.sendObject checks rounds object expectReply
  | .sendFileTransfer transferId data => Xpc.sendFileTransfer checks rounds transferId data
  | .iterFileChunks wanted totalSize fileIdx => do
    let _ ← iterChunks checks rounds wanted totalSize fileIdx
  | .recv => do
    let _ ← Xpc.recv checks rounds
  | .recvRoot => do
    let _ ← Xpc.recvRoot checks rounds
  | .recvAny => do
    let _ ← recvFromAny checks rounds rounds

end Model

section Lifting

variable {α : Type} {m : H2 α}

/-- What a call of the HTTP/2 client does to its world, it does to the client. -/
theorem onHttp2_triple {P : RemoteXpcClient → Prop} {Q : α → RemoteXpcClient → Prop}
    {F : RemoteError → RemoteXpcClient → Prop} {C : RemoteXpcClient → Prop}
    (h : ∀ client, P client → Triple (fun w => w = client.h2Client) m
      (fun value w => Q value { client with h2Client := w })
      (fun error w => F (.http2 error) { client with h2Client := w })
      fun w => C { client with h2Client := w }) : Triple P (onHttp2 m) Q F C := by
  intro client hclient
  have hm := h client hclient client.h2Client rfl
  unfold onHttp2
  rcases heq : m client.h2Client with ⟨outcome, w⟩
  rw [heq] at hm
  cases outcome with
  | done value => exact hm
  | failed error => exact hm
  | stopped => exact hm

end Lifting

end XitForge.Xpc
