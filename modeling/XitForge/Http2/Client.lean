import Mathlib.Data.Finset.Basic
import Mathlib.Logic.Function.Basic
import XitForge.Program
import XitForge.Xpc.Format

/-!
`Http2Client`, which shares one connection between the streams of RemoteXPC. The
bytes of the socket are kept until a frame is whole; a frame is taken out of them
and acted on before the next await, so a future that is dropped loses no frame.
-/
namespace XitForge.Http2

open Program
open Xpc (fromLEBytes)

abbrev Bytes := List UInt8

inductive Error where
  | socket
  /-- `HTTP/2 connection closed by peer` -/
  | closedByPeer
  | windowUpdateBody
  | unknownHttpSetting (type : ℕ)
  /-- The text behind the first eight bytes, if they are there. -/
  | httpGoAway (text : Option Bytes)
  | unknownFrame (type : UInt8)
  | httpStreamReset
  /-- An `expect` fails. -/
  | panic
  deriving DecidableEq, Repr

inductive Setting where
  | maxConcurrentStreams (value : ℕ)
  | initialWindowSize (value : ℕ)
  deriving DecidableEq, Repr

structure SettingsFrame where
  settings : List Setting
  streamId : ℕ
  flags : UInt8
  deriving DecidableEq, Repr

structure WindowUpdateFrame where
  incrementSize : ℕ
  streamId : ℕ
  deriving DecidableEq, Repr

structure DataFrame where
  streamId : ℕ
  payload : Bytes
  endStream : Bool
  deriving DecidableEq, Repr

inductive Frame where
  | settings (frame : SettingsFrame)
  | windowUpdate (frame : WindowUpdateFrame)
  | headers (streamId : ℕ)
  | data (frame : DataFrame)
  | rstStream (streamId : ℕ)
  deriving DecidableEq, Repr

/-- `from_be_bytes`. -/
def fromBEBytes (bytes : Bytes) : ℕ := fromLEBytes bytes.reverse

/-- The entries of a SETTINGS frame. -/
def parseSettings : Bytes → Except Error (List Setting)
  | t0 :: t1 :: v0 :: v1 :: v2 :: v3 :: rest => do
    let value := fromBEBytes [v0, v1, v2, v3]
    let setting ←
      if fromBEBytes [t0, t1] = 0x03 then pure (.maxConcurrentStreams value)
      else if fromBEBytes [t0, t1] = 0x04 then pure (.initialWindowSize value)
      else .error (.unknownHttpSetting (fromBEBytes [t0, t1]))
    let settings ← parseSettings rest
    return setting :: settings
  | _ => return []

/-- The frame of a type, flags and a stream with this body. -/
def parseBody (type flags : UInt8) (streamId : ℕ) (body : Bytes) : Except Error Frame :=
  if type = 0x00 then return .data ⟨streamId, body, flags &&& 0x01 != 0⟩
  else if type = 0x01 then return .headers streamId
  else if type = 0x03 then return .rstStream streamId
  else if type = 0x04 then do
    let settings ← parseSettings body
    return .settings ⟨settings, streamId, flags⟩
  else if type = 0x07 then
    .error (.httpGoAway (if body.length < 8 then none else some (body.drop 8)))
  else if type = 0x08 then
    if body.length ≠ 4 then .error .windowUpdateBody
    else return .windowUpdate ⟨fromBEBytes body, streamId⟩
  else .error (.unknownFrame type)

/-- The frame in front of the bytes, with its whole length. -/
def frameTotal (buf : Bytes) : ℕ := 9 + fromBEBytes (buf.take 3)

def frameAt (buf : Bytes) : Except Error Frame :=
  parseBody (buf.getD 3 0) (buf.getD 4 0) (fromBEBytes ((buf.drop 5).take 4))
    ((buf.take (frameTotal buf)).drop 9)

/-- `Frame::parse`: the frame in front, and the bytes it takes. -/
def Frame.parse (buf : Bytes) : Except Error (Option (Frame × ℕ)) :=
  if buf.length < 9 then .ok none
  else if buf.length < frameTotal buf then .ok none
  else
    match frameAt buf with
    | .error error => .error error
    | .ok frame => .ok (some (frame, frameTotal buf))

/-- A frame as it is handed to `write_all`. -/
inductive Written where
  | settings (frame : SettingsFrame)
  | windowUpdate (frame : WindowUpdateFrame)
  | headers (streamId : ℕ)
  | data (frame : DataFrame)
  deriving DecidableEq, Repr

/-- Kept beside the client to judge a run by: the frames that it has taken out of
its buffer or wholly written, and the payloads it has returned. -/
inductive Event where
  | received (frame : Frame)
  | wrote (frame : Written)
  | returned (streamId : ℕ) (payload : Bytes)
  deriving DecidableEq, Repr

structure Client where
  cache : ℕ → Option (List Bytes)
  connSendWindow : Int64
  streamSendWindows : ℕ → Option Int64
  peerInitialWindow : Int64
  recvBuf : Bytes
  finishedFileTransferStreams : Finset ℕ

/-- `DEFAULT_WINDOW`. -/
def defaultWindow : ℕ := 65535

/-- `Http2Client::new`. -/
def Client.new : Client where
  cache := fun _ => none
  connSendWindow := Int64.ofNat defaultWindow
  streamSendWindows := fun _ => none
  peerInitialWindow := Int64.ofNat defaultWindow
  recvBuf := []
  finishedFileTransferStreams := ∅

/-- How an awaited operation of the socket ends. `dropped` is a future that is
dropped while it waits; the bytes are those of a read. -/
inductive Answer where
  | ready (bytes : Bytes)
  | failed
  | dropped
  deriving DecidableEq, Repr

structure World where
  client : Client
  /-- What the socket has in store; the run ends where it waits for more. -/
  answers : List Answer
  /-- All bytes that the socket has handed over. -/
  received : Bytes
  log : List Event

abbrev H2 := Prog World Error

namespace World

def change (f : Client → Client) (w : World) : World := { w with client := f w.client }

def note (event : Event) (w : World) : World := { w with log := w.log ++ [event] }

end World

/-- An await of the socket. -/
def await : H2 Bytes := fun w =>
  match w.answers with
  | [] => (.stopped, w)
  | .ready bytes :: rest => (.done bytes, { w with answers := rest })
  | .failed :: rest => (.failed .socket, { w with answers := rest })
  | .dropped :: rest => (.stopped, { w with answers := rest })

/-- `write_all`. A frame that is not wholly written is none. -/
def writeAll (frame : Written) : H2 Unit := do
  let _ ← await
  Prog.modify (World.note (.wrote frame))

def flush : H2 Unit := do
  let _ ← await

/-- `read` into 16384 bytes. -/
def readSocket : H2 Bytes := do
  let bytes ← await
  Prog.modify fun w => { w with received := w.received ++ bytes.take 16384 }
  return bytes.take 16384

/-- `next_frame`. The run is cut off after some rounds. -/
def nextFrame : ℕ → H2 Frame
  | 0 => Prog.stop
  | rounds + 1 => do
    let w ← Prog.get
    match Frame.parse w.client.recvBuf with
    | .error error => Prog.fail error
    | .ok (some (frame, consumed)) =>
      Prog.modify (World.change fun client => { client with recvBuf := client.recvBuf.drop consumed })
      return frame
    | .ok none =>
      let bytes ← readSocket
      if bytes.isEmpty then Prog.fail .closedByPeer
      else
        Prog.modify (World.change fun client => { client with recvBuf := client.recvBuf ++ bytes })
        nextFrame rounds

namespace Client

/-- One setting of a SETTINGS frame. -/
def applySetting (client : Client) : Setting → Client
  | .maxConcurrentStreams _ => client
  | .initialWindowSize new =>
    let delta := Int64.ofNat new - client.peerInitialWindow
    { client with
      peerInitialWindow := Int64.ofNat new
      streamSendWindows := fun stream => (client.streamSendWindows stream).map (· + delta) }

def applySettings (client : Client) (settings : List Setting) : Client :=
  settings.foldl applySetting client

def applyWindowUpdate (client : Client) (frame : WindowUpdateFrame) : Client :=
  if frame.streamId = 0 then
    { client with connSendWindow := client.connSendWindow + Int64.ofNat frame.incrementSize }
  else
    let window := (client.streamSendWindows frame.streamId).getD client.peerInitialWindow
    { client with
      streamSendWindows := Function.update client.streamSendWindows frame.streamId
        (some (window + Int64.ofNat frame.incrementSize)) }

/-- `cache.entry(stream_id).or_default()`. -/
def openCache (client : Client) (streamId : ℕ) : Client :=
  { client with
    cache := Function.update client.cache streamId
      (some ((client.cache streamId).getD [])) }

def pushCache (client : Client) (streamId : ℕ) (payload : Bytes) : Client :=
  { client with
    cache := Function.update client.cache streamId
      (some ((client.cache streamId).getD [] ++ [payload])) }

/-- The entry that `stream_send_window` makes. -/
def seedWindow (client : Client) (streamId : ℕ) : Client :=
  { client with
    streamSendWindows := Function.update client.streamSendWindows streamId
      (some ((client.streamSendWindows streamId).getD client.peerInitialWindow)) }

end Client

/-- What `pump` does with a frame before it awaits anything. -/
def receive (frame : Frame) (f : Client → Client) : H2 Unit :=
  Prog.modify fun w => (w.change f).note (.received frame)

/-- `pump`. -/
def pump (rounds : ℕ) : H2 Unit := do
  let frame ← nextFrame rounds
  match frame with
  | .settings settings =>
    if settings.flags ≠ 1 then
      receive frame (·.applySettings settings.settings)
      writeAll (.settings ⟨[], settings.streamId, 1⟩)
      flush
    else receive frame id
  | .windowUpdate update => receive frame (·.applyWindowUpdate update)
  | .rstStream streamId =>
    let w ← Prog.get
    receive frame fun client => { client with
      finishedFileTransferStreams := client.finishedFileTransferStreams.erase streamId }
    if streamId ∉ w.client.finishedFileTransferStreams then Prog.fail .httpStreamReset
  | .data data =>
    receive frame (·.pushCache data.streamId data.payload)
    if 0 < data.payload.length then
      writeAll (.windowUpdate ⟨data.payload.length, 0⟩)
      writeAll (.windowUpdate ⟨data.payload.length, data.streamId⟩)
      flush
  | .headers _ => receive frame id

/-- The first of the streams with a payload in the cache. -/
def firstCached (client : Client) : List ℕ → Option (ℕ × Bytes × List Bytes)
  | [] => none
  | streamId :: streamIds =>
    match client.cache streamId with
    | some (payload :: rest) => some (streamId, payload, rest)
    | _ => firstCached client streamIds

/-- The loop of `read_any`. -/
def readLoop (streamIds : List ℕ) : ℕ → ℕ → H2 (ℕ × Bytes)
  | 0, _ => Prog.stop
  | rounds + 1, pumpRounds => do
    let w ← Prog.get
    match firstCached w.client streamIds with
    | some (streamId, payload, rest) =>
      Prog.modify fun w => (w.change fun client => { client with
        cache := Function.update client.cache streamId (some rest) }).note
          (.returned streamId payload)
      return (streamId, payload)
    | none =>
      pump pumpRounds
      readLoop streamIds rounds pumpRounds

def readAny (rounds : ℕ) (streamIds : List ℕ) : H2 (ℕ × Bytes) := do
  Prog.each (fun streamId => Prog.modify (World.change (·.openCache streamId))) streamIds
  readLoop streamIds rounds rounds

/-- `read`, which is `read_any` of one stream. -/
def read (rounds : ℕ) (streamId : ℕ) : H2 Bytes := do
  let (_, payload) ← readAny rounds [streamId]
  return payload

/-- `MAX_FRAME_SIZE`. -/
def maxFrameSize : ℕ := 16384

/-- `payload.chunks(MAX_FRAME_SIZE)`; there are no more chunks than bytes. -/
def chunksFrom : ℕ → Bytes → List Bytes
  | 0, _ => []
  | count + 1, bytes =>
    if bytes = [] then [] else bytes.take maxFrameSize :: chunksFrom count (bytes.drop maxFrameSize)

def chunks (payload : Bytes) : List Bytes := chunksFrom payload.length payload

/-- The loop that waits for both windows. -/
def awaitWindows (streamId : ℕ) (need : Int64) : ℕ → ℕ → H2 Unit
  | 0, _ => Prog.stop
  | rounds + 1, pumpRounds => do
    let w ← Prog.get
    if w.client.connSendWindow < need then
      pump pumpRounds
      awaitWindows streamId need rounds pumpRounds
    else
      Prog.modify (World.change (·.seedWindow streamId))
      let window := (w.client.streamSendWindows streamId).getD w.client.peerInitialWindow
      if window < need then
        pump pumpRounds
        awaitWindows streamId need rounds pumpRounds

/-- A DATA frame is written and its octets are taken off the windows. -/
def sendData (frame : DataFrame) : H2 Unit := do
  let _ ← await
  let need := Int64.ofNat frame.payload.length
  let w ← Prog.get
  match w.client.streamSendWindows frame.streamId with
  | none => Prog.fail .panic
  | some window =>
    Prog.modify fun w => (w.change fun client => { client with
      connSendWindow := client.connSendWindow - need
      streamSendWindows := Function.update client.streamSendWindows frame.streamId
        (some (window - need)) }).note (.wrote (.data frame))

def sendChunks (rounds streamId : ℕ) (endStream : Bool) : List Bytes → H2 Unit
  | [] => flush
  | chunk :: rest => do
    awaitWindows streamId (Int64.ofNat chunk.length) rounds rounds
    sendData ⟨streamId, chunk, endStream && rest.isEmpty⟩
    sendChunks rounds streamId endStream rest

/-- `send_inner`. -/
def sendInner (rounds : ℕ) (payload : Bytes) (streamId : ℕ) (endStream : Bool) : H2 Unit :=
  if chunks payload = [] then do
    writeAll (.data ⟨streamId, [], endStream⟩)
    flush
  else sendChunks rounds streamId endStream (chunks payload)

def send (rounds : ℕ) (payload : Bytes) (streamId : ℕ) : H2 Unit :=
  sendInner rounds payload streamId false

def sendEndStream (rounds : ℕ) (payload : Bytes) (streamId : ℕ) : H2 Unit := do
  Prog.modify (World.change fun client => { client with
    finishedFileTransferStreams := insert streamId client.finishedFileTransferStreams })
  sendInner rounds payload streamId true

def setSettings (settings : List Setting) (streamId : ℕ) : H2 Unit := do
  writeAll (.settings ⟨settings, streamId, 0⟩)
  flush

def windowUpdate (incrementSize streamId : ℕ) : H2 Unit := do
  writeAll (.windowUpdate ⟨incrementSize, streamId⟩)
  flush

def openStream (streamId : ℕ) : H2 Unit := do
  Prog.modify (World.change (·.openCache streamId))
  writeAll (.headers streamId)
  flush

/-- A call of the client. -/
inductive Call where
  | setSettings (settings : List Setting) (streamId : ℕ)
  | windowUpdate (incrementSize streamId : ℕ)
  | openStream (streamId : ℕ)
  | send (payload : Bytes) (streamId : ℕ)
  | sendEndStream (payload : Bytes) (streamId : ℕ)
  | read (streamId : ℕ)
  | readAny (streamIds : List ℕ)
  deriving DecidableEq, Repr

/-- What is left of a call once its result is known to the caller. -/
def Call.run (rounds : ℕ) : Call → H2 Unit
  | .setSettings settings streamId => Http2.setSettings settings streamId
  | .windowUpdate incrementSize streamId => Http2.windowUpdate incrementSize streamId
  | .openStream streamId => Http2.openStream streamId
  | .send payload streamId => Http2.send rounds payload streamId
  | .sendEndStream payload streamId => Http2.sendEndStream rounds payload streamId
  | .read streamId => do
    let _ ← Http2.read rounds streamId
  | .readAny streamIds => do
    let _ ← Http2.readAny rounds streamIds

/-- Calls one after the other, whether they return, fail or are dropped. -/
def runCalls (rounds : ℕ) : List Call → World → World
  | [], w => w
  | call :: calls, w => runCalls rounds calls (call.run rounds w).2

/-- A client whose socket has these answers in store. -/
def World.new (answers : List Answer) : World where
  client := .new
  answers := answers
  received := []
  log := []

end XitForge.Http2
