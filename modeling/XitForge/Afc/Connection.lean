import Mathlib.Logic.Function.Basic
import XitForge.Afc.Client

/-!
Operations on one AFC connection. Between two polls an operation waits for the socket
to take more of its request or to have more of a response; there it can be dropped,
and another one can be polled that an open file has kept. Nothing but the place in
the stream tells a client to which request a response belongs.
-/
namespace XitForge.Afc

/-- Where an exchange waits. -/
inductive Phase where
  /-- `send_raw`, with the bytes that the socket has not taken. -/
  | sending (left : Bytes)
  | flushing
  /-- `AfcPacket::read`, with the bytes that it has taken off the socket. -/
  | reading (got : Bytes)

structure Running where
  request : AfcPacket
  phase : Phase
  next : AfcPacket → Task Unit

/-- Nothing of the request has been sent. -/
def Running.Fresh (running : Running) : Prop :=
  running.phase = .sending running.request.serialize

structure State where
  /-- Whether `socket` is there. -/
  connected : Bool
  packageNumber : UInt64
  /-- The operations that were polled and are neither ready nor dropped. -/
  running : ℕ → Option Running
  /-- The last request on the wire is not whole. -/
  partWritten : Bool
  /-- A request on the wire was cut off by another one. -/
  damaged : Bool
  /-- The whole requests that the device has not answered. -/
  pending : List AfcPacket
  /-- What the device has sent and no operation has read. -/
  inbound : Bytes
  /-- The operation that began a request whose response has not been read whole. -/
  outstanding : Option ℕ
  /-- What the device has answered to which request. -/
  answered : List (AfcPacket × Bytes)
  /-- The responses that operations were handed, with the request of each. -/
  handed : List (AfcPacket × AfcPacket)

namespace State

/-- `AfcClient::new`. -/
def new : State where
  connected := true
  packageNumber := 0
  running := fun _ => none
  partWritten := false
  damaged := false
  pending := []
  inbound := []
  outstanding := none
  answered := []
  handed := []

def set (state : State) (id : ℕ) (running : Option Running) : State :=
  { state with running := Function.update state.running id running }

/-- An error of the socket or a timeout: `invalidate_connection`, and the operation fails. -/
def invalidate (state : State) (id : ℕ) : State :=
  { state.set id none with
    connected := false
    outstanding := none }

/-- An operation goes on up to its next await. The number wraps where overflow is not
checked. -/
def launch (state : State) (id : ℕ) : Task Unit → State
  | .done _ => state.set id none
  | .failed _ => state.set id none
  | .exchange operation headerPayload payload next =>
    let request := AfcPacket.request state.packageNumber operation headerPayload payload
    let state := { state with packageNumber := state.packageNumber + 1 }
    if state.connected then state.set id (some ⟨request, .sending request.serialize, next⟩)
    else state.set id none

/-- The end of `AfcClient::read`, with a whole packet. -/
def receive (state : State) (id : ℕ) (running : Running) (packet : AfcPacket) : State :=
  let state := { state with
    outstanding := none
    handed := state.handed ++ [(running.request, packet)] }
  if packet.header.operation = .status then
    if packet.headerPayload.length < 8 then state.invalidate id
    else if Xpc.leAt packet.headerPayload 0 8 = 0 then state.launch id (running.next packet)
    else state.set id none
  else state.launch id (running.next packet)

/-- The socket takes some bytes of a request. -/
def write (state : State) (id : ℕ) (running : Running) (left : Bytes) (count : ℕ) : State :=
  let damaged := state.damaged || (decide (left = running.request.serialize) && state.partWritten)
  let whole := (left.drop count).isEmpty
  { state.set id (some { running with
      phase := if whole then .flushing else .sending (left.drop count) }) with
    partWritten := !whole
    damaged := damaged
    pending := if whole && !damaged then state.pending ++ [running.request] else state.pending
    outstanding := some id }

/-- The socket hands over some bytes of a response. -/
def read (state : State) (id : ℕ) (running : Running) (got : Bytes) (count : ℕ) : State :=
  let got := got ++ state.inbound.take count
  let state := { state with inbound := state.inbound.drop count }
  match AfcPacket.read got with
  | .more _ => state.set id (some { running with phase := .reading got })
  | .packet packet => state.receive id running packet
  | .failed _ => state.invalidate id

/-- The device answers the oldest request, if it was given one. -/
def answer (state : State) (reply : Reply) : Option State :=
  match state.pending with
  | [] => none
  | request :: rest =>
    let bytes := reply.bytes request.header.packetNum
    some { state with
      pending := rest
      inbound := state.inbound ++ bytes
      answered := state.answered ++ [(request, bytes)] }

end State

/-- What a poll of a waiting operation comes to. -/
inductive Event where
  | write (count : ℕ)
  | flush
  | read (count : ℕ)
  /-- An error of the socket, or fifteen seconds are over. -/
  | fail
  /-- The future is dropped, or another one put in its place. -/
  | drop

inductive Action where
  | start (id : ℕ) (call : Call)
  | poll (id : ℕ) (event : Event)
  | answer (reply : Reply)
  /-- What a device sends that was sent a damaged request is not known. -/
  | noise (bytes : Bytes)

/-- The socket is not there for an operation that goes on after another one has lost it. -/
def State.poll (state : State) (id : ℕ) (running : Running) : Event → Option State
  | .write count =>
    match running.phase with
    | .sending left =>
      if ¬ state.connected then some (state.invalidate id)
      else if 0 < count ∧ count ≤ left.length then some (state.write id running left count)
      else none
    | _ => none
  | .flush =>
    match running.phase with
    | .flushing =>
      if ¬ state.connected then some (state.invalidate id)
      else some (state.set id (some { running with phase := .reading [] }))
    | _ => none
  | .read count =>
    match running.phase with
    | .reading got =>
      if ¬ state.connected then some (state.invalidate id)
      else
        match AfcPacket.read got with
        | .more wanted =>
          if 0 < count ∧ count ≤ wanted ∧ count ≤ state.inbound.length then
            some (state.read id running got count)
          else none
        | _ => none
    | _ => none
  | .fail => some (state.invalidate id)
  | .drop => some (state.set id none)

def step (state : State) : Action → Option State
  | .start id call => if (state.running id).isNone then some (state.launch id call.task) else none
  | .poll id event => (state.running id).bind fun running => state.poll id running event
  | .answer reply => state.answer reply
  | .noise bytes =>
    if state.damaged then some { state with inbound := state.inbound ++ bytes } else none

def run : State → List Action → Option State
  | state, [] => some state
  | state, action :: rest => (step state action).bind fun next => run next rest

/-- The step sends the first bytes of a request. -/
def Begins (state : State) : Action → Prop
  | .poll id (.write _) => ∃ running, state.running id = some running ∧ running.Fresh
  | _ => False

/-- No request is begun while the response to an earlier one has not been read whole. -/
def Orderly : State → List Action → Prop
  | _, [] => True
  | state, action :: rest => (Begins state action → state.outstanding = none) ∧
      ∀ next, step state action = some next → Orderly next rest

/-- Every response that was handed to an operation is what the device answered to the
request of the operation, with its number; they come in the order of the answers. -/
structure State.Matched (state : State) : Prop where
  number : ∀ request response, (request, response) ∈ state.handed →
    response.header.packetNum = request.header.packetNum
  answer : List.IsPrefix (state.handed.map fun entry => (entry.1, entry.2.serialize)) state.answered

end XitForge.Afc
