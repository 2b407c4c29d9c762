import Mathlib.Algebra.Ring.Nat
import XitForge.Http2.Peers
import XitForge.Xpc.Receiving

/-!
RemoteXPC from one end of a connection to the other, behind the preface of HTTP/2. The
messages that an end sends on the root and the reply channel go out as the bytes of their
encodings, one behind the other, whatever else it does; what the other end returns of a
channel are the values of the first of them, each once and in order.
-/
namespace XitForge.Xpc

open Http2 (H2 World DataFrame Written OnWire Readable Delivered SameSent dataFrames payloadsSent)
open Program RustEval

section Carrying

/-- The invariant holds of the connection, and the next file stream is a `u32`. -/
def Within (I : World → Prop) (client : RemoteXpcClient) : Prop :=
  I client.h2Client ∧ client.nextOutboundFileStream < 2 ^ 32

variable {I : World → Prop} {checks : Bool}

instance ofEval_within {α : Type} (result : Eval IdeviceError α) :
    Keeps (Program.Preserved (Within I)) (ofEval result) := by
  constructor
  intro client hclient
  cases result with
  | ok value => exact hclient
  | err error => exact hclient
  | panic => exact hclient

instance takeBufferedOn_within (channel : ℕ) :
    Keeps (Program.Preserved (Within I)) (takeBufferedOn checks channel) := by
  unfold takeBufferedOn
  refine Keeps.bind inferInstance fun client => Keeps.bind inferInstance fun taken => ?_
  obtain ⟨message, rest⟩ := taken
  exact Keeps.bind (Keeps.modify fun _ h => h) fun _ => inferInstance

instance giveBack_within (channel : ℕ) (value : PlistValue) :
    Keeps (Program.Preserved (Within I)) (giveBack channel value) := by
  unfold giveBack
  exact Keeps.bind (Keeps.modify fun _ h => h) fun _ => inferInstance

instance anyPass_within (channels : List ℕ) :
    Keeps (Program.Preserved (Within I)) (anyPass checks channels) := by
  induction channels with
  | nil =>
    unfold anyPass
    infer_instance
  | cons channel channels ih =>
    unfold anyPass
    refine Keeps.bind inferInstance fun message => ?_
    split
    · infer_instance
    · exact ih

end Carrying

section Octets

variable (channel : ℕ)

/-- The octets of a stream in some frames. -/
def octetsOn (frames : List DataFrame) : List UInt8 :=
  ((frames.filter fun frame => frame.streamId = channel).map DataFrame.payload).flatten

/-- The octets that were sent on a stream. -/
def wroteOn (client : RemoteXpcClient) : List UInt8 := octetsOn channel (dataFrames client.h2Client.log)

theorem octetsOn_append (frames more : List DataFrame) :
    octetsOn channel (frames ++ more) = octetsOn channel frames ++ octetsOn channel more := by
  simp [octetsOn]

/-- The first octets, but for those of the base, of the ones to be sent. -/
def Front (base bytes : List UInt8) (client : RemoteXpcClient) : Prop :=
  ∃ part, part <+: bytes ∧ wroteOn channel client = base ++ part

/-- The identifier of messages, and room for so many file streams behind the channels. -/
structure Ready (room : ℕ) (client : RemoteXpcClient) : Prop where
  rootId : client.rootId = 1
  beyond : firstOutboundFileStream ≤ client.nextOutboundFileStream
  below : client.nextOutboundFileStream + 2 * room < 2 ^ 32

/-- The program sends these octets on the channel, or their front if it does not return. -/
def Writes (room room' : ℕ) {α : Type} (m : Remote α) (bytes : List UInt8) : Prop :=
  ∀ base, Triple (fun client => Ready room client ∧ wroteOn channel client = base) m
    (fun _ client => Ready room' client ∧ wroteOn channel client = base ++ bytes)
    (fun _ => Front channel base bytes) (Front channel base bytes)

variable {channel} {room room' room'' : ℕ} {α β : Type} {m : Remote α}

theorem Front.none {base bytes : List UInt8} {client : RemoteXpcClient}
    (h : wroteOn channel client = base) : Front channel base bytes client :=
  ⟨[], List.nil_prefix, by rw [h, List.append_nil]⟩

theorem Front.more {base bytes bytes' : List UInt8} {client : RemoteXpcClient}
    (h : Front channel base bytes client) : Front channel base (bytes ++ bytes') client := by
  obtain ⟨part, hpart, hwrote⟩ := h
  exact ⟨part, hpart.trans (List.prefix_append _ _), hwrote⟩

theorem Front.behind {base bytes bytes' : List UInt8} {client : RemoteXpcClient}
    (h : Front channel (base ++ bytes) bytes' client) :
    Front channel base (bytes ++ bytes') client := by
  obtain ⟨part, hpart, hwrote⟩ := h
  exact ⟨bytes ++ part, (List.prefix_append_right_inj bytes).mpr hpart, by rw [hwrote, List.append_assoc]⟩

theorem Writes.bind {next : α → Remote β} {bytes bytes' : List UInt8}
    (hm : Writes channel room room' m bytes)
    (hnext : ∀ value, Writes channel room' room'' (next value) bytes') :
    Writes channel room room'' (m >>= next) (bytes ++ bytes') := by
  intro base
  refine Triple.bind ((hm base).conseq (fun _ => id) (fun _ _ => id) (fun _ _ h => h.more)
    fun _ h => h.more) fun value => ?_
  refine (hnext value (base ++ bytes)).conseq (fun _ => id) ?_ (fun _ _ h => h.behind) fun _ h => h.behind
  intro _ client h
  rwa [List.append_assoc] at h

theorem Writes.nothing {next : α → Remote β} (hm : Writes channel room room' m [])
    (hnext : ∀ value, Writes channel room' room'' (next value) []) :
    Writes channel room room'' (m >>= next) [] := hm.bind hnext

/-- No octet is sent, and what a send depends on stays as it is. -/
def SameSending (client client' : RemoteXpcClient) : Prop :=
  client'.rootId = client.rootId ∧
    client'.nextOutboundFileStream = client.nextOutboundFileStream ∧
      dataFrames client'.h2Client.log = dataFrames client.h2Client.log

instance : IsPreorder RemoteXpcClient SameSending where
  refl _ := ⟨rfl, rfl, rfl⟩
  trans _ _ _ h h' := ⟨h'.1.trans h.1, h'.2.1.trans h.2.1, h'.2.2.trans h.2.2⟩

theorem Writes.silent (hm : Keeps SameSending m) : Writes channel room room m [] := by
  intro base
  have hsame : ∀ client client', Ready room client ∧ wroteOn channel client = base →
      SameSending client client' → Ready room client' ∧ wroteOn channel client' = base := by
    intro client client' h hsame
    refine ⟨⟨hsame.1.trans h.1.rootId, hsame.2.1 ▸ h.1.beyond, hsame.2.1 ▸ h.1.below⟩, ?_⟩
    rw [← h.2]
    exact congrArg (octetsOn channel) hsame.2.2
  have hfront : ∀ client, Ready room client ∧ wroteOn channel client = base →
      Front channel base [] client := fun _ h => .none h.2
  refine (Keeps.triple hm hsame).conseq (fun _ => id) ?_ (fun _ => hfront) hfront
  intro _ client h
  rwa [List.append_nil]

/-- What the HTTP/2 client does if it sends these frames. -/
theorem Writes.onHttp2 {m : H2 α} {frames : List DataFrame}
    (hm : ∀ base, Triple (fun w => dataFrames w.log = base) m
      (fun _ w => dataFrames w.log = base ++ frames) (fun _ => Http2.SentSome base frames)
      (Http2.SentSome base frames)) :
    Writes channel room room (Xpc.onHttp2 m) (octetsOn channel frames) := by
  intro base
  have hfront : ∀ client, Ready room client ∧ wroteOn channel client = base → ∀ w,
      Http2.SentSome (dataFrames client.h2Client.log) frames w →
        Front channel base (octetsOn channel frames) { client with h2Client := w } := by
    intro client h w hw
    obtain ⟨sent, rest, hframes, hlog⟩ := hw
    refine ⟨octetsOn channel sent, ⟨octetsOn channel rest, ?_⟩, ?_⟩
    · rw [← octetsOn_append, hframes]
    · show octetsOn channel (dataFrames w.log) = _
      rw [hlog, octetsOn_append, ← h.2]
      rfl
  refine onHttp2_triple fun client h => ?_
  refine (hm (dataFrames client.h2Client.log)).conseq (fun w hw => by rw [hw]) ?_
    (fun _ => hfront client h) (hfront client h)
  intro _ w hw
  refine ⟨⟨h.1.rootId, h.1.beyond, h.1.below⟩, ?_⟩
  show octetsOn channel (dataFrames w.log) = _
  rw [hw, octetsOn_append, ← h.2]
  rfl

instance readLoop_sameSent (streamIds : List ℕ) (rounds pumpRounds : ℕ) :
    Keeps SameSent (Http2.readLoop streamIds rounds pumpRounds) := by
  induction rounds with
  | zero =>
    unfold Http2.readLoop
    infer_instance
  | succ rounds ih =>
    unfold Http2.readLoop
    refine Keeps.bind inferInstance fun w => ?_
    split
    · exact Keeps.bind (Keeps.modify fun s => Http2.sameSent_note rfl _ s) fun _ => inferInstance
    · exact Keeps.bind inferInstance fun _ => ih

theorem change_sameSent (f : Http2.Client → Http2.Client) :
    Keeps SameSent (Prog.modify (World.change f) : H2 Unit) := Keeps.modify fun _ => rfl

instance readAny_sameSent (rounds : ℕ) (streamIds : List ℕ) :
    Keeps SameSent (Http2.readAny rounds streamIds) := by
  unfold Http2.readAny
  exact Keeps.bind (Keeps.each _ fun _ _ => change_sameSent _) fun _ => inferInstance

instance read_sameSent (rounds streamId : ℕ) : Keeps SameSent (Http2.read rounds streamId) := by
  unfold Http2.read
  infer_instance

instance setSettings_sameSent (settings : List Http2.Setting) (streamId : ℕ) :
    Keeps SameSent (Http2.setSettings settings streamId) :=
  Keeps.bind (Http2.writeAll_sameSent rfl) fun _ => inferInstance

instance windowUpdate_sameSent (incrementSize streamId : ℕ) :
    Keeps SameSent (Http2.windowUpdate incrementSize streamId) :=
  Keeps.bind (Http2.writeAll_sameSent rfl) fun _ => inferInstance

instance openStream_sameSent (streamId : ℕ) : Keeps SameSent (Http2.openStream streamId) :=
  Keeps.bind (change_sameSent _) fun _ => Keeps.bind (Http2.writeAll_sameSent rfl) fun _ => inferInstance

instance onHttp2_sameSending {m : H2 α} [hm : Keeps SameSent m] : Keeps SameSending (onHttp2 m) := by
  constructor
  intro client
  have hsame := hm.keeps client.h2Client
  unfold Xpc.onHttp2
  rcases heq : m client.h2Client with ⟨outcome, w⟩
  rw [heq] at hsame
  cases outcome with
  | done value => exact ⟨rfl, rfl, hsame⟩
  | failed error => exact ⟨rfl, rfl, hsame⟩
  | stopped => exact ⟨rfl, rfl, hsame⟩

instance ofEval_sameSending (result : Eval IdeviceError α) : Keeps SameSending (ofEval result) := by
  constructor
  intro client
  cases result with
  | ok value => exact refl_of _ client
  | err error => exact refl_of _ client
  | panic => exact refl_of _ client

variable {checks : Bool}

instance takeBufferedOn_sameSending (other : ℕ) : Keeps SameSending (takeBufferedOn checks other) := by
  unfold takeBufferedOn
  refine Keeps.bind inferInstance fun client => Keeps.bind inferInstance fun taken => ?_
  obtain ⟨message, rest⟩ := taken
  exact Keeps.bind (Keeps.modify fun _ => ⟨rfl, rfl, rfl⟩) fun _ => inferInstance

instance giveBack_sameSending (other : ℕ) (value : PlistValue) :
    Keeps SameSending (giveBack other value) := by
  unfold giveBack
  exact Keeps.bind (Keeps.modify fun _ => ⟨rfl, rfl, rfl⟩) fun _ => inferInstance

instance extend_sameSending (other : ℕ) (chunk : List UInt8) :
    Keeps SameSending (Prog.modify (·.extend other chunk) : Remote Unit) :=
  Keeps.modify fun _ => ⟨rfl, rfl, rfl⟩

instance anyPass_sameSending (others : List ℕ) : Keeps SameSending (anyPass checks others) := by
  induction others with
  | nil =>
    unfold anyPass
    infer_instance
  | cons other others ih =>
    unfold anyPass
    refine Keeps.bind inferInstance fun message => ?_
    split
    · infer_instance
    · exact ih

instance fileChunksOn_sameSending (rounds streamId totalSize fuel wanted got : ℕ) :
    Keeps SameSending (fileChunksOn checks rounds streamId totalSize fuel wanted got) := by
  induction fuel generalizing wanted got with
  | zero =>
    unfold fileChunksOn
    infer_instance
  | succ fuel ih =>
    unfold fileChunksOn
    refine Keeps.branch (fun _ => inferInstance) fun _ => Keeps.bind inferInstance fun bytes =>
      Keeps.bind inferInstance fun stripped => ?_
    obtain ⟨after, stripped⟩ := stripped
    refine Keeps.branch (fun _ => ih wanted got) fun _ => Keeps.bind inferInstance fun got => ?_
    exact Keeps.bind (ih (wanted - 1) got) fun _ => inferInstance

end Octets

section Messages

variable {checks : Bool} {channel room : ℕ}

theorem Stream.split {sents more : List Sent} {all : List UInt8} (h : Stream checks (sents ++ more) all) :
    ∃ bytes rest, all = bytes ++ rest ∧ Stream checks sents bytes ∧ Stream checks more rest := by
  induction sents generalizing all with
  | nil => exact ⟨[], all, rfl, .nil, h⟩
  | cons sent sents ih =>
    rw [List.cons_append] at h
    cases h with
    | cons hwire hrest =>
      obtain ⟨bytes, rest, rfl, hbytes, hmore⟩ := ih hrest
      exact ⟨_, rest, (List.append_assoc ..).symm, .cons hwire hbytes, hmore⟩

theorem add_of_lt {a b sum : ℕ} (hlt : a + b < 2 ^ 32)
    (h : (Eval.add 32 checks a b : Eval IdeviceError ℕ) = .ok sum) : sum = a + b := by
  unfold Eval.add at h
  rw [if_pos hlt, Eval.ok.injEq] at h
  exact h.symm

theorem Stream.eq_nil {sents : List Sent} (h : Stream checks sents []) : sents = [] := by
  generalize hbytes : ([] : List UInt8) = bytes at h
  cases h with
  | nil => rfl
  | cons hwire hrest =>
    have hpos := hwire.length_pos
    rw [(List.append_eq_nil_iff.mp hbytes.symm).1] at hpos
    exact absurd hpos (Nat.lt_irrefl 0)

end Messages

end XitForge.Xpc
