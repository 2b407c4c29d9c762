import XitForge.Xpc.Channel

/-!
`recv_any`, which receives from the root and the reply channel. One pass takes at
most one message from each buffer before the next frame is waited for, so that a
message without content leaves what is behind it in the buffer.
-/
namespace XitForge.Xpc

open RustEval

/-- `ROOT_CHANNEL` and `REPLY_CHANNEL`. -/
inductive AnyChannel where
  | root
  | reply
  deriving DecidableEq, Repr

/-- The entries of `partial` that `recv_any` looks at. -/
structure Partial where
  root : List UInt8 := []
  reply : List UInt8 := []
  deriving DecidableEq, Repr

namespace Partial

def buffer (buffers : Partial) : AnyChannel → List UInt8
  | .root => buffers.root
  | .reply => buffers.reply

def set (buffers : Partial) (channel : AnyChannel) (bytes : List UInt8) : Partial :=
  match channel with
  | .root => { buffers with root := bytes }
  | .reply => { buffers with reply := bytes }

/-- `entry(channel).or_default().extend(chunk)`. -/
def extend (buffers : Partial) (channel : AnyChannel) (chunk : List UInt8) : Partial :=
  buffers.set channel (buffers.buffer channel ++ chunk)

end Partial

/-- What `recv_any` returns of a message, unless the body is missing or an empty
dictionary. -/
def XPCMessage.deliver (message : XPCMessage) : Option PlistValue :=
  match message.message with
  | some inner => if inner.isEmptyDictionary then none else some inner.toPlist
  | none => none

/-- The loop over the channels, up to the return or to `read_any`. -/
def recvPass (checks : Bool) :
    List AnyChannel → Partial → Eval IdeviceError (Option PlistValue × Partial)
  | [], buffers => return (none, buffers)
  | channel :: channels, buffers => do
    let (message, rest) ← takeBuffered checks (buffers.buffer channel)
    match message.bind XPCMessage.deliver with
    | some value => return (some value, buffers.set channel rest)
    | none => recvPass checks channels (buffers.set channel rest)

/-- `CHANNELS`. -/
def channels : List AnyChannel := [.root, .reply]

/-- A call of `read_any`: the buffers at that moment, and those at the start of the pass. -/
structure ReadAny where
  before : Partial
  buffers : Partial
  deriving DecidableEq, Repr

/-- `recv_any`: the calls of `read_any` it makes and what it returns, for the chunks
that these calls return. It returns nothing while the last one waits. -/
def recvAny (checks : Bool) : List (AnyChannel × List UInt8) → Partial →
    List ReadAny × Eval IdeviceError (Option PlistValue × Partial)
  | chunks, before =>
    match recvPass checks channels before with
    | .ok (none, buffers) =>
      match chunks with
      | [] => ([⟨before, buffers⟩], .ok (none, buffers))
      | (channel, chunk) :: chunks =>
        let (reads, result) := recvAny checks chunks (buffers.extend channel chunk)
        (⟨before, buffers⟩ :: reads, result)
    | .ok (some value, buffers) => ([], .ok (some value, buffers))
    | .err error => ([], .err error)
    | .panic => ([], .panic)

/-- The buffer begins with whole messages, one of which is to be returned. -/
inductive Deliverable (checks : Bool) : List UInt8 → Prop
  | here {buf rest : List UInt8} {message : XPCMessage} {value : PlistValue}
      (htake : takeBuffered checks buf = .ok (some message, rest))
      (hvalue : message.deliver = some value) : Deliverable checks buf
  | later {buf rest : List UInt8} {message : XPCMessage}
      (htake : takeBuffered checks buf = .ok (some message, rest))
      (hrest : Deliverable checks rest) : Deliverable checks buf

/-- A message without content is in front of one that is to be returned. -/
def HoldsBack (checks : Bool) (buf : List UInt8) : Prop :=
  ∃ message rest, takeBuffered checks buf = .ok (some message, rest) ∧
    message.deliver = none ∧ Deliverable checks rest

section Pass

variable {checks : Bool} {buf : List UInt8}

/-- A buffer without a whole message in front is left as it is. -/
theorem takeBuffered_none {rest : List UInt8} (h : takeBuffered checks buf = .ok (none, rest)) :
    rest = buf := by
  unfold takeBuffered at h
  split at h
  · obtain ⟨consumed, -, hconsumed⟩ := Eval.bind_eq_ok.mp h
    cases hconsumed
  · cases h
    rfl
  · cases h
    rfl
  · cases h
  · cases h

/-- What a pass leaves of a buffer is to be returned if it was held back. -/
theorem deliverable_rest_iff {message : Option XPCMessage} {rest : List UInt8}
    (htake : takeBuffered checks buf = .ok (message, rest))
    (hnone : message.bind XPCMessage.deliver = none) :
    Deliverable checks rest ↔ HoldsBack checks buf := by
  cases message with
  | some message =>
    constructor
    · intro hrest
      exact ⟨message, rest, htake, hnone, hrest⟩
    · intro ⟨message', rest', htake', _, hrest⟩
      rw [htake] at htake'
      cases htake'
      exact hrest
  | none =>
    have hrest := takeBuffered_none htake
    subst hrest
    constructor
    · intro h
      cases h with
      | here htake' hvalue =>
        rw [htake] at htake'
        cases htake'
      | later htake' hrest =>
        rw [htake] at htake'
        cases htake'
    · intro ⟨message', rest', htake', _⟩
      rw [htake] at htake'
      cases htake'

/-- A pass that returns nothing has taken at most one message from each buffer. -/
theorem recvPass_none {before buffers : Partial}
    (h : recvPass checks channels before = .ok (none, buffers)) (channel : AnyChannel) :
    ∃ message, takeBuffered checks (before.buffer channel) = .ok (message, buffers.buffer channel) ∧
      message.bind XPCMessage.deliver = none := by
  unfold channels at h
  obtain ⟨⟨first, root⟩, hfirst, h⟩ := Eval.bind_eq_ok.mp h
  simp only at h
  split at h
  · cases h
  · rename_i hnone
    obtain ⟨⟨second, reply⟩, hsecond, h⟩ := Eval.bind_eq_ok.mp h
    simp only at h
    split at h
    · cases h
    · rename_i hnone'
      cases h
      cases channel with
      | root => exact ⟨first, hfirst, hnone⟩
      | reply => exact ⟨second, hsecond, hnone'⟩

/-- `read_any` is called with nothing to return if nothing was held back. -/
theorem readAny_clear_iff {before buffers : Partial}
    (h : recvPass checks channels before = .ok (none, buffers)) (channel : AnyChannel) :
    Deliverable checks (buffers.buffer channel) ↔ HoldsBack checks (before.buffer channel) := by
  obtain ⟨message, htake, hnone⟩ := recvPass_none h channel
  exact deliverable_rest_iff htake hnone

/-- Every call of `read_any` ends a pass. -/
theorem recvAny_reads {chunks : List (AnyChannel × List UInt8)} {before : Partial} {read : ReadAny}
    (h : read ∈ (recvAny checks chunks before).1) :
    recvPass checks channels read.before = .ok (none, read.buffers) := by
  induction chunks generalizing before with
  | nil =>
    unfold recvAny at h
    split at h
    · rename_i hpass
      obtain rfl := List.mem_singleton.mp h
      exact hpass
    · cases h
    · cases h
    · cases h
  | cons chunk chunks ih =>
    unfold recvAny at h
    split at h
    · rename_i hpass
      rcases List.mem_cons.mp h with rfl | hrest
      · exact hpass
      · exact ih hrest
    · cases h
    · cases h
    · cases h

end Pass

/-- `recv_any` waits with nothing to return in its buffers as long as no pass finds
a message without content in front of one to return. -/
theorem recvAny_waits_clear_iff (checks : Bool) (chunks : List (AnyChannel × List UInt8))
    (before : Partial) :
    (∀ read ∈ (recvAny checks chunks before).1, ∀ channel,
      ¬ Deliverable checks (read.buffers.buffer channel)) ↔
    ∀ read ∈ (recvAny checks chunks before).1, ∀ channel,
      ¬ HoldsBack checks (read.before.buffer channel) := by
  constructor
  · intro h read hread channel hholds
    exact h read hread channel ((readAny_clear_iff (recvAny_reads hread) channel).mpr hholds)
  · intro h read hread channel hdeliverable
    exact h read hread channel ((readAny_clear_iff (recvAny_reads hread) channel).mp hdeliverable)

/-- A message without a body, and one with `true` behind it. -/
def coalesced : Partial where
  root := toLEBytes 4 XPCMessage.magic ++ List.replicate 20 0 ++
    (toLEBytes 4 XPCMessage.magic ++ List.replicate 4 0 ++ toLEBytes 8 16 ++ List.replicate 8 0 ++
      (toLEBytes 4 0x42133742 ++ toLEBytes 4 5 ++ XPCType.bool.bytes ++ [1, 0, 0, 0]))

theorem coalesced_waits :
    ¬ ∀ checks chunks before, ∀ read ∈ (recvAny checks chunks before).1, ∀ channel,
      ¬ Deliverable checks (read.buffers.buffer channel) := by
  intro h
  have hread : (recvAny true [] coalesced).1 =
      [⟨coalesced, ⟨coalesced.root.drop 24, []⟩⟩] := rfl
  apply h true [] coalesced ⟨coalesced, ⟨coalesced.root.drop 24, []⟩⟩ (by simp [hread]) .root
  have htake : takeBuffered true (coalesced.root.drop 24) =
      .ok (some ⟨0, some (.bool true), some 0⟩, []) := rfl
  exact .here htake rfl

end XitForge.Xpc
