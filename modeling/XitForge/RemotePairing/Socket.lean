import XitForge.RemotePairing.Framing

/-!
The frames of an `RpPairingSocket`: the magic, the length of the JSON text in two bytes, and
the text. The sender casts the length to `u16` without a look at it, and the receiver reads the
magic and does not compare it.
-/
namespace XitForge.RemotePairing.RpPairingSocket

open RustEval ByteStream JsonValue

section Model

/-- b"RPPairing" -/
def RPPAIRING_MAGIC : List UInt8 := [0x52, 0x50, 0x50, 0x61, 0x69, 0x72, 0x69, 0x6e, 0x67]

/-- The serde_json, plist and base64 crates. `toPlist` is `none` for a value that a property
list has no place for. -/
structure Serde (Plist : Type) where
  toString : Value → List UInt8
  fromSlice : Parse
  toPlist : Value → Option Plist
  encode : List UInt8 → String

/-- A message for `send_plain` or `send_encrypted`. -/
inductive Outgoing where
  | plain (value : Value) (seq : UInt64)
  | encrypted (ciphertext : List UInt8) (seq : UInt64)

variable {Plist : Type} (serde : Serde Plist) (originatedBy : String)

def Outgoing.envelope : Outgoing → Value
  | .plain value seq => .object [
      ("message", .object [("plain", .object [("_0", value)])]),
      ("originatedBy", .string originatedBy),
      ("sequenceNumber", .number (.posInt seq))]
  | .encrypted ciphertext seq => .object [
      ("message", .object [("streamEncrypted",
        .object [("_0", .string (serde.encode ciphertext))])]),
      ("originatedBy", .string originatedBy),
      ("sequenceNumber", .number (.posInt seq))]

/-- `send_rppairing` to a stream with these bytes on it. `x.len() as u16` keeps the two low
bytes of the length. -/
def sendRppairing (value : Value) (written : List UInt8) : Eval ReadError Unit × List UInt8 :=
  let x := serde.toString value
  let frame := RPPAIRING_MAGIC ++ (beBytes 2 x.length ++ x)
  (.ok (), written ++ frame)

def Outgoing.send (message : Outgoing) (written : List UInt8) :
    Eval ReadError Unit × List UInt8 :=
  sendRppairing serde (message.envelope serde originatedBy) written

/-- The messages that are sent without an error, and the stream behind all of them. -/
def sendAll : List Outgoing → List UInt8 → List Outgoing × List UInt8
  | [], written => ([], written)
  | message :: rest, written =>
    match message.send serde originatedBy written with
    | (.ok (), written) =>
      let (sent, written) := sendAll rest written
      (message :: sent, written)
    | (_, written) => sendAll rest written

/-- The value of a plain message, or the whole envelope. -/
def received (value : Value) : Value :=
  match ((value.get "message").bind (Value.get "plain")).bind (Value.get "_0") with
  | some v => v
  | none => value

def recvPlain (unread : List UInt8) : Eval ReadError (Plist × List UInt8) := do
  -- the magic is read and not looked at
  let (_, unread) ← AsyncReadExt.readExact RPPAIRING_MAGIC.length unread
  let (packetLen, unread) ← AsyncReadExt.readExact 2 unread
  let (value, unread) ← AsyncReadExt.readExact (beValue packetLen) unread
  let value ← RemotePairing.fromSlice serde.fromSlice ReadError.json value
  match serde.toPlist (received value) with
  | some plist => pure (plist, unread)
  | none => .panic

/-- What so many calls of `recv_plain` return, up to the first that fails. -/
def recvAll : ℕ → List UInt8 → List (Eval ReadError Plist)
  | 0, _ => []
  | calls + 1, unread =>
    match recvPlain serde unread with
    | .ok (plist, unread) => .ok plist :: recvAll calls unread
    | .err error => [.err error]
    | .panic => [.panic]

end Model

section Frames

variable {Plist : Type} {serde : Serde Plist} {originatedBy : String}

theorem received_plain (value : Value) (seq : UInt64) :
    received ((Outgoing.plain value seq).envelope serde originatedBy) = value := by
  simp [received, Outgoing.envelope, Value.get]

theorem recvPlain_eq_ok_iff {unread rest : List UInt8} {plist : Plist} :
    recvPlain serde unread = .ok (plist, rest) ↔ ∃ front len body value,
      unread = front ++ (len ++ (body ++ rest)) ∧ front.length = 9 ∧ len.length = 2 ∧
        body.length = beValue len ∧ serde.fromSlice body = .ok value ∧
        serde.toPlist (received value) = some plist := by
  unfold recvPlain
  constructor
  · intro h
    obtain ⟨⟨front, afterMagic⟩, hmagic, hlen⟩ := Eval.bind_eq_ok.mp h
    obtain ⟨⟨len, afterLen⟩, hlen, hbody⟩ := Eval.bind_eq_ok.mp hlen
    obtain ⟨⟨body, afterBody⟩, hbody, hvalue⟩ := Eval.bind_eq_ok.mp hbody
    obtain ⟨value, hvalue, hplist⟩ := Eval.bind_eq_ok.mp hvalue
    have hunread := AsyncReadExt.readExact_eq_ok_iff.mp hmagic
    have hafterMagic := AsyncReadExt.readExact_eq_ok_iff.mp hlen
    have hafterLen := AsyncReadExt.readExact_eq_ok_iff.mp hbody
    have hreceived : serde.toPlist (received value) = some plist ∧ afterBody = rest := by
      cases hcase : serde.toPlist (received value) with
      | some plist' =>
        rw [hcase] at hplist
        cases hplist
        exact ⟨rfl, rfl⟩
      | none =>
        rw [hcase] at hplist
        cases hplist
    refine ⟨front, len, body, value, ?_, hunread.2, hafterMagic.2, hafterLen.2,
      fromSlice_eq_ok_iff.mp hvalue, hreceived.1⟩
    rw [← hreceived.2, ← hafterLen.1, ← hafterMagic.1]
    exact hunread.1
  · intro hgiven
    obtain ⟨front, len, body, value, rfl, hfront, hlen, hbody, hvalue, hplist⟩ := hgiven
    have hmagic : AsyncReadExt.readExact RPPAIRING_MAGIC.length (front ++ (len ++ (body ++ rest))) =
        .ok (front, len ++ (body ++ rest)) := AsyncReadExt.readExact_eq_ok_iff.mpr ⟨rfl, hfront⟩
    rw [hmagic, Eval.ok_bind]
    dsimp only
    rw [AsyncReadExt.readExact_eq_ok_iff.mpr ⟨rfl, hlen⟩, Eval.ok_bind]
    dsimp only
    rw [AsyncReadExt.readExact_eq_ok_iff.mpr ⟨rfl, hbody⟩, Eval.ok_bind]
    dsimp only
    rw [fromSlice_eq_ok_iff.mpr hvalue, Eval.ok_bind, hplist]
    rfl

/-- The frame of a JSON text. -/
def frame (x : List UInt8) : List UInt8 := RPPAIRING_MAGIC ++ (beBytes 2 x.length ++ x)

theorem sendAll_eq (messages : List Outgoing) (written : List UInt8) :
    sendAll serde originatedBy messages written =
      (messages, written ++ messages.flatMap fun message =>
        frame (serde.toString (message.envelope serde originatedBy))) := by
  induction messages generalizing written with
  | nil => rw [List.flatMap_nil, List.append_nil, sendAll]
  | cons message rest ih =>
    rw [sendAll, Outgoing.send, sendRppairing]
    dsimp only
    rw [ih, List.flatMap_cons, List.append_assoc]
    rfl

/-- A text that fits is read back with what follows it. -/
theorem recvPlain_frame {x : List UInt8} {value : Value} {plist : Plist}
    (hshort : x.length ≤ 65535) (hparse : serde.fromSlice x = .ok value)
    (hplist : serde.toPlist (received value) = some plist) (rest : List UInt8) :
    recvPlain serde (frame x ++ rest) = .ok (plist, rest) := by
  refine recvPlain_eq_ok_iff.mpr ⟨RPPAIRING_MAGIC, beBytes 2 x.length, x, value, ?_, rfl,
    length_beBytes .., ?_, hparse, hplist⟩
  · rw [frame, List.append_assoc, List.append_assoc]
  · rw [beValue_beBytes (by omega)]

/-- A text that is read back is the one that was sent, if no shorter front of it is JSON. -/
theorem frame_of_recvPlain {x rest tail : List UInt8} {value : Value} {plist : Plist}
    (hparse : serde.fromSlice x = .ok value)
    (hfront : ∀ size < x.length, ∀ other, serde.fromSlice (x.take size) ≠ .ok other)
    (h : recvPlain serde (frame x ++ rest) = .ok (plist, tail)) :
    x.length ≤ 65535 ∧ serde.toPlist (received value) = some plist ∧ tail = rest := by
  obtain ⟨front, len, body, value', heq, hmagic, hlen, hbody, hparse', hplist⟩ :=
    recvPlain_eq_ok_iff.mp h
  rw [frame, List.append_assoc, List.append_assoc] at heq
  obtain ⟨-, heq⟩ := List.append_inj heq hmagic.symm
  obtain ⟨hdeclared, heq⟩ := List.append_inj heq ((length_beBytes ..).trans hlen.symm)
  rw [← hdeclared, beValue_beBytes_mod] at hbody
  have hcut : body = x.take (x.length % 256 ^ 2) := by
    have hle : x.length % 256 ^ 2 ≤ x.length := Nat.mod_le ..
    have htake := congrArg (List.take (x.length % 256 ^ 2)) heq
    rw [List.take_append_of_le_length hle, List.take_left' hbody] at htake
    exact htake.symm
  have hshort : x.length ≤ 65535 := by
    by_contra hlong
    refine hfront (x.length % 256 ^ 2) ?_ value' ?_
    · omega
    · rw [← hcut]
      exact hparse'
  have hwhole : body = x := by
    rw [hcut]
    exact List.take_of_length_le (by omega)
  subst hwhole
  rw [hparse] at hparse'
  cases hparse'
  exact ⟨hshort, hplist, (List.append_cancel_left heq).symm⟩

/-- The messages that are sent without an error are what as many calls of `recv_plain` return,
and a message that is sent with one leaves the stream as it is. -/
def RoundTrips (serde : Serde Plist) (originatedBy : String) (messages : List Outgoing) : Prop :=
  (∃ plists : List Plist,
    recvAll serde (sendAll serde originatedBy messages []).1.length
      (sendAll serde originatedBy messages []).2 = plists.map Eval.ok ∧
    (sendAll serde originatedBy messages []).1.map (fun message =>
      serde.toPlist (received (message.envelope serde originatedBy))) = plists.map some) ∧
  ∀ message ∈ messages, ∀ written error,
    (message.send serde originatedBy written).1 = .err error →
      (message.send serde originatedBy written).2 = written

/-- The JSON text of the message's envelope: it reads as the envelope, and no shorter front of
it is JSON. -/
structure Printed (serde : Serde Plist) (originatedBy : String) (message : Outgoing) : Prop where
  parses : serde.fromSlice (serde.toString (message.envelope serde originatedBy)) =
    .ok (message.envelope serde originatedBy)
  front : ∀ size < (serde.toString (message.envelope serde originatedBy)).length, ∀ value,
    serde.fromSlice ((serde.toString (message.envelope serde originatedBy)).take size) ≠ .ok value

/-- The text fits the two bytes of the length, and the receiver's property list has a place for
the message. -/
def Fits (serde : Serde Plist) (originatedBy : String) (message : Outgoing) : Prop :=
  (serde.toString (message.envelope serde originatedBy)).length ≤ 65535 ∧
    ∃ plist, serde.toPlist (received (message.envelope serde originatedBy)) = some plist

theorem recvAll_frames_iff {messages : List Outgoing}
    (h : ∀ message ∈ messages, Printed serde originatedBy message) :
    (∃ plists : List Plist, recvAll serde messages.length (messages.flatMap fun message =>
        frame (serde.toString (message.envelope serde originatedBy))) = plists.map Eval.ok ∧
      messages.map (fun message =>
        serde.toPlist (received (message.envelope serde originatedBy))) = plists.map some) ↔
      ∀ message ∈ messages, Fits serde originatedBy message := by
  induction messages with
  | nil => exact iff_of_true ⟨[], rfl, rfl⟩ fun _ hmem => absurd hmem List.not_mem_nil
  | cons message rest ih =>
    have hfirst := h message List.mem_cons_self
    have hrest := ih fun other hother => h other (List.mem_cons_of_mem _ hother)
    rw [List.flatMap_cons, List.length_cons, recvAll, List.forall_mem_cons, ← hrest]
    constructor
    · intro hgiven
      obtain ⟨plists, hreceived, hsent⟩ := hgiven
      cases hrecv : recvPlain serde (frame (serde.toString (message.envelope serde originatedBy)) ++
          rest.flatMap fun message =>
            frame (serde.toString (message.envelope serde originatedBy))) with
      | ok result =>
        obtain ⟨plist, tail⟩ := result
        obtain ⟨hshort, hplist, rfl⟩ := frame_of_recvPlain hfirst.parses hfirst.front hrecv
        rw [hrecv] at hreceived
        cases plists with
        | nil => cases hreceived
        | cons head plists =>
          obtain ⟨-, hreceived⟩ := List.cons.inj hreceived
          obtain ⟨-, hsent⟩ := List.cons.inj hsent
          exact ⟨⟨hshort, plist, hplist⟩, plists, hreceived, hsent⟩
      | err error =>
        rw [hrecv] at hreceived
        cases plists <;> cases hreceived
      | panic =>
        rw [hrecv] at hreceived
        cases plists <;> cases hreceived
    · intro hgiven
      obtain ⟨⟨hshort, plist, hplist⟩, plists, hreceived, hsent⟩ := hgiven
      refine ⟨plist :: plists, ?_, ?_⟩
      · rw [recvPlain_frame hshort hfirst.parses hplist]
        exact congrArg (Eval.ok plist :: ·) hreceived
      · rw [List.map_cons, List.map_cons, hplist, hsent]

/-- A frame at the front of a stream that `recv_plain` accepts, whatever its magic is. -/
def HoldsFrame (serde : Serde Plist) (unread : List UInt8) : Prop :=
  ∃ front len body rest value plist, unread = front ++ (len ++ (body ++ rest)) ∧
    front.length = 9 ∧ len.length = 2 ∧ body.length = beValue len ∧
    serde.fromSlice body = .ok value ∧ serde.toPlist (received value) = some plist

/-- Messages are read back exactly if the text of each fits its length, and only a stream that
begins with the magic is accepted exactly if it does, or holds no frame at all. -/
theorem rppairing_framing_iff (serde : Serde Plist) (originatedBy : String)
    (messages : List Outgoing) (unread : List UInt8)
    (h : ∀ message ∈ messages, Printed serde originatedBy message) :
    (RoundTrips serde originatedBy messages ↔
        ∀ message ∈ messages, Fits serde originatedBy message) ∧
      ((∀ plist rest, recvPlain serde unread = .ok (plist, rest) →
          RPPAIRING_MAGIC <+: unread) ↔
        RPPAIRING_MAGIC <+: unread ∨ ¬ HoldsFrame serde unread) := by
  constructor
  · rw [← recvAll_frames_iff h, RoundTrips, sendAll_eq, List.nil_append]
    refine and_iff_left ?_
    intro message _ written error herror
    cases herror
  · constructor
    · intro haccepts
      by_cases hholds : HoldsFrame serde unread
      · obtain ⟨front, len, body, rest, value, plist, hframe⟩ := hholds
        exact Or.inl (haccepts plist rest
          (recvPlain_eq_ok_iff.mpr ⟨front, len, body, value, hframe⟩))
      · exact Or.inr hholds
    · rintro (hmagic | hnone) plist rest haccepted
      · exact hmagic
      · obtain ⟨front, len, body, value, hframe⟩ := recvPlain_eq_ok_iff.mp haccepted
        exact absurd ⟨front, len, body, rest, value, plist, hframe⟩ hnone

/-- The empty string as a message. -/
def emptyText : Outgoing := .plain (.string "") 1

def emptyTextBytes : List UInt8 :=
  ("\x7b\"message\":\x7b\"plain\":\x7b\"_0\":\"\"\x7d\x7d,".toList ++
    "\"originatedBy\":\"host\",\"sequenceNumber\":1\x7d".toList).map
      fun c => UInt8.ofNat c.toNat

/-- Crates that know the envelope of this message. -/
def emptyTextSerde : Serde Unit where
  toString _ := emptyTextBytes
  fromSlice bytes :=
    if bytes = emptyTextBytes then .ok (.object [
      ("message", .object [("plain", .object [("_0", .string "")])]),
      ("originatedBy", .string "host"),
      ("sequenceNumber", .number (.posInt 1))])
    else .error "expected value"
  toPlist _ := some ()
  encode _ := ""

theorem emptyText_printed : Printed emptyTextSerde "host" emptyText where
  parses := by
    unfold emptyTextSerde
    dsimp only
    exact if_pos rfl
  front := by
    intro size hsize value hparse
    have hne : emptyTextBytes.take size ≠ emptyTextBytes := by
      intro heq
      have hlength := congrArg List.length heq
      rw [List.length_take] at hlength
      change size < emptyTextBytes.length at hsize
      omega
    change (if emptyTextBytes.take size = emptyTextBytes then _ else _) = _ at hparse
    rw [if_neg hne] at hparse
    cases hparse

theorem rppairing_framing_iff_emptyText :
    (RoundTrips emptyTextSerde "host" [emptyText] ↔
        ∀ message ∈ [emptyText], Fits emptyTextSerde "host" message) ∧
      ((∀ plist rest, recvPlain emptyTextSerde (frame emptyTextBytes) = .ok (plist, rest) →
          RPPAIRING_MAGIC <+: frame emptyTextBytes) ↔
        RPPAIRING_MAGIC <+: frame emptyTextBytes ∨
          ¬ HoldsFrame emptyTextSerde (frame emptyTextBytes)) :=
  rppairing_framing_iff emptyTextSerde "host" [emptyText] (frame emptyTextBytes)
    (List.forall_mem_singleton.mpr emptyText_printed)

/-- Nine zero bytes in the place of the magic. -/
def zeroMagic : List UInt8 :=
  List.replicate 9 0 ++ (beBytes 2 emptyTextBytes.length ++ (emptyTextBytes ++ []))

theorem zeroMagic_accepted :
    ¬ ∀ plist rest, recvPlain emptyTextSerde zeroMagic = .ok (plist, rest) →
      RPPAIRING_MAGIC <+: zeroMagic := by
  intro haccepts
  have haccepted : recvPlain emptyTextSerde zeroMagic = .ok ((), []) := by
    refine recvPlain_eq_ok_iff.mpr ⟨List.replicate 9 0, beBytes 2 emptyTextBytes.length,
      emptyTextBytes, _, rfl, rfl, length_beBytes .., ?_, emptyText_printed.parses, rfl⟩
    rw [beValue_beBytes (by decide)]
  obtain ⟨tail, htail⟩ := haccepts () [] haccepted
  cases htail

end Frames

end XitForge.RemotePairing.RpPairingSocket
