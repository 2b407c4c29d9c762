import XitForge.Dvt.AuxCodec
import XitForge.Dvt.MessageSafety

/-!
The writers of DTX messages and of raw replies, and what the reader of the peer makes of
them: a message in several fragments is the message in one, and a reply finds the
channel of the message that it answers.
-/
namespace XitForge.Dvt

open RustEval
open Xpc (fromLEBytes leAt leAt_behind leAt_append leAt_take slice toLEBytes toLEBytes_length
  PlistValue)

/-- `i32::to_le_bytes`. -/
def channelBytes (channel : Int32) : List UInt8 := toLEBytes 4 channel.toUInt32.toNat

/-- `MessageHeader::serialize`. -/
def MessageHeader.serialize (header : MessageHeader) : List UInt8 :=
  toLEBytes 4 header.magic ++ toLEBytes 4 header.headerLen ++ toLEBytes 2 header.fragmentId ++
    toLEBytes 2 header.fragmentCount ++ toLEBytes 4 header.length ++
    toLEBytes 4 header.identifier ++ toLEBytes 4 header.conversationIndex ++
    channelBytes header.channel ++ toLEBytes 4 (if header.expectsReply then 1 else 0)

/-- `PayloadHeader::serialize`. -/
def PayloadHeader.serialize (header : PayloadHeader) : List UInt8 :=
  [header.msgType, header.flagsA, header.flagsB, header.reserved] ++
    toLEBytes 4 header.auxLength ++ toLEBytes 4 header.totalLength ++ toLEBytes 4 header.flags

/-- The data of a message. A value that cannot be encoded panics. -/
def encodeData (encode : PlistValue → Option (List UInt8)) :
    Option PlistValue → Eval ReadError (List UInt8)
  | none => .ok []
  | some value =>
    match encode value with
    | some data => .ok data
    | none => .panic

/-- `Message::serialize`. -/
def Message.serialize (encode : PlistValue → Option (List UInt8)) (message : Message) :
    Eval ReadError (List UInt8) := do
  let aux := (message.aux.map Aux.serialize).getD []
  let data ← encodeData encode message.data
  let payloadHeader := { message.payloadHeader with
    auxLength := aux.length % 2 ^ 32, totalLength := (aux.length + data.length) % 2 ^ 32 }
  let payloadHeader := payloadHeader.serialize
  let messageHeader := { message.messageHeader with
    length := (payloadHeader.length + aux.length + data.length) % 2 ^ 32 }
  .ok (messageHeader.serialize ++ payloadHeader ++ aux ++ data)

/-- The channel that a raw reply has on the wire. -/
def replyChannel (checks : Bool) (channel : Int32) (conversationIndex : ℕ) : Eval ReadError Int32 :=
  if conversationIndex % 2 = 0 then .ok channel else negate checks channel

/-- `Message::build_raw_reply`. -/
def buildRawReply (checks : Bool) (channel : Int32) (incomingMsgId incomingConversationIndex : ℕ)
    (dataBytes : List UInt8) : Eval ReadError (List UInt8) := do
  let conversationIndex ← Eval.add 32 checks incomingConversationIndex 1
  let wireChannel ← replyChannel checks channel conversationIndex
  let header : MessageHeader := {
    magic := 0x1F3D5B79, headerLen := 32, fragmentId := 0, fragmentCount := 1
    length := (16 + dataBytes.length) % 2 ^ 32, identifier := incomingMsgId
    conversationIndex, channel := wireChannel, expectsReply := false }
  let payloadHeader : PayloadHeader := {
    msgType := if dataBytes.isEmpty then 0 else 3, flagsA := 0, flagsB := 0, reserved := 0
    auxLength := 0, totalLength := dataBytes.length % 2 ^ 32, flags := 0 }
  .ok (header.serialize ++ payloadHeader.serialize ++ dataBytes)

/-- A header as its fields hold it. -/
structure MessageHeader.Fits (header : MessageHeader) : Prop where
  magic : header.magic < 2 ^ 32
  headerLen : header.headerLen < 2 ^ 32
  fragmentId : header.fragmentId < 2 ^ 16
  fragmentCount : header.fragmentCount < 2 ^ 16
  length : header.length < 2 ^ 32
  identifier : header.identifier < 2 ^ 32
  conversationIndex : header.conversationIndex < 2 ^ 32

namespace Routing

section Headers

theorem length_serialize (header : MessageHeader) : header.serialize.length = 32 := by
  simp only [MessageHeader.serialize, channelBytes, List.length_append, toLEBytes_length]

theorem leAt_skip {width start : ℕ} (value : ℕ) (rest : List UInt8) (count : ℕ)
    (h : width ≤ start) :
    leAt (toLEBytes width value ++ rest) start count = leAt rest (start - width) count := by
  unfold leAt
  rw [List.drop_append, toLEBytes_length,
    List.drop_of_length_le (by rw [toLEBytes_length]; exact h), List.nil_append]

theorem leAt_zero {width value : ℕ} (rest : List UInt8) (h : value < 256 ^ width) :
    leAt (toLEBytes width value ++ rest) 0 width = value :=
  leAt_append [] rest width value h

/-- `i32::from_le_bytes` of the channel, for any header. -/
theorem wireChannel_serialize (header : MessageHeader) :
    wireChannel header.serialize = header.channel := by
  have hlt : header.channel.toUInt32.toNat < 256 ^ 4 := header.channel.toUInt32.toNat_lt
  have hfield : leAt header.serialize 24 4 = header.channel.toUInt32.toNat := by
    simp (disch := decide) only [MessageHeader.serialize, channelBytes, List.append_assoc,
      leAt_skip, Nat.reduceSub]
    exact leAt_zero _ hlt
  rw [wireChannel, hfield, UInt32.ofNat_toNat, Int32.toInt32_toUInt32]

/-- The channel that the reader makes of the one on the wire. -/
def decodeChannel (checks : Bool) (header : MessageHeader) : Eval ReadError Int32 :=
  if header.conversationIndex % 2 = 0 then negate checks header.channel else .ok header.channel

theorem parseHeader_serialize (checks : Bool) {header : MessageHeader} (h : header.Fits) :
    parseHeader checks header.serialize =
      decodeChannel checks header >>= fun channel => .ok { header with channel := channel } := by
  have hmagic : leAt header.serialize 0 4 = header.magic := by
    simp only [MessageHeader.serialize, List.append_assoc]
    exact leAt_zero _ h.magic
  have hheaderLen : leAt header.serialize 4 4 = header.headerLen := by
    simp (disch := decide) only [MessageHeader.serialize, List.append_assoc, leAt_skip,
      Nat.sub_self]
    exact leAt_zero _ h.headerLen
  have hfragmentId : leAt header.serialize 8 2 = header.fragmentId := by
    simp (disch := decide) only [MessageHeader.serialize, List.append_assoc, leAt_skip,
      Nat.reduceSub]
    exact leAt_zero _ h.fragmentId
  have hfragmentCount : leAt header.serialize 10 2 = header.fragmentCount := by
    simp (disch := decide) only [MessageHeader.serialize, List.append_assoc, leAt_skip,
      Nat.reduceSub]
    exact leAt_zero _ h.fragmentCount
  have hlength : leAt header.serialize 12 4 = header.length := by
    simp (disch := decide) only [MessageHeader.serialize, List.append_assoc, leAt_skip,
      Nat.reduceSub]
    exact leAt_zero _ h.length
  have hidentifier : leAt header.serialize 16 4 = header.identifier := by
    simp (disch := decide) only [MessageHeader.serialize, List.append_assoc, leAt_skip,
      Nat.reduceSub]
    exact leAt_zero _ h.identifier
  have hindex : leAt header.serialize 20 4 = header.conversationIndex := by
    simp (disch := decide) only [MessageHeader.serialize, List.append_assoc, leAt_skip,
      Nat.reduceSub]
    exact leAt_zero _ h.conversationIndex
  have hreply : (leAt header.serialize 28 4 == 1) = header.expectsReply := by
    have hflag : leAt header.serialize 28 4 = if header.expectsReply then 1 else 0 := by
      simp (disch := decide) only [MessageHeader.serialize, channelBytes, List.append_assoc,
        leAt_skip, Nat.reduceSub]
      rw [← List.append_nil (toLEBytes 4 _)]
      exact leAt_zero [] (by split <;> decide)
    rw [hflag]
    cases header.expectsReply <;> rfl
  unfold parseHeader decodeChannel
  rw [wireChannel_serialize, hmagic, hheaderLen, hfragmentId, hfragmentCount, hlength, hidentifier,
    hindex, hreply]
  by_cases heven : header.conversationIndex % 2 = 0
  · dsimp only
    rw [if_pos heven, if_pos heven]
    rfl
  · dsimp only
    rw [if_neg heven, if_neg heven]
    rfl

end Headers

section Fragments

/-- A fragment that carries a piece of a body. -/
def fragment (header : MessageHeader) (id count : ℕ) (piece : List UInt8) : List UInt8 :=
  { header with fragmentId := id, fragmentCount := count, length := piece.length }.serialize ++
    piece

/-- A message in one fragment. -/
def whole (header : MessageHeader) (body : List UInt8) : List UInt8 := fragment header 0 1 body

/-- The fragments from a number on. -/
def fragmentsFrom (header : MessageHeader) (count : ℕ) : ℕ → List (List UInt8) → List UInt8
  | _, [] => []
  | id, piece :: rest => fragment header id count piece ++ fragmentsFrom header count (id + 1) rest

/-- A message in several fragments, the first of which is a header alone. -/
def fragmented (header : MessageHeader) (announced : ℕ) (pieces : List (List UInt8)) : List UInt8 :=
  { header with fragmentId := 0, fragmentCount := pieces.length + 1,
                length := announced }.serialize ++
    fragmentsFrom header (pieces.length + 1) 1 pieces

/-- What a receiver makes of a message, apart from the numbers of its fragments. -/
def content (result : Message × List UInt8) :
    Option Aux × Option PlistValue × ℕ × ℕ × Int32 × List UInt8 :=
  (result.1.aux, result.1.data, result.1.messageHeader.identifier,
    result.1.messageHeader.conversationIndex, result.1.messageHeader.channel, result.2)

def received (checks : Bool) (archive : Archive) (stream : List UInt8) :
    Eval ReadError (Option Aux × Option PlistValue × ℕ × ℕ × Int32 × List UInt8) :=
  Message.fromReader checks archive stream >>= fun result => .ok (content result)

variable {checks : Bool} {header : MessageHeader} {channel : Int32}

theorem readStream_append (piece rest : List UInt8) :
    readStream piece.length (piece ++ rest) = .ok (piece, rest) := by
  unfold readStream
  rw [if_pos (by rw [List.length_append]; omega), List.take_left, List.drop_left]

/-- A round of the reader before a header. -/
theorem readFragments_header {fuel : ℕ} (packet stream : List UInt8) (h : header.Fits) :
    readFragments checks (fuel + 1) packet (header.serialize ++ stream) =
      decodeChannel checks header >>= fun channel =>
        if 1 < header.fragmentCount ∧ header.fragmentId = 0 then
          readFragments checks fuel packet stream
        else readStream header.length stream >>= fun (buf, stream) =>
          Eval.sub 16 checks header.fragmentCount 1 >>= fun last =>
            if header.fragmentId = last then
              .ok ({ header with channel := channel }, packet ++ buf, stream)
            else readFragments checks fuel (packet ++ buf) stream := by
  have hread := readStream_append header.serialize stream
  rw [length_serialize] at hread
  rw [readFragments, hread, Eval.ok_bind]
  dsimp only
  rw [parseHeader_serialize checks h]
  cases decodeChannel checks header with
  | ok channel => rfl
  | err error => rfl
  | panic => rfl

/-- A fragment that carries a piece. -/
theorem readFragments_fragment {fuel id count : ℕ} (packet piece stream : List UInt8)
    (h : header.Fits) (hid : id < count) (hcount : count < 2 ^ 16) (hpiece : piece.length < 2 ^ 32)
    (hannounces : ¬ (1 < count ∧ id = 0)) (hchannel : decodeChannel checks header = .ok channel) :
    readFragments checks (fuel + 1) packet (fragment header id count piece ++ stream) =
      if id + 1 = count then
        .ok ({ header with
          fragmentId := id, fragmentCount := count, length := piece.length, channel := channel },
          packet ++ piece, stream)
      else readFragments checks fuel (packet ++ piece) stream := by
  have hfits : MessageHeader.Fits
      { header with fragmentId := id, fragmentCount := count, length := piece.length } :=
    { h with fragmentId := Nat.lt_trans hid hcount, fragmentCount := hcount, length := hpiece }
  have hsame : decodeChannel checks
      { header with fragmentId := id, fragmentCount := count, length := piece.length } =
      .ok channel := hchannel
  rw [fragment, List.append_assoc, readFragments_header packet _ hfits, hsame, Eval.ok_bind,
    if_neg hannounces, readStream_append, Eval.ok_bind]
  dsimp only
  rw [Eval.sub_of_le (by omega), Eval.ok_bind]
  by_cases hlast : id + 1 = count
  · rw [if_pos hlast, if_pos (by omega)]
  · rw [if_neg hlast, if_neg (by omega)]

/-- The fragments behind the first one are put together. -/
theorem readFragments_from {fuel id count : ℕ} {pieces : List (List UInt8)}
    (packet rest : List UInt8) (h : header.Fits) (hpos : 0 < id) (hne : pieces ≠ [])
    (hid : id + pieces.length = count) (hcount : count < 2 ^ 16)
    (hpieces : ∀ piece ∈ pieces, piece.length < 2 ^ 32) (hfuel : pieces.length < fuel)
    (hchannel : decodeChannel checks header = .ok channel) :
    ∃ length, readFragments checks fuel packet (fragmentsFrom header count id pieces ++ rest) =
      .ok ({ header with
        fragmentId := count - 1, fragmentCount := count, length := length, channel := channel },
        packet ++ pieces.flatten, rest) := by
  induction pieces generalizing fuel id packet with
  | nil => exact absurd rfl hne
  | cons piece pieces ih =>
    obtain ⟨fuel, rfl⟩ : ∃ n, fuel = n + 1 := ⟨fuel - 1, by omega⟩
    rw [List.length_cons] at hid hfuel
    rw [fragmentsFrom, List.append_assoc, readFragments_fragment packet piece _ h (by omega) hcount
      (hpieces piece List.mem_cons_self) (by omega) hchannel]
    by_cases hlast : pieces = []
    · subst hlast
      rw [List.length_nil] at hid
      refine ⟨piece.length, ?_⟩
      have hsub : count - 1 = id := by omega
      rw [if_pos hid, hsub]
      simp [fragmentsFrom]
    · have hcons : id + 1 ≠ count := by
        have hlen := List.length_pos_iff.mpr hlast
        omega
      have hfuel' : pieces.length < fuel := by omega
      obtain ⟨length, hread⟩ := ih (packet ++ piece) (Nat.succ_pos id) hlast (by omega)
        (fun other hother => hpieces other (List.mem_cons_of_mem _ hother)) hfuel'
      refine ⟨length, ?_⟩
      rw [if_neg hcons, hread, List.flatten_cons, List.append_assoc]

theorem bind_eq_bind {α β γ : Type} {first : Eval ReadError α} {next : α → Eval ReadError γ}
    {next' : α → Eval ReadError β} {last : β → Eval ReadError γ}
    (h : ∀ value, next value = next' value >>= last) :
    (first >>= next) = (first >>= next') >>= last := by
  cases first with
  | ok value => exact h value
  | err error => rfl
  | panic => rfl

/-- The header of a message has no part in reading its packet. -/
theorem parsePacket_header (archive : Archive) (header header' : MessageHeader)
    (packet : List UInt8) :
    parsePacket checks archive header packet =
      parsePacket checks archive header' packet >>= fun message =>
        .ok { message with messageHeader := header } := by
  have hdata (pheader : PayloadHeader) (aux : Option Aux) :
      parseData checks archive header packet pheader aux =
        parseData checks archive header' packet pheader aux >>= fun message =>
          .ok { message with messageHeader := header } := by
    unfold parseData
    refine bind_eq_bind fun needLen => bind_eq_bind fun start => bind_eq_bind fun stop =>
      bind_eq_bind fun stop => bind_eq_bind fun buf => ?_
    split
    · rfl
    · cases archive buf with
      | some data => rfl
      | none => rfl
  unfold parsePacket
  refine bind_eq_bind fun buf => ?_
  dsimp only
  split
  · exact bind_eq_bind fun stop => bind_eq_bind fun buf => bind_eq_bind fun aux => hdata _ _
  · exact hdata _ _

theorem received_of_read (archive : Archive) {stream packet rest : List UInt8}
    {last : MessageHeader} (header : MessageHeader)
    (hread : readFragments checks (stream.length + 1) [] stream = .ok (last, packet, rest))
    (hlast : last.identifier = header.identifier ∧
      last.conversationIndex = header.conversationIndex ∧ last.channel = header.channel) :
    received checks archive stream = parsePacket checks archive header packet >>= fun message =>
      .ok (content (message, rest)) := by
  obtain ⟨hidentifier, hindex, hchannel⟩ := hlast
  rw [received, Message.fromReader, hread, Eval.ok_bind]
  dsimp only
  rw [parsePacket_header archive last header, parsePacket_header archive header header]
  cases parsePacket checks archive header packet with
  | ok message =>
    show Eval.ok (_, _, last.identifier, last.conversationIndex, last.channel, _) = _
    rw [hidentifier, hindex, hchannel]
    rfl
  | err error => rfl
  | panic => rfl

/-- Where the channel has no negative, both ways panic. -/
theorem received_of_decode_ne_ok (archive : Archive) {stream : List UInt8} (h : header.Fits)
    (hchannel : ∀ channel, decodeChannel checks header ≠ .ok channel) :
    received checks archive (header.serialize ++ stream) = .panic := by
  have hpanic : decodeChannel checks header = .panic := by
    cases hdecode : decodeChannel checks header with
    | ok channel => exact absurd hdecode (hchannel channel)
    | err error =>
      unfold decodeChannel negate at hdecode
      split at hdecode
      · split at hdecode <;> cases hdecode
      · cases hdecode
    | panic => rfl
  rw [received, Message.fromReader, readFragments_header [] stream h, hpanic]
  rfl

theorem length_le_fragmentsFrom (header : MessageHeader) (count id : ℕ)
    (pieces : List (List UInt8)) :
    pieces.length ≤ (fragmentsFrom header count id pieces).length := by
  induction pieces generalizing id with
  | nil => exact Nat.zero_le _
  | cons piece rest ih =>
    have hrest := ih (id + 1)
    rw [fragmentsFrom, fragment, List.length_append, List.length_append, length_serialize,
      List.length_cons]
    omega

/-- A body cut into pieces is received as the body in one fragment. -/
theorem received_fragmented (archive : Archive) {announced : ℕ} {pieces : List (List UInt8)}
    (rest : List UInt8) (h : header.Fits) (hannounced : announced < 2 ^ 32) (hne : pieces ≠ [])
    (hcount : pieces.length + 1 < 2 ^ 16) (hbody : pieces.flatten.length < 2 ^ 32) :
    received checks archive (fragmented header announced pieces ++ rest) =
      received checks archive (whole header pieces.flatten ++ rest) := by
  have hfirst : MessageHeader.Fits { header with
      fragmentId := 0, fragmentCount := pieces.length + 1, length := announced } :=
    { h with fragmentId := Nat.two_pow_pos 16, fragmentCount := hcount, length := hannounced }
  have hwhole : MessageHeader.Fits { header with
      fragmentId := 0, fragmentCount := 1, length := pieces.flatten.length } :=
    { h with
      fragmentId := Nat.two_pow_pos 16, fragmentCount := Nat.one_lt_two_pow (by decide)
      length := hbody }
  have hpieces : ∀ piece ∈ pieces, piece.length < 2 ^ 32 := fun piece hmem =>
    Nat.lt_of_le_of_lt (List.sublist_flatten_of_mem hmem).length_le hbody
  by_cases hchannel : ∃ channel, decodeChannel checks header = .ok channel
  · obtain ⟨channel, hchannel⟩ := hchannel
    have hone : readFragments checks ((whole header pieces.flatten ++ rest).length + 1) []
        (whole header pieces.flatten ++ rest) =
        .ok ({ header with
          fragmentId := 0, fragmentCount := 1, length := pieces.flatten.length,
          channel := channel },
          [] ++ pieces.flatten, rest) := by
      rw [whole, readFragments_fragment [] _ rest h Nat.one_pos (Nat.one_lt_two_pow (by decide))
        hbody (fun hboth => absurd hboth.1 (Nat.lt_irrefl 1)) hchannel, if_pos rfl]
    have hlong : pieces.length < (fragmented header announced pieces ++ rest).length := by
      have hle := length_le_fragmentsFrom header (pieces.length + 1) 1 pieces
      rw [fragmented, List.append_assoc, List.length_append, List.length_append, length_serialize]
      omega
    obtain ⟨length, hmany⟩ := readFragments_from [] rest h Nat.one_pos hne (Nat.add_comm 1 _) hcount
      hpieces hlong hchannel
    have hread : readFragments checks ((fragmented header announced pieces ++ rest).length + 1) []
        (fragmented header announced pieces ++ rest) =
        .ok ({ header with
          fragmentId := pieces.length + 1 - 1, fragmentCount := pieces.length + 1
          length := length, channel := channel }, [] ++ pieces.flatten, rest) := by
      have hannounces : 1 < pieces.length + 1 ∧ (0 : ℕ) = 0 :=
        ⟨Nat.succ_lt_succ (List.length_pos_iff.mpr hne), rfl⟩
      have hsame : decodeChannel checks { header with
          fragmentId := 0, fragmentCount := pieces.length + 1, length := announced } =
          .ok channel := hchannel
      generalize (fragmented header announced pieces ++ rest).length = fuel at hmany ⊢
      rw [fragmented, List.append_assoc, readFragments_header [] _ hfirst, hsame, Eval.ok_bind,
        if_pos hannounces, hmany]
    rw [received_of_read archive { header with channel := channel } hone ⟨rfl, rfl, rfl⟩,
      received_of_read archive { header with channel := channel } hread ⟨rfl, rfl, rfl⟩]
  · have hnone : ∀ channel, decodeChannel checks header ≠ .ok channel :=
      fun channel heq => hchannel ⟨channel, heq⟩
    rw [fragmented, whole, fragment, List.append_assoc, List.append_assoc,
      received_of_decode_ne_ok archive hfirst hnone, received_of_decode_ne_ok archive hwhole hnone]

end Fragments

section Replies

variable {checks : Bool} {header : MessageHeader} {channel : Int32}

theorem neg_ne_minValue (h : channel ≠ Int32.minValue) : -channel ≠ Int32.minValue := by
  intro heq
  have hback : - -channel = channel := Int32.neg_neg
  rw [heq] at hback
  exact h hback.symm

theorem neg_eq_self_iff (h : channel ≠ Int32.minValue) : -channel = channel ↔ channel = 0 := by
  constructor
  · intro heq
    have hbits : (-channel).toBitVec = channel.toBitVec := congrArg Int32.toBitVec heq
    have hne : channel.toBitVec ≠ 0x80000000#32 := fun hmin => h (Int32.toBitVec_inj.mp hmin)
    have hzero : channel.toBitVec = 0#32 := by
      rw [Int32.toBitVec_neg] at hbits
      bv_omega
    exact Int32.toBitVec_inj.mp hzero
  · intro hsame
    subst hsame
    decide

theorem negate_eq (h : channel ≠ Int32.minValue) : negate checks channel = .ok (-channel) :=
  if_neg fun hboth => h hboth.2

theorem decodeChannel_even (heven : header.conversationIndex % 2 = 0)
    (h : header.channel ≠ Int32.minValue) :
    decodeChannel checks header = .ok (-header.channel) := by
  rw [decodeChannel, if_pos heven, negate_eq h]

theorem decodeChannel_odd (hodd : ¬ header.conversationIndex % 2 = 0) :
    decodeChannel checks header = .ok header.channel := if_neg hodd

/-- What is received in one fragment has the header that was sent, but for its channel. -/
theorem header_of_fromReader {archive : Archive} {stream rest : List UInt8} {message : Message}
    (h : header.Fits) (hid : header.fragmentId = 0) (hcount : header.fragmentCount = 1)
    (hread : Message.fromReader checks archive (header.serialize ++ stream) = .ok (message, rest)) :
    ∃ channel, decodeChannel checks header = .ok channel ∧
      message.messageHeader = { header with channel := channel } := by
  rw [Message.fromReader, readFragments_header [] stream h] at hread
  obtain ⟨⟨last, packet, rest'⟩, hfragments, hread⟩ := Eval.bind_eq_ok.mp hread
  obtain ⟨channel, hchannel, hfragments⟩ := Eval.bind_eq_ok.mp hfragments
  refine ⟨channel, hchannel, ?_⟩
  have hannounces : ¬ (1 < header.fragmentCount ∧ header.fragmentId = 0) := by
    rw [hcount]
    exact fun hboth => Nat.lt_irrefl 1 hboth.1
  rw [if_neg hannounces] at hfragments
  obtain ⟨⟨buf, stream'⟩, -, hfragments⟩ := Eval.bind_eq_ok.mp hfragments
  obtain ⟨last', hlast, hfragments⟩ := Eval.bind_eq_ok.mp hfragments
  rw [hcount] at hlast
  cases hlast
  rw [if_pos hid] at hfragments
  cases hfragments
  obtain ⟨message', hpacket, heq⟩ := Eval.bind_eq_ok.mp hread
  cases heq
  rw [parsePacket_header archive _ header] at hpacket
  obtain ⟨message', -, heq⟩ := Eval.bind_eq_ok.mp hpacket
  cases heq
  rfl

/-- Data that a reader takes: none, or an archive. -/
def Readable (archive : Archive) (data : List UInt8) : Prop :=
  data = [] ∨ ∃ value, archive data = some value

/-- A packet without auxiliary values. -/
theorem parsePacket_data {archive : Archive} {data : List UInt8} (msgType : UInt8)
    (hdata : Readable archive data) (hlen : 16 + data.length < 2 ^ 32) :
    ∃ message, parsePacket checks archive header (PayloadHeader.serialize {
      msgType, flagsA := 0, flagsB := 0, reserved := 0, auxLength := 0
      totalLength := data.length, flags := 0 } ++ data) = .ok message := by
  generalize hpacket : PayloadHeader.serialize {
    msgType, flagsA := 0, flagsB := 0, reserved := 0, auxLength := 0
    totalLength := data.length, flags := 0 } ++ data = packet
  have hlength : packet.length = 16 + data.length := by
    rw [← hpacket]
    simp only [PayloadHeader.serialize, List.length_append, toLEBytes_length, List.length_cons,
      List.length_nil]
  have haux : leAt packet 4 4 = 0 := by
    rw [← hpacket]
    simp only [PayloadHeader.serialize, List.append_assoc]
    exact leAt_zero _ (by decide)
  have htotal : leAt packet 8 4 = data.length := by
    rw [← hpacket]
    simp only [PayloadHeader.serialize, List.append_assoc]
    exact (leAt_skip 0 _ 4 (by decide : 4 ≤ 4)).trans (leAt_zero _ (by omega))
  have hdrop : packet.drop 16 = data := by
    rw [← hpacket]
    exact List.drop_left' (by simp [PayloadHeader.serialize])
  obtain ⟨pheader, hauxLength, htotalLength, hparse⟩ :=
    parsePacket_eq checks archive header (by omega : 16 ≤ packet.length)
  rw [show auxLength packet = 0 from haux] at hauxLength
  rw [show totalLength packet = data.length from htotal] at htotalLength
  have hbody : (slice packet 16 (0 + 16 + data.length) : Eval ReadError _) = .ok data := by
    rw [slice_eq packet (by omega) (by omega), hdrop, List.take_of_length_le (by omega)]
  rw [hparse, hauxLength, if_neg (Nat.lt_irrefl 0), parseData, hauxLength, htotalLength,
    Eval.sub_of_le (Nat.zero_le _), Eval.ok_bind, Eval.add_of_lt (by decide), Eval.ok_bind,
    Eval.add_of_lt (by decide), Eval.ok_bind, Nat.sub_zero, Eval.add_of_lt (by omega), Eval.ok_bind,
    hbody, Eval.ok_bind]
  rcases hdata with rfl | ⟨value, hvalue⟩
  · exact ⟨_, rfl⟩
  · split
    · exact ⟨_, rfl⟩
    · rw [hvalue]
      exact ⟨_, rfl⟩

/-- A reply is received with the header it was sent with, but for its channel. -/
theorem fromReader_reply {archive : Archive} {data : List UInt8} (msgType : UInt8)
    (h : header.Fits) (hid : header.fragmentId = 0) (hcount : header.fragmentCount = 1)
    (hlength : header.length = 16 + data.length) (hdata : Readable archive data)
    (hchannel : decodeChannel checks header = .ok channel) (rest : List UInt8) :
    ∃ reply, Message.fromReader checks archive (header.serialize ++ PayloadHeader.serialize {
        msgType, flagsA := 0, flagsB := 0, reserved := 0, auxLength := 0
        totalLength := data.length, flags := 0 } ++ data ++ rest) = .ok (reply, rest) ∧
      reply.messageHeader = { header with channel := channel } := by
  generalize hpacket : PayloadHeader.serialize {
    msgType, flagsA := 0, flagsB := 0, reserved := 0, auxLength := 0
    totalLength := data.length, flags := 0 } ++ data = packet
  have hsize : packet.length = header.length := by
    rw [← hpacket, hlength]
    simp only [PayloadHeader.serialize, List.length_append, toLEBytes_length, List.length_cons,
      List.length_nil]
  have hmax : 16 + data.length < 2 ^ 32 := hlength ▸ h.length
  obtain ⟨message, hmessage⟩ : ∃ message, parsePacket checks archive
      { header with channel := channel } _ = .ok message := parsePacket_data msgType hdata hmax
  have hread := readStream_append packet rest
  rw [hsize] at hread
  have hannounces : ¬ (1 < header.fragmentCount ∧ header.fragmentId = 0) := by
    rw [hcount]
    exact fun hboth => Nat.lt_irrefl 1 hboth.1
  have hfragments : readFragments checks ((header.serialize ++ (packet ++ rest)).length + 1) []
      (header.serialize ++ (packet ++ rest)) =
      .ok ({ header with channel := channel }, packet, rest) := by
    rw [readFragments_header [] _ h, hchannel, Eval.ok_bind, if_neg hannounces, hread, Eval.ok_bind]
    dsimp only
    rw [hcount, Eval.sub_of_le (Nat.le_refl 1), Eval.ok_bind, if_pos hid]
    rfl
  rw [hpacket] at hmessage
  refine ⟨message, ?_, ?_⟩
  · rw [List.append_assoc, List.append_assoc, ← List.append_assoc _ data, hpacket,
      Message.fromReader, hfragments, Eval.ok_bind]
    dsimp only
    rw [hmessage]
    rfl
  · rw [parsePacket_header archive _ header] at hmessage
    obtain ⟨message', -, heq⟩ := Eval.bind_eq_ok.mp hmessage
    cases heq
    rfl

/-- The sender of a frame decodes it with a channel, an identifier and an index. -/
def Decodes (checks : Bool) (archive : Archive) (frame : List UInt8) (channel : Int32)
    (identifier conversationIndex : ℕ) : Prop :=
  ∀ rest, ∃ reply, Message.fromReader checks archive (frame ++ rest) = .ok (reply, rest) ∧
    reply.messageHeader.channel = channel ∧ reply.messageHeader.identifier = identifier ∧
    reply.messageHeader.conversationIndex = conversationIndex

theorem replyChannel_eq (index : ℕ) (h : channel ≠ Int32.minValue) :
    replyChannel checks channel index = .ok (if index % 2 = 0 then channel else -channel) := by
  unfold replyChannel
  by_cases heven : index % 2 = 0
  · rw [if_pos heven, if_pos heven]
  · rw [if_neg heven, if_neg heven, negate_eq h]

/-- A raw reply is decoded with the negative of the channel it was built for, whatever
the parity of its index. -/
theorem buildRawReply_decodes {archive : Archive} {identifier index : ℕ} {data : List UInt8}
    (hmin : channel ≠ Int32.minValue) (hidentifier : identifier < 2 ^ 32)
    (hindex : index + 1 < 2 ^ 32) (hdata : Readable archive data)
    (hlen : 16 + data.length < 2 ^ 32) :
    ∃ frame, buildRawReply checks channel identifier index data = .ok frame ∧
      Decodes checks archive frame (-channel) identifier (index + 1) := by
  let wire : Int32 := if (index + 1) % 2 = 0 then channel else -channel
  let header : MessageHeader := {
    magic := 0x1F3D5B79, headerLen := 32, fragmentId := 0, fragmentCount := 1
    length := 16 + data.length, identifier, conversationIndex := index + 1
    channel := wire, expectsReply := false }
  have hfits : header.Fits := ⟨(by decide : 0x1F3D5B79 < 2 ^ 32), (by decide : 32 < 2 ^ 32),
    Nat.two_pow_pos 16, Nat.one_lt_two_pow (by decide), hlen, hidentifier, hindex⟩
  have hdecode : decodeChannel checks header = .ok (-channel) := by
    by_cases heven : (index + 1) % 2 = 0
    · have hwire : header.channel = channel := if_pos heven
      rw [decodeChannel_even heven (hwire ▸ hmin), hwire]
    · have hwire : header.channel = -channel := if_neg heven
      rw [decodeChannel_odd heven, hwire]
  have hbuild : buildRawReply checks channel identifier index data =
      .ok (header.serialize ++ PayloadHeader.serialize {
        msgType := if data.isEmpty then 0 else 3, flagsA := 0, flagsB := 0, reserved := 0
        auxLength := 0, totalLength := data.length, flags := 0 } ++ data) := by
    have htotal : data.length % 2 ^ 32 = data.length := Nat.mod_eq_of_lt (by omega)
    unfold buildRawReply
    rw [Eval.add_of_lt hindex, Eval.ok_bind, replyChannel_eq _ hmin, Eval.ok_bind,
      Nat.mod_eq_of_lt hlen, htotal]
  refine ⟨_, hbuild, fun rest => ?_⟩
  obtain ⟨reply, hread, hheader⟩ :=
    fromReader_reply (if data.isEmpty then 0 else 3) hfits rfl rfl rfl
    hdata hdecode rest
  refine ⟨reply, hread, ?_, ?_, ?_⟩
  · rw [hheader]
  · rw [hheader]
  · rw [hheader]

/-- The reply to a message finds the channel of the message. -/
def ReplyFinds (checks : Bool) (archive : Archive) (sent received : MessageHeader)
    (data : List UInt8) : Prop :=
  ∃ frame, buildRawReply checks received.channel received.identifier received.conversationIndex
      data = .ok frame ∧
    Decodes checks archive frame sent.channel sent.identifier (sent.conversationIndex + 1)

theorem Decodes.unique {archive : Archive} {frame : List UInt8} {channel' : Int32}
    {identifier identifier' index index' : ℕ}
    (h : Decodes checks archive frame channel identifier index)
    (h' : Decodes checks archive frame channel' identifier' index') : channel = channel' := by
  obtain ⟨reply, hread, rfl, -, -⟩ := h []
  obtain ⟨reply', hread', rfl, -, -⟩ := h' []
  rw [hread] at hread'
  cases hread'
  rfl

/-- The reply finds the channel just where the receiver has the negative of it. -/
theorem replyFinds_iff {archive : Archive} {sent received : MessageHeader} {data : List UInt8}
    (hmin : received.channel ≠ Int32.minValue) (hidentifier : received.identifier = sent.identifier)
    (hindex : received.conversationIndex = sent.conversationIndex)
    (hidentifierFits : sent.identifier < 2 ^ 32) (hindexFits : sent.conversationIndex + 1 < 2 ^ 32)
    (hdata : Readable archive data) (hlen : 16 + data.length < 2 ^ 32) :
    ReplyFinds checks archive sent received data ↔ -received.channel = sent.channel := by
  obtain ⟨frame, hbuild, hdecodes⟩ : ∃ frame, buildRawReply checks _ _ _ data = .ok frame ∧ _ :=
    buildRawReply_decodes hmin hidentifierFits hindexFits hdata hlen
  unfold ReplyFinds
  rw [hidentifier, hindex, hbuild]
  constructor
  · intro h
    obtain ⟨frame', heq, hdecodes'⟩ := h
    cases heq
    exact hdecodes.unique hdecodes'
  · intro hchannel
    rw [hchannel] at hdecodes
    exact ⟨frame, rfl, hdecodes⟩

/-- The header that a message of `serialize` is received with. -/
theorem header_of_serialize {archive : Archive} {encode : PlistValue → Option (List UInt8)}
    {sent message : Message} {bytes rest rest' : List UInt8} (h : sent.messageHeader.Fits)
    (hid : sent.messageHeader.fragmentId = 0) (hcount : sent.messageHeader.fragmentCount = 1)
    (hbytes : sent.serialize encode = .ok bytes)
    (hread : Message.fromReader checks archive (bytes ++ rest) = .ok (message, rest')) :
    decodeChannel checks sent.messageHeader = .ok message.messageHeader.channel ∧
      message.messageHeader.identifier = sent.messageHeader.identifier ∧
      message.messageHeader.conversationIndex = sent.messageHeader.conversationIndex := by
  obtain ⟨length, body, hlength, hsplit⟩ : ∃ length body, length < 2 ^ 32 ∧
      bytes = { sent.messageHeader with length := length }.serialize ++ body := by
    obtain ⟨data, -, hbytes⟩ := Eval.bind_eq_ok.mp hbytes
    dsimp only at hbytes
    rw [List.append_assoc, List.append_assoc] at hbytes
    exact ⟨_, _, Nat.mod_lt _ (Nat.two_pow_pos 32), (Eval.ok.inj hbytes).symm⟩
  have hfits : MessageHeader.Fits { sent.messageHeader with length := length } :=
    { h with length := hlength }
  rw [hsplit, List.append_assoc] at hread
  obtain ⟨channel, hchannel, hheader⟩ := header_of_fromReader hfits hid hcount hread
  rw [hheader]
  exact ⟨hchannel, rfl, rfl⟩

/-- A reply to a message of `serialize` finds its channel. -/
theorem replyFinds_serialize_iff {archive : Archive} {encode : PlistValue → Option (List UInt8)}
    {sent message : Message} {bytes rest rest' data : List UInt8} (h : sent.messageHeader.Fits)
    (hid : sent.messageHeader.fragmentId = 0) (hcount : sent.messageHeader.fragmentCount = 1)
    (hmin : sent.messageHeader.channel ≠ Int32.minValue)
    (hindex : sent.messageHeader.conversationIndex + 1 < 2 ^ 32)
    (hbytes : sent.serialize encode = .ok bytes)
    (hread : Message.fromReader checks archive (bytes ++ rest) = .ok (message, rest'))
    (hdata : Readable archive data) (hlen : 16 + data.length < 2 ^ 32) :
    ReplyFinds checks archive sent.messageHeader message.messageHeader data ↔
      sent.messageHeader.conversationIndex % 2 = 0 ∨ sent.messageHeader.channel = 0 := by
  obtain ⟨hchannel, hidentifier, hconversation⟩ := header_of_serialize h hid hcount hbytes hread
  by_cases heven : sent.messageHeader.conversationIndex % 2 = 0
  · rw [decodeChannel_even heven hmin] at hchannel
    have hreceived := Eval.ok.inj hchannel
    rw [replyFinds_iff (hreceived ▸ neg_ne_minValue hmin) hidentifier hconversation h.identifier
      hindex hdata hlen, ← hreceived]
    exact iff_of_true Int32.neg_neg (.inl heven)
  · rw [decodeChannel_odd heven] at hchannel
    have hreceived := Eval.ok.inj hchannel
    rw [replyFinds_iff (hreceived ▸ hmin) hidentifier hconversation h.identifier hindex hdata
      hlen, ← hreceived, neg_eq_self_iff hmin]
    exact (or_iff_right heven).symm

/-- A reply to a raw reply finds its channel. -/
theorem reply_buildRawReply {archive : Archive} {channel : Int32} {identifier index : ℕ}
    {message : Message} {bytes rest rest' data data' : List UInt8}
    (hmin : channel ≠ Int32.minValue) (hidentifier : identifier < 2 ^ 32)
    (hindex : index + 2 < 2 ^ 32) (hdata : Readable archive data)
    (hlen : 16 + data.length < 2 ^ 32)
    (hbytes : buildRawReply checks channel identifier index data = .ok bytes)
    (hread : Message.fromReader checks archive (bytes ++ rest) = .ok (message, rest'))
    (hdata' : Readable archive data') (hlen' : 16 + data'.length < 2 ^ 32) :
    ∃ frame, buildRawReply checks message.messageHeader.channel message.messageHeader.identifier
        message.messageHeader.conversationIndex data' = .ok frame ∧
      Decodes checks archive frame channel identifier (index + 2) := by
  obtain ⟨frame, hframe, hdecodes⟩ : ∃ frame, buildRawReply checks _ _ _ data = .ok frame ∧ _ :=
    buildRawReply_decodes hmin hidentifier (by omega : index + 1 < 2 ^ 32) hdata hlen
  rw [hbytes] at hframe
  cases hframe
  obtain ⟨reply, hreply, hchannel, hid, hconversation⟩ := hdecodes rest
  rw [hreply] at hread
  cases hread
  rw [hchannel, hid, hconversation]
  have hback : ∃ frame, buildRawReply checks (-channel) _ _ data' = .ok frame ∧ _ :=
    buildRawReply_decodes (neg_ne_minValue hmin) hidentifier hindex hdata' hlen'
  rw [Int32.neg_neg] at hback
  exact hback

end Replies

end Routing

open Routing in
/-- Fragments are put together whatever the cut. A reply to a message of `serialize` finds
its channel just for an even index or channel zero, and one to a raw reply always. -/
theorem Message.fragments_and_replies (checks : Bool) (archive : Archive)
    (encode : PlistValue → Option (List UInt8)) :
    (∀ (header : MessageHeader) (announced : ℕ) (pieces : List (List UInt8)) (rest : List UInt8),
      header.Fits → announced < 2 ^ 32 → pieces ≠ [] → pieces.length + 1 < 2 ^ 16 →
      pieces.flatten.length < 2 ^ 32 →
      received checks archive (fragmented header announced pieces ++ rest) =
        received checks archive (whole header pieces.flatten ++ rest)) ∧
    (∀ (sent message : Message) (bytes rest rest' data : List UInt8),
      sent.messageHeader.Fits → sent.messageHeader.fragmentId = 0 →
      sent.messageHeader.fragmentCount = 1 → sent.messageHeader.channel ≠ Int32.minValue →
      sent.messageHeader.conversationIndex + 1 < 2 ^ 32 →
      sent.serialize encode = .ok bytes →
      Message.fromReader checks archive (bytes ++ rest) = .ok (message, rest') →
      Readable archive data → 16 + data.length < 2 ^ 32 →
      (ReplyFinds checks archive sent.messageHeader message.messageHeader data ↔
        sent.messageHeader.conversationIndex % 2 = 0 ∨ sent.messageHeader.channel = 0)) ∧
    ∀ (channel : Int32) (identifier index : ℕ) (message : Message)
      (bytes rest rest' data data' : List UInt8),
      channel ≠ Int32.minValue → identifier < 2 ^ 32 → index + 2 < 2 ^ 32 →
      Readable archive data → 16 + data.length < 2 ^ 32 →
      buildRawReply checks channel identifier index data = .ok bytes →
      Message.fromReader checks archive (bytes ++ rest) = .ok (message, rest') →
      Readable archive data' → 16 + data'.length < 2 ^ 32 →
      ∃ frame, buildRawReply checks message.messageHeader.channel message.messageHeader.identifier
          message.messageHeader.conversationIndex data' = .ok frame ∧
        Decodes checks archive frame channel identifier (index + 2) := by
  refine ⟨?_, ?_, ?_⟩
  · intro header announced pieces rest h hannounced hne hcount hbody
    exact received_fragmented archive rest h hannounced hne hcount hbody
  · intro sent message bytes rest rest' data h hid hcount hmin hindex hbytes hread hdata hlen
    exact replyFinds_serialize_iff h hid hcount hmin hindex hbytes hread hdata hlen
  · intro channel identifier index message bytes rest rest' data data' hmin hidentifier hindex hdata
      hlen hbytes hread hdata' hlen'
    exact reply_buildRawReply hmin hidentifier hindex hdata hlen hbytes hread hdata' hlen'

/-- A message on channel one without values. -/
def plainMessage (conversationIndex : ℕ) : Message where
  messageHeader := {
    magic := 0x1F3D5B79, headerLen := 32, fragmentId := 0, fragmentCount := 1, length := 0
    identifier := 7, conversationIndex, channel := 1, expectsReply := true }
  payloadHeader := {
    msgType := 2, flagsA := 0, flagsB := 0, reserved := 0, auxLength := 0, totalLength := 0
    flags := 0 }
  aux := none
  data := none
  rawData := none

open Routing in
theorem Message.fragments_and_replies_plain :
    received true (fun _ => none)
        (fragmented (plainMessage 0).messageHeader 3 [[1], [2, 3]] ++ []) =
      received true (fun _ => none) (whole (plainMessage 0).messageHeader [1, 2, 3] ++ []) ∧
    ∃ message, ReplyFinds true (fun _ => none) (plainMessage 0).messageHeader message [] := by
  have hfits : (plainMessage 0).messageHeader.Fits :=
    ⟨by decide, by decide, by decide, by decide, by decide, by decide, by decide⟩
  have hall := Message.fragments_and_replies true (fun _ => none) fun _ => none
  refine ⟨hall.1 _ 3 [[1], [2, 3]] [] hfits (by decide) (by decide) (by decide) (by decide), _,
    (hall.2.1 (plainMessage 0) _ _ [] [] [] hfits rfl rfl (by decide) (by decide) rfl rfl (.inl rfl)
      (by decide)).mpr (.inl rfl)⟩

/-- With an odd index the reply comes back on the negative of the channel. -/
theorem Message.odd_reply_misrouted : ∃ bytes message frame reply,
    (plainMessage 1).serialize (fun _ => none) = .ok bytes ∧
    Message.fromReader true (fun _ => none) bytes = .ok (message, []) ∧
    buildRawReply true message.messageHeader.channel message.messageHeader.identifier
      message.messageHeader.conversationIndex [] = .ok frame ∧
    Message.fromReader true (fun _ => none) frame = .ok (reply, []) ∧
    (plainMessage 1).messageHeader.channel = 1 ∧ reply.messageHeader.channel = -1 :=
  ⟨_, _, _, _, rfl, rfl, rfl, rfl, rfl, rfl⟩

end XitForge.Dvt
