import XitForge.RustSlice

/-!
The packets of usbmuxd: four numbers, the first of them the size of the whole packet, and a
property list. One reader has the packet as a slice, the other one takes it from the socket.
-/
namespace XitForge.Usbmuxd

open RustEval RustSlice ByteStream

/-- The writer and the reader of property lists. -/
structure PlistFormat (Dictionary : Type) where
  /-- `plist_to_xml_bytes`. -/
  toXml : Dictionary → Bytes
  fromBytes : Bytes → Option Dictionary
  /-- What is written is read again. -/
  inverse : ∀ plist, fromBytes (toXml plist) = some plist

structure RawPacket (Dictionary : Type) where
  size : UInt32
  version : UInt32
  message : UInt32
  tag : UInt32
  plist : Dictionary

inductive ReadError where
  /-- The end of the stream, in `read_exact`. -/
  | socket
  | plist
  deriving DecidableEq

variable {Dictionary : Type} (format : PlistFormat Dictionary)

/-- `RawPacket::new`. `checks` tells whether the build panics on overflow. -/
def RawPacket.new (checks : Bool) (plist : Dictionary) (version message tag : UInt32) :
    Eval Unit (RawPacket Dictionary) := do
  let size ← Eval.add 32 checks ((format.toXml plist).length % 2 ^ 32) 16
  .ok { size := UInt32.ofNat size, version, message, tag, plist }

def word (value : UInt32) : Bytes := leBytes 4 value.toNat

/-- `u32::from_le_bytes`. -/
def wordOf (bytes : Bytes) : UInt32 := UInt32.ofNat (leValue bytes)

/-- `Vec::from` of a packet. -/
def RawPacket.bytes (packet : RawPacket Dictionary) : Bytes :=
  word packet.size ++ (word packet.version ++ (word packet.message ++ (word packet.tag ++
    format.toXml packet.plist)))

/-- `RawPacket::try_from`. -/
def RawPacket.tryFrom (packet : Bytes) : Eval Unit (RawPacket Dictionary) :=
  if packet.length < 16 then .err ()
  else do
    let size ← slice packet 0 4
    let size := wordOf size
    if packet.length < size.toNat then .err ()
    else do
      let version ← slice packet 4 8
      let message ← slice packet 8 12
      let tag ← slice packet 12 16
      let plist ← slice packet 16 size.toNat
      match format.fromBytes plist with
      | some plist =>
        .ok { size, version := wordOf version, message := wordOf message, tag := wordOf tag, plist }
      | none => .err ()

/-- `read_exact` of a socket with these bytes on it. -/
def readExact (count : ℕ) (stream : Bytes) : Eval ReadError (Bytes × Bytes) :=
  match splitExact count stream with
  | some read => .ok read
  | none => .err .socket

/-- `UsbmuxdConnection::read_plist`, with what is left on the socket. -/
def readPlist (checks : Bool) (stream : Bytes) : Eval ReadError (Dictionary × Bytes) := do
  let (header, stream) ← readExact 16 stream
  let size ← Eval.sub 32 checks (wordOf (header.take 4)).toNat 16
  let (body, stream) ← readExact size stream
  match format.fromBytes body with
  | some plist => .ok (plist, stream)
  | none => .err .plist

/-- The size in the first four bytes. -/
def sizeOf (packet : Bytes) : ℕ := (wordOf (packet.take 4)).toNat

section Panics

variable {format}

theorem wordOf_word (value : UInt32) : wordOf (word value) = value := by
  unfold wordOf word
  rw [leValue_leBytes (by have := value.toNat_lt; omega), UInt32.ofNat_toNat]

@[simp] theorem length_word (value : UInt32) : (word value).length = 4 := length_leBytes 4 _

/-- The reader of a slice, once there is a header. -/
theorem tryFrom_eq {packet : Bytes} (h : 16 ≤ packet.length) :
    RawPacket.tryFrom format packet =
      if packet.length < sizeOf packet then .err ()
      else if sizeOf packet < 16 then .panic
      else
        match format.fromBytes ((packet.drop 16).take (sizeOf packet - 16)) with
        | some plist => .ok {
            size := wordOf (packet.take 4)
            version := wordOf ((packet.drop 4).take 4)
            message := wordOf ((packet.drop 8).take 4)
            tag := wordOf ((packet.drop 12).take 4)
            plist := plist }
        | none => .err () := by
  have hsize : (slice packet 0 4 : Eval Unit Bytes) = .ok (packet.take 4) :=
    slice_eq (by omega) (by omega)
  have hversion : (slice packet 4 8 : Eval Unit Bytes) = .ok ((packet.drop 4).take 4) :=
    slice_eq (by omega) (by omega)
  have hmessage : (slice packet 8 12 : Eval Unit Bytes) = .ok ((packet.drop 8).take 4) :=
    slice_eq (by omega) (by omega)
  have htag : (slice packet 12 16 : Eval Unit Bytes) = .ok ((packet.drop 12).take 4) :=
    slice_eq (by omega) (by omega)
  unfold RawPacket.tryFrom
  rw [if_neg (Nat.not_lt.mpr h), hsize, Eval.ok_bind]
  change (if packet.length < sizeOf packet then _ else _) = _
  by_cases hlong : packet.length < sizeOf packet
  · rw [if_pos hlong, if_pos hlong]
  · rw [if_neg hlong, if_neg hlong, hversion, Eval.ok_bind, hmessage, Eval.ok_bind, htag,
      Eval.ok_bind]
    change (slice packet 16 (sizeOf packet) >>= _) = _
    by_cases hsmall : sizeOf packet < 16
    · rw [if_pos hsmall, slice_of_not (by omega)]
      rfl
    · rw [if_neg hsmall, slice_eq (by omega) (by omega)]
      rfl

theorem tryFrom_panic_iff {packet : Bytes} :
    RawPacket.tryFrom format packet = .panic ↔ 16 ≤ packet.length ∧ sizeOf packet < 16 := by
  by_cases hlength : 16 ≤ packet.length
  · rw [tryFrom_eq hlength]
    by_cases hsmall : sizeOf packet < 16
    · rw [if_neg (by omega), if_pos hsmall]
      simp [hlength, hsmall]
    · simp only [hsmall, if_false, and_false, iff_false]
      split
      · simp
      · split <;> simp
  · unfold RawPacket.tryFrom
    rw [if_pos (by omega)]
    simp [hlength]

/-- The reader of the socket, once there is a header. -/
theorem readPlist_eq (checks : Bool) {stream : Bytes} (h : 16 ≤ stream.length) :
    readPlist format checks stream =
      (Eval.sub 32 checks (sizeOf stream) 16 >>= fun size => do
        let (body, stream) ← readExact size (stream.drop 16)
        match format.fromBytes body with
        | some plist => .ok (plist, stream)
        | none => .err .plist) := by
  have hheader : readExact 16 stream = .ok (stream.take 16, stream.drop 16) := by
    unfold readExact splitExact
    rw [if_pos h]
  unfold readPlist sizeOf
  rw [hheader, Eval.ok_bind]
  simp only [List.take_take, Nat.min_eq_left (show 4 ≤ 16 by omega)]

theorem readExact_ne_panic (count : ℕ) (stream : Bytes) : readExact count stream ≠ .panic := by
  unfold readExact
  split <;> simp

/-- With checks, the reader of the socket panics where the other one does. -/
theorem readPlist_panic_iff {stream : Bytes} :
    readPlist format true stream = .panic ↔ 16 ≤ stream.length ∧ sizeOf stream < 16 := by
  by_cases hlength : 16 ≤ stream.length
  · rw [readPlist_eq true hlength]
    by_cases hsmall : sizeOf stream < 16
    · rw [Eval.sub_checked_of_lt hsmall]
      simp [hlength, hsmall]
    · rw [Eval.sub_of_le (Nat.not_lt.mp hsmall), Eval.ok_bind]
      simp only [hsmall, and_false, iff_false]
      cases hread : readExact (sizeOf stream - 16) (stream.drop 16) with
      | ok read =>
        rw [Eval.ok_bind]
        split <;> simp
      | err error => simp
      | panic => exact absurd hread (readExact_ne_panic _ _)
  · have hheader : readExact 16 stream = .err .socket := by
      unfold readExact splitExact
      rw [if_neg hlength]
    unfold readPlist
    rw [hheader]
    simp [hlength]

end Panics

section RoundTrip

/-- A new packet is read again by both readers, and the one of the socket leaves what is
behind it. -/
def RoundTrips (checks : Bool) (plist : Dictionary) (version message tag : UInt32)
    (suffix : Bytes) : Prop :=
  ∃ packet, RawPacket.new format checks plist version message tag = .ok packet ∧
    packet.plist = plist ∧ packet.version = version ∧ packet.message = message ∧
    packet.tag = tag ∧
    RawPacket.tryFrom format (packet.bytes format ++ suffix) = .ok packet ∧
    readPlist format checks (packet.bytes format ++ suffix) = .ok (plist, suffix)

variable {format} {checks : Bool}

theorem length_bytes (packet : RawPacket Dictionary) :
    (packet.bytes format).length = 16 + (format.toXml packet.plist).length := by
  unfold RawPacket.bytes
  simp only [List.length_append, length_word]
  omega

theorem sizeOf_bytes (packet : RawPacket Dictionary) (suffix : Bytes) :
    sizeOf (packet.bytes format ++ suffix) = packet.size.toNat := by
  unfold sizeOf RawPacket.bytes
  rw [List.append_assoc, List.take_left' (length_word packet.size), wordOf_word]

theorem drop_bytes (packet : RawPacket Dictionary) (suffix : Bytes) :
    (packet.bytes format ++ suffix).drop 16 = format.toXml packet.plist ++ suffix := by
  have hheader : packet.bytes format ++ suffix =
      (word packet.size ++ word packet.version ++ word packet.message ++ word packet.tag) ++
        (format.toXml packet.plist ++ suffix) := by
    unfold RawPacket.bytes
    simp only [List.append_assoc]
  rw [hheader, List.drop_left']
  simp

/-- A packet whose size is that of its bytes. -/
theorem tryFrom_bytes {packet : RawPacket Dictionary}
    (h : packet.size.toNat = 16 + (format.toXml packet.plist).length) (suffix : Bytes) :
    RawPacket.tryFrom format (packet.bytes format ++ suffix) = .ok packet := by
  have hlength : (packet.bytes format ++ suffix).length = packet.size.toNat + suffix.length := by
    rw [List.length_append, length_bytes, h]
  rw [tryFrom_eq (by omega), sizeOf_bytes, if_neg (by omega), if_neg (by omega), drop_bytes, h,
    Nat.add_sub_cancel_left, List.take_left, format.inverse]
  have hsize : (packet.bytes format ++ suffix).take 4 = word packet.size := by
    unfold RawPacket.bytes
    rw [List.append_assoc, List.take_left' (length_word packet.size)]
  have hversion : ((packet.bytes format ++ suffix).drop 4).take 4 = word packet.version := by
    unfold RawPacket.bytes
    rw [List.append_assoc, List.drop_left' (length_word packet.size), List.append_assoc,
      List.take_left' (length_word packet.version)]
  have hmessage : ((packet.bytes format ++ suffix).drop 8).take 4 = word packet.message := by
    have hfront : (word packet.size ++ word packet.version).length = 8 := by simp
    unfold RawPacket.bytes
    rw [← List.append_assoc (word packet.size), List.append_assoc, List.drop_left' hfront,
      List.append_assoc, List.take_left' (length_word packet.message)]
  have htag : ((packet.bytes format ++ suffix).drop 12).take 4 = word packet.tag := by
    have hfront : (word packet.size ++ (word packet.version ++ word packet.message)).length = 12 := by
      simp
    unfold RawPacket.bytes
    rw [← List.append_assoc (word packet.version), ← List.append_assoc (word packet.size),
      List.append_assoc, List.drop_left' hfront, List.append_assoc,
      List.take_left' (length_word packet.tag)]
  rw [hsize, hversion, hmessage, htag]
  simp only [wordOf_word]

theorem readPlist_bytes {packet : RawPacket Dictionary}
    (h : packet.size.toNat = 16 + (format.toXml packet.plist).length) (suffix : Bytes) :
    readPlist format checks (packet.bytes format ++ suffix) = .ok (packet.plist, suffix) := by
  have hlength : (packet.bytes format ++ suffix).length = packet.size.toNat + suffix.length := by
    rw [List.length_append, length_bytes, h]
  have hbody : readExact (format.toXml packet.plist).length (format.toXml packet.plist ++ suffix) =
      .ok (format.toXml packet.plist, suffix) := by
    unfold readExact
    rw [splitExact_append rfl]
  rw [readPlist_eq checks (by omega), sizeOf_bytes, drop_bytes, h,
    Eval.sub_of_le (Nat.le_add_right _ _), Eval.ok_bind, Nat.add_sub_cancel_left, hbody,
    Eval.ok_bind]
  dsimp only
  rw [format.inverse]

/-- The size of a new packet, where it fits. -/
theorem new_of_lt {plist : Dictionary} (h : (format.toXml plist).length + 16 < 2 ^ 32)
    (version message tag : UInt32) :
    RawPacket.new format checks plist version message tag = .ok {
      size := UInt32.ofNat ((format.toXml plist).length + 16)
      version := version
      message := message
      tag := tag
      plist := plist } := by
  unfold RawPacket.new
  rw [Nat.mod_eq_of_lt (by omega), Eval.add_of_lt h, Eval.ok_bind]

/-- The reader of the socket takes as many bytes as the size says. -/
theorem size_of_readPlist {packet : RawPacket Dictionary} {suffix : Bytes}
    (hsize : 16 ≤ packet.size.toNat) {plist : Dictionary}
    (h : readPlist format checks (packet.bytes format ++ suffix) = .ok (plist, suffix)) :
    packet.size.toNat = 16 + (format.toXml packet.plist).length := by
  have hlength : 16 ≤ (packet.bytes format ++ suffix).length := by
    rw [List.length_append, length_bytes]
    omega
  rw [readPlist_eq checks hlength, sizeOf_bytes, drop_bytes, Eval.sub_of_le hsize,
    Eval.ok_bind, Eval.bind_eq_ok] at h
  obtain ⟨⟨body, rest⟩, hread, hplist⟩ := h
  dsimp only at hplist
  split at hplist
  · cases hplist
    unfold readExact at hread
    split at hread
    · rename_i hsplit
      cases hread
      obtain ⟨hstream, hbody⟩ := splitExact_eq_some hsplit
      have htotal := congrArg List.length hstream
      rw [List.length_append, List.length_append] at htotal
      omega
    · cases hread
  · cases hplist

theorem roundTrips_iff (plist : Dictionary) (version message tag : UInt32) (suffix : Bytes) :
    RoundTrips format checks plist version message tag suffix ↔
      (format.toXml plist).length + 16 < 2 ^ 32 := by
  constructor
  · intro h
    obtain ⟨packet, _, rfl, _, _, _, htry, hread⟩ := h
    have hlength : 16 ≤ (packet.bytes format ++ suffix).length := by
      rw [List.length_append, length_bytes]
      omega
    have hsmall : ¬ sizeOf (packet.bytes format ++ suffix) < 16 := by
      intro hlt
      rw [tryFrom_panic_iff.mpr ⟨hlength, hlt⟩] at htry
      cases htry
    rw [sizeOf_bytes, Nat.not_lt] at hsmall
    have hsize := size_of_readPlist hsmall hread
    have hlt := packet.size.toNat_lt
    omega
  · intro h
    have hsize : (UInt32.ofNat ((format.toXml plist).length + 16)).toNat =
        16 + (format.toXml plist).length := by
      rw [UInt32.toNat_ofNat', Nat.mod_eq_of_lt h, Nat.add_comm]
    exact ⟨_, new_of_lt h version message tag, rfl, rfl, rfl, rfl, tryFrom_bytes hsize suffix,
      readPlist_bytes hsize suffix⟩

/-- Both readers return for the bytes, and read what is written, as long as the size in the
bytes has room for the header and the size of the packet fits its field. -/
theorem rawPacket_iff (format : PlistFormat Dictionary) (checks : Bool) (bytes : Bytes)
    (plist : Dictionary) (version message tag : UInt32) (suffix : Bytes) :
    (RawPacket.tryFrom format bytes ≠ .panic ∧ readPlist format true bytes ≠ .panic ∧
      RoundTrips format checks plist version message tag suffix) ↔
    (bytes.length < 16 ∨ 16 ≤ sizeOf bytes) ∧ (format.toXml plist).length + 16 < 2 ^ 32 := by
  rw [Ne, Ne, tryFrom_panic_iff, readPlist_panic_iff, roundTrips_iff, ← and_assoc, and_self,
    not_and_or, Nat.not_le, Nat.not_lt]

/-- A format of the empty dictionary only. -/
def emptyFormat : PlistFormat Unit where
  toXml _ := [0x3C, 0x64, 0x69, 0x63, 0x74, 0x2F, 0x3E]
  fromBytes bytes := if bytes = [0x3C, 0x64, 0x69, 0x63, 0x74, 0x2F, 0x3E] then some () else none
  inverse _ := rfl

/-- A header of zeros. -/
theorem rawPacket_panic :
    RawPacket.tryFrom emptyFormat (List.replicate 16 0) = .panic ∧
      readPlist emptyFormat true (List.replicate 16 0) = .panic :=
  ⟨tryFrom_panic_iff.mpr (by decide +kernel), readPlist_panic_iff.mpr (by decide +kernel)⟩

end RoundTrip

end XitForge.Usbmuxd
