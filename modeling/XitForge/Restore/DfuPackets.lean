import XitForge.ByteStream
import XitForge.Crc

/-!
The data stages of a DFU upload. An image is cut into packets, and behind the last of its
bytes come a salted suffix and a checksum of both, in the last packet where they fit and
else in a packet of their own, under the same number.
-/
namespace XitForge.Restore.DfuUpload

open ByteStream

def TRANSFER_SIZE_DFU : ℕ := 0x800

def DFU_XBUF : Bytes :=
  [0xFF, 0xFF, 0xFF, 0xFF, 0xAC, 0x05, 0x00, 0x01, 0x55, 0x46, 0x44, 0x10]

section Checksum

def crcRounds : ℕ → UInt32 → UInt32
  | 0, crc => crc
  | rounds + 1, crc =>
    crcRounds rounds (if crc &&& 1 ≠ 0 then (crc >>> 1) ^^^ 0xEDB88320 else crc >>> 1)

def crc32Zlib (crc : UInt32) (data : Bytes) : UInt32 :=
  data.foldl (fun crc byte => crcRounds 8 (crc ^^^ byte.toUInt32)) (crc ^^^ 0xFFFFFFFF) ^^^
    0xFFFFFFFF

theorem toBitVec_crcRounds (rounds : ℕ) (crc : UInt32) :
    (crcRounds rounds crc).toBitVec = Crc.shifts 0xedb88320#32 rounds crc.toBitVec := by
  induction rounds generalizing crc with
  | zero => rfl
  | succ rounds ih =>
    have hlow : (crc &&& 1 ≠ 0) ↔ crc.toBitVec.getLsbD 0 = true := by
      rw [ne_eq, ← UInt32.toBitVec_inj, UInt32.toBitVec_and]
      show ¬ crc.toBitVec &&& 1#32 = 0#32 ↔ _
      rw [BitVec.and_one_eq_setWidth_ofBool_getLsbD]
      cases crc.toBitVec.getLsbD 0 <;> decide
    rw [crcRounds, ih, Crc.shifts, Crc.shift]
    congr 1
    by_cases h : crc &&& 1 ≠ 0
    · rw [if_pos h, if_pos (hlow.mp h)]
      rfl
    · rw [if_neg h, if_neg (mt hlow.mpr h)]
      exact BitVec.xor_zero.symm

theorem toBitVec_foldl (crc : UInt32) (data : Bytes) :
    (data.foldl (fun crc byte => crcRounds 8 (crc ^^^ byte.toUInt32)) crc).toBitVec =
      data.foldl (fun c byte => Crc.shifts 0xedb88320#32 8 (c ^^^ byte.toBitVec.setWidth 32))
        crc.toBitVec := by
  induction data generalizing crc with
  | nil => rfl
  | cons byte data ih =>
    rw [List.foldl_cons, ih, toBitVec_crcRounds, List.foldl_cons, UInt32.toBitVec_xor]
    rfl

/-- The complement taken at the end of one call is taken back at the start of the next. -/
theorem crc32Zlib_append (crc : UInt32) (data rest : Bytes) :
    crc32Zlib (crc32Zlib crc data) rest = crc32Zlib crc (data ++ rest) := by
  rw [crc32Zlib, crc32Zlib, crc32Zlib, List.foldl_append, UInt32.xor_assoc, UInt32.xor_self,
    UInt32.xor_zero]

/-- Begun with all ones the register is empty. -/
theorem isPlainCrc32_crc32Zlib (data : Bytes) :
    Crc.IsPlainCrc32 data (crc32Zlib 0xFFFFFFFF data) := by
  apply Crc.isPlainCrc32_of_foldl
  have hones : (0xFFFFFFFF : UInt32).toBitVec = BitVec.allOnes 32 := rfl
  rw [crc32Zlib, UInt32.xor_self, UInt32.toBitVec_xor, hones, BitVec.xor_allOnes, BitVec.not_not,
    toBitVec_foldl]
  rfl

end Checksum

section Packets

structure Packet where
  index : UInt16
  data : Bytes
  deriving DecidableEq

/-- `crc_chunk`: the suffix and the checksum of the image and the suffix. -/
def crcChunk (image : Bytes) : Bytes :=
  DFU_XBUF ++ leBytes 4 (crc32Zlib (crc32Zlib 0xFFFFFFFF image) DFU_XBUF).toNat

/-- The last chunk, with the trailer or before it. -/
def lastPackets (image : Bytes) (packetIndex : UInt16) (chunk : Bytes) : List Packet :=
  if chunk.length + (crcChunk image).length > TRANSFER_SIZE_DFU then
    [⟨packetIndex, chunk⟩, ⟨packetIndex, crcChunk image⟩]
  else
    [⟨packetIndex, chunk ++ crcChunk image⟩]

def chunkEnd (image : Bytes) (offset : ℕ) : ℕ := min (offset + TRANSFER_SIZE_DFU) image.length

theorem chunkEnd_gt {image : Bytes} {offset : ℕ} (h : offset < image.length) :
    offset < chunkEnd image offset := by
  unfold chunkEnd TRANSFER_SIZE_DFU
  omega

theorem chunkEnd_le (image : Bytes) (offset : ℕ) : chunkEnd image offset ≤ image.length :=
  Nat.min_le_right ..

/-- The packets of one turn of the loop. -/
def turnPackets (image : Bytes) (offset : ℕ) (packetIndex : UInt16) : List Packet :=
  if chunkEnd image offset ≥ image.length then
    lastPackets image packetIndex (image.extract offset (chunkEnd image offset))
  else
    [⟨packetIndex, image.extract offset (chunkEnd image offset)⟩]

def packetsFrom (image : Bytes) (offset : ℕ) (packetIndex : UInt16) : List Packet :=
  if h : offset < image.length then
    have := chunkEnd_gt h
    turnPackets image offset packetIndex ++
      packetsFrom image (chunkEnd image offset) (packetIndex + 1)
  else []
termination_by image.length - offset

def packets (image : Bytes) : List Packet := packetsFrom image 0 0

/-- `buf.len().div_ceil(packet_size)` -/
def numPackets (image : Bytes) : ℕ := (image.length + TRANSFER_SIZE_DFU - 1) / TRANSFER_SIZE_DFU

variable {image : Bytes} {offset : ℕ} {packetIndex : UInt16}

theorem length_crcChunk (image : Bytes) : (crcChunk image).length = 16 := by
  rw [crcChunk, List.length_append, length_leBytes]
  rfl

theorem length_chunk (image : Bytes) (offset : ℕ) :
    (image.extract offset (chunkEnd image offset)).length = chunkEnd image offset - offset := by
  have hle := chunkEnd_le image offset
  rw [List.extract_eq_take_drop, List.length_take, List.length_drop]
  omega

theorem drop_chunk (image : Bytes) (offset : ℕ) (h : offset < image.length) :
    image.extract offset (chunkEnd image offset) ++ image.drop (chunkEnd image offset) =
      image.drop offset := by
  have hsplit := List.take_append_drop (chunkEnd image offset - offset) (image.drop offset)
  rwa [List.drop_drop, Nat.add_sub_cancel' (chunkEnd_gt h).le, ← List.extract_eq_take_drop]
    at hsplit

theorem turnPackets_bounded (h : offset < image.length) :
    ∀ packet ∈ turnPackets image offset packetIndex,
      0 < packet.data.length ∧ packet.data.length ≤ TRANSFER_SIZE_DFU := by
  have hchunk := length_chunk image offset
  have hgt := chunkEnd_gt h
  have hsize : chunkEnd image offset ≤ offset + TRANSFER_SIZE_DFU := Nat.min_le_left ..
  have htrailer := length_crcChunk image
  unfold turnPackets lastPackets
  generalize image.extract offset (chunkEnd image offset) = chunk at hchunk ⊢
  have hpos : 0 < chunk.length := by omega
  have hle : chunk.length ≤ TRANSFER_SIZE_DFU := by omega
  split
  · split
    · intro packet hpacket
      rcases List.mem_pair.mp hpacket with rfl | rfl
      · exact ⟨hpos, hle⟩
      · rw [htrailer]
        exact ⟨by decide, by decide⟩
    · intro packet hpacket
      obtain rfl := List.mem_singleton.mp hpacket
      rw [List.length_append]
      exact ⟨by omega, by omega⟩
  · intro packet hpacket
    obtain rfl := List.mem_singleton.mp hpacket
    exact ⟨hpos, hle⟩

theorem packetsFrom_bounded : ∀ packet ∈ packetsFrom image offset packetIndex,
    0 < packet.data.length ∧ packet.data.length ≤ TRANSFER_SIZE_DFU := by
  fun_induction packetsFrom image offset packetIndex with
  | case1 offset packetIndex h _ ih =>
    intro packet hpacket
    rcases List.mem_append.mp hpacket with hturn | hrest
    · exact turnPackets_bounded h packet hturn
    · exact ih packet hrest
  | case2 =>
    intro packet hpacket
    cases hpacket

theorem data_lastPackets (image : Bytes) (packetIndex : UInt16) (chunk : Bytes) :
    (lastPackets image packetIndex chunk).flatMap Packet.data = chunk ++ crcChunk image := by
  unfold lastPackets
  split
  · simp
  · simp

/-- The rest of the image goes out, and the trailer behind it. -/
theorem data_packetsFrom (h : offset < image.length) :
    (packetsFrom image offset packetIndex).flatMap Packet.data =
      image.drop offset ++ crcChunk image := by
  fun_induction packetsFrom image offset packetIndex with
  | case1 offset packetIndex h _ ih =>
    rw [List.flatMap_append, turnPackets, ← drop_chunk image offset h, List.append_assoc]
    by_cases hlast : chunkEnd image offset ≥ image.length
    · rw [if_pos hlast, data_lastPackets, List.drop_eq_nil_of_le hlast, packetsFrom,
        dif_neg (Nat.not_lt.mpr hlast)]
      simp
    · rw [if_neg hlast, ih (Nat.lt_of_not_le hlast)]
      simp
  | case2 offset packetIndex hnot => exact absurd h hnot

/-- What an upload of the image is made of. -/
structure DataStages (image : Bytes) (stages : List Packet) : Prop where
  filled : ∀ stage ∈ stages, stage.data ≠ []
  bounded : ∀ stage ∈ stages, stage.data.length ≤ 2048
  covered : ∃ crc, Crc.IsPlainCrc32 (image ++ DFU_XBUF) crc ∧
    stages.flatMap Packet.data = image ++ DFU_XBUF ++ leBytes 4 crc.toNat

theorem dataStages_packets (h : image ≠ []) : DataStages image (packets image) where
  filled := fun stage hstage => List.length_pos_iff.mp (packetsFrom_bounded stage hstage).1
  bounded := fun stage hstage => (packetsFrom_bounded stage hstage).2
  covered := by
    refine ⟨_, isPlainCrc32_crc32Zlib _, ?_⟩
    rw [packets, data_packetsFrom (List.length_pos_iff.mpr h), crcChunk, crc32Zlib_append,
      List.drop_zero, List.append_assoc]

end Packets

end XitForge.Restore.DfuUpload
