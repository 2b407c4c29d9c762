import XitForge.Xpc.Format

/-!
AFC packets. A header of five words is in front of them, which gives the length of
the whole packet and of the part before its payload; the packets that answer a
request carry its number.
-/
namespace XitForge.Afc

open Xpc (toLEBytes fromLEBytes leAt leAt_behind leAt_lt leAt_take)

abbrev Bytes := List UInt8

inductive Error where
  | socket
  | timeout
  | noEstablishedConnection
  | unknownOpcode
  | invalidMagic
  /-- `Invalid or oversized AFC frame` -/
  | invalidFrame
  /-- `AFC error status response too short for error code` -/
  | statusTooShort
  /-- The status that is not success. -/
  | afc (code : ℕ)
  | missingAttribute
  /-- `AFC FileOpen response header payload too short for fd` -/
  | fdTooShort
  /-- `AFC FileTell response missing position bytes` -/
  | positionMissing
  deriving DecidableEq, Repr

inductive AfcOpcode where
  | status
  | data
  | readDir
  | readFile
  | writeFile
  | writePart
  | truncate
  | removePath
  | makeDir
  | getFileInfo
  | getDevInfo
  | writeFileAtom
  | fileOpen
  | fileOpenRes
  | read
  | write
  | fileSeek
  | fileTell
  | fileTellRes
  | fileClose
  | fileSetSize
  | getConInfo
  | setConOptions
  | renamePath
  | setFsBs
  | setSocketBs
  | fileLock
  | makeLink
  | getFileHash
  | setFileTime
  | removePathAndContents
  deriving DecidableEq, Repr

/-- `as u64`. -/
def AfcOpcode.value : AfcOpcode → ℕ
  | status => 0x01
  | data => 0x02
  | readDir => 0x03
  | readFile => 0x04
  | writeFile => 0x05
  | writePart => 0x06
  | truncate => 0x07
  | removePath => 0x08
  | makeDir => 0x09
  | getFileInfo => 0x0a
  | getDevInfo => 0x0b
  | writeFileAtom => 0x0c
  | fileOpen => 0x0d
  | fileOpenRes => 0x0e
  | read => 0x0f
  | write => 0x10
  | fileSeek => 0x11
  | fileTell => 0x12
  | fileTellRes => 0x13
  | fileClose => 0x14
  | fileSetSize => 0x15
  | getConInfo => 0x16
  | setConOptions => 0x17
  | renamePath => 0x18
  | setFsBs => 0x19
  | setSocketBs => 0x1A
  | fileLock => 0x1B
  | makeLink => 0x1C
  | getFileHash => 0x1D
  | setFileTime => 0x1E
  | removePathAndContents => 0x22

/-- `try_from`, which has no arm for `RemovePathAndContents`. -/
def AfcOpcode.tryFrom (value : ℕ) : Option AfcOpcode :=
  [status, data, readDir, readFile, writeFile, writePart, truncate, removePath, makeDir,
    getFileInfo, getDevInfo, writeFileAtom, fileOpen, fileOpenRes, read, write, fileSeek,
    fileTell, fileTellRes, fileClose, fileSetSize, getConInfo, setConOptions, renamePath,
    setFsBs, setSocketBs, fileLock, makeLink, getFileHash, setFileTime].find?
      fun operation => operation.value == value

/-- `MAGIC`. -/
def magic : ℕ := 0x4141504c36414643

structure AfcPacketHeader where
  magic : ℕ
  entireLen : ℕ
  headerPayloadLen : ℕ
  packetNum : UInt64
  operation : AfcOpcode
  deriving DecidableEq, Repr

namespace AfcPacketHeader

/-- `LEN`. -/
def len : ℕ := 40

/-- The five words of a header. -/
def words (magic entireLen headerPayloadLen packetNum operation : ℕ) : Bytes :=
  toLEBytes 8 magic ++ toLEBytes 8 entireLen ++ toLEBytes 8 headerPayloadLen ++
    toLEBytes 8 packetNum ++ toLEBytes 8 operation

def serialize (header : AfcPacketHeader) : Bytes :=
  words header.magic header.entireLen header.headerPayloadLen header.packetNum.toNat
    header.operation.value

/-- `read`, from its forty bytes. -/
def read (bytes : Bytes) : Except Error AfcPacketHeader :=
  match AfcOpcode.tryFrom (leAt bytes 32 8) with
  | none => .error .unknownOpcode
  | some operation =>
    if leAt bytes 0 8 ≠ Afc.magic then .error .invalidMagic
    else .ok
      { magic := leAt bytes 0 8
        entireLen := leAt bytes 8 8
        headerPayloadLen := leAt bytes 16 8
        packetNum := UInt64.ofNat (leAt bytes 24 8)
        operation := operation }

end AfcPacketHeader

structure AfcPacket where
  header : AfcPacketHeader
  headerPayload : Bytes
  payload : Bytes
  deriving DecidableEq, Repr

/-- What reading a packet has come to. -/
inductive Progress where
  | more (count : ℕ)
  | packet (packet : AfcPacket)
  | failed (error : Error)

namespace AfcPacket

def serialize (packet : AfcPacket) : Bytes :=
  packet.header.serialize ++ packet.headerPayload ++ packet.payload

/-- `read`, from the bytes that it has taken off the socket so far. It asks for no
more than the part of the packet that comes next. -/
def read (bytes : Bytes) : Progress :=
  if bytes.length < AfcPacketHeader.len then .more (AfcPacketHeader.len - bytes.length)
  else
    match AfcPacketHeader.read bytes with
    | .error error => .failed error
    | .ok header =>
      if header.headerPayloadLen < AfcPacketHeader.len ∨ header.entireLen < header.headerPayloadLen ∨
          64 * 1024 * 1024 < header.entireLen then .failed .invalidFrame
      else if bytes.length < header.headerPayloadLen then
        .more (header.headerPayloadLen - bytes.length)
      else if bytes.length < header.entireLen then .more (header.entireLen - bytes.length)
      else .packet
        { header := header
          headerPayload := (bytes.take header.headerPayloadLen).drop AfcPacketHeader.len
          payload := bytes.drop header.headerPayloadLen }

/-- The packet of a request. -/
def request (packetNum : UInt64) (operation : AfcOpcode) (headerPayload payload : Bytes) :
    AfcPacket where
  header :=
    { magic := Afc.magic
      entireLen := headerPayload.length + AfcPacketHeader.len + payload.length
      headerPayloadLen := headerPayload.length + AfcPacketHeader.len
      packetNum := packetNum
      operation := operation }
  headerPayload := headerPayload
  payload := payload

end AfcPacket

/-- What a device answers, but for the number, which is that of the request. Whether
the operation and the magic word are known is for the client to see. -/
structure Reply where
  magic : ℕ
  operation : ℕ
  headerPayload : Bytes
  payload : Bytes
  words_lt : magic < 2 ^ 64 ∧ operation < 2 ^ 64
  length_lt : AfcPacketHeader.len + headerPayload.length + payload.length < 2 ^ 64

/-- The reply to the request of this number on the wire. -/
def Reply.bytes (reply : Reply) (packetNum : UInt64) : Bytes :=
  AfcPacketHeader.words reply.magic
      (AfcPacketHeader.len + reply.headerPayload.length + reply.payload.length)
      (AfcPacketHeader.len + reply.headerPayload.length) packetNum.toNat reply.operation ++
    reply.headerPayload ++ reply.payload

section Wire

theorem toLEBytes_fromLEBytes (bytes : Bytes) : toLEBytes bytes.length (fromLEBytes bytes) = bytes := by
  induction bytes with
  | nil => rfl
  | cons byte rest ih =>
    have hbyte : byte.toNat < 256 := byte.toNat_lt
    have hrest : (byte.toNat + 256 * fromLEBytes rest) / 256 = fromLEBytes rest := by omega
    rw [List.length_cons, toLEBytes, fromLEBytes, hrest, ih]
    congr 1
    apply UInt8.toNat.inj
    rw [UInt8.toNat_ofNat']
    omega

theorem toLEBytes_leAt {bytes : Bytes} {start width : ℕ} (h : start + width ≤ bytes.length) :
    toLEBytes width (leAt bytes start width) = (bytes.drop start).take width := by
  have hlength : ((bytes.drop start).take width).length = width := by
    rw [List.length_take, List.length_drop]
    omega
  have hword := toLEBytes_fromLEBytes ((bytes.drop start).take width)
  rwa [hlength] at hword

/-- The bytes up to a word and the word. -/
theorem take_append_word (bytes : Bytes) (start width : ℕ) :
    bytes.take start ++ (bytes.drop start).take width = bytes.take (start + width) :=
  List.take_add.symm

theorem value_tryFrom {value : ℕ} {operation : AfcOpcode}
    (h : AfcOpcode.tryFrom value = some operation) : operation.value = value := by
  simpa using List.find?_some h

theorem headerRead_eq_ok {bytes : Bytes} {header : AfcPacketHeader}
    (h : AfcPacketHeader.read bytes = .ok header) :
    header.magic = leAt bytes 0 8 ∧ header.entireLen = leAt bytes 8 8 ∧
      header.headerPayloadLen = leAt bytes 16 8 ∧
        header.packetNum = UInt64.ofNat (leAt bytes 24 8) ∧
          header.operation.value = leAt bytes 32 8 := by
  unfold AfcPacketHeader.read at h
  split at h
  · cases h
  · rename_i operation hoperation
    split at h
    · cases h
    · cases h
      exact ⟨rfl, rfl, rfl, rfl, value_tryFrom hoperation⟩

/-- A header that was read is written as it was. -/
theorem header_serialize {bytes : Bytes} {header : AfcPacketHeader}
    (h : AfcPacketHeader.read bytes = .ok header) (hlength : 40 ≤ bytes.length) :
    header.serialize = bytes.take 40 := by
  obtain ⟨hmagic, hentire, hpayload, hnum, hoperation⟩ := headerRead_eq_ok h
  have hword : ∀ start, start + 8 ≤ 40 →
      toLEBytes 8 (leAt bytes start 8) = (bytes.drop start).take 8 :=
    fun start hstart => toLEBytes_leAt (by omega)
  have hnumber : header.packetNum.toNat = leAt bytes 24 8 := by
    have hlt := leAt_lt bytes 24 8
    rw [hnum, UInt64.toNat_ofNat']
    omega
  unfold AfcPacketHeader.serialize AfcPacketHeader.words
  rw [hmagic, hentire, hpayload, hnumber, hoperation, hword 0 (by omega), hword 8 (by omega),
    hword 16 (by omega), hword 24 (by omega), hword 32 (by omega), List.drop_zero,
    take_append_word, take_append_word, take_append_word, take_append_word]

/-- A packet that was read is written as it was. -/
theorem serialize_of_read {bytes : Bytes} {packet : AfcPacket}
    (h : AfcPacket.read bytes = .packet packet) : packet.serialize = bytes := by
  unfold AfcPacket.read at h
  split at h
  · cases h
  · rename_i hlength
    split at h
    · cases h
    · rename_i header hheader
      split at h
      · cases h
      · rename_i hfits
        split at h
        · cases h
        · split at h
          · cases h
          · rename_i hpayload _
            simp only [AfcPacketHeader.len] at hlength hfits
            have hserialize := header_serialize hheader (by omega)
            cases h
            simp only [AfcPacket.serialize, AfcPacketHeader.len]
            have htake : bytes.take 40 = (bytes.take header.headerPayloadLen).take 40 := by
              rw [List.take_take, Nat.min_eq_left (by omega)]
            rw [hserialize, htake, List.take_append_drop, List.take_append_drop]

variable {reply : Reply} {packetNum : UInt64}

theorem words_length (magic entireLen headerPayloadLen packetNum operation : ℕ) :
    (AfcPacketHeader.words magic entireLen headerPayloadLen packetNum operation).length = 40 := by
  simp [AfcPacketHeader.words]

theorem bytes_length (reply : Reply) (packetNum : UInt64) :
    (reply.bytes packetNum).length = 40 + reply.headerPayload.length + reply.payload.length := by
  rw [Reply.bytes, List.length_append, List.length_append, words_length]

/-- The words of a reply that a reader goes by. -/
theorem bytes_words (reply : Reply) (packetNum : UInt64) :
    leAt (reply.bytes packetNum) 8 8 = (reply.bytes packetNum).length ∧
      leAt (reply.bytes packetNum) 16 8 = 40 + reply.headerPayload.length ∧
        leAt (reply.bytes packetNum) 24 8 = packetNum.toNat := by
  have hlength := reply.length_lt
  have hnumber := packetNum.toNat_lt
  simp only [AfcPacketHeader.len] at hlength
  rw [bytes_length]
  unfold Reply.bytes AfcPacketHeader.words
  simp only [AfcPacketHeader.len, List.append_assoc]
  refine ⟨?_, ?_, ?_⟩
  · exact leAt_behind (toLEBytes 8 reply.magic) _ 8 _ 8 (by simp) (by omega)
  · have hbehind := leAt_behind (toLEBytes 8 reply.magic ++
      toLEBytes 8 (40 + reply.headerPayload.length + reply.payload.length))
    simp only [List.append_assoc] at hbehind
    exact hbehind _ 8 _ 16 (by simp) (by omega)
  · have hbehind := leAt_behind (toLEBytes 8 reply.magic ++
      (toLEBytes 8 (40 + reply.headerPayload.length + reply.payload.length) ++
        toLEBytes 8 (40 + reply.headerPayload.length)))
    simp only [List.append_assoc] at hbehind
    exact hbehind _ 8 _ 24 (by simp) (by omega)

theorem headerRead_reply {got : Bytes} {header : AfcPacketHeader}
    (hgot : List.IsPrefix got (reply.bytes packetNum)) (hlength : 40 ≤ got.length)
    (h : AfcPacketHeader.read got = .ok header) :
    header.entireLen = (reply.bytes packetNum).length ∧
      header.headerPayloadLen = 40 + reply.headerPayload.length ∧
        header.packetNum = packetNum := by
  obtain ⟨-, hentire, hpayload, hnum, -⟩ := headerRead_eq_ok h
  obtain ⟨hentire', hpayload', hnum'⟩ := bytes_words reply packetNum
  have hword : ∀ start, start + 8 ≤ 40 → leAt got start 8 = leAt (reply.bytes packetNum) start 8 := by
    intro start hstart
    rw [List.prefix_iff_eq_take.mp hgot]
    exact leAt_take _ (by omega)
  refine ⟨?_, ?_, ?_⟩
  · rw [hentire, hword 8 (by omega), hentire']
  · rw [hpayload, hword 16 (by omega), hpayload']
  · rw [hnum, hword 24 (by omega), hnum', UInt64.ofNat_toNat]

/-- Reading a reply asks for no more than is left of it, and ends where it ends. -/
theorem read_reply {got : Bytes} (hgot : List.IsPrefix got (reply.bytes packetNum)) :
    match AfcPacket.read got with
    | .more count => got.length + count ≤ (reply.bytes packetNum).length
    | .packet packet => got = reply.bytes packetNum ∧ packet.header.packetNum = packetNum
    | .failed _ => True := by
  have hwhole := bytes_length reply packetNum
  have hshort := hgot.length_le
  have hlen : AfcPacketHeader.len = 40 := rfl
  unfold AfcPacket.read
  by_cases hlength : got.length < AfcPacketHeader.len
  · rw [if_pos hlength]
    dsimp only
    omega
  rw [if_neg hlength]
  cases hheader : AfcPacketHeader.read got with
  | error error => exact True.intro
  | ok header =>
    obtain ⟨hentire, hpayload, hnum⟩ := headerRead_reply hgot (by omega) hheader
    dsimp only
    by_cases hfits : header.headerPayloadLen < AfcPacketHeader.len ∨
        header.entireLen < header.headerPayloadLen ∨ 64 * 1024 * 1024 < header.entireLen
    · rw [if_pos hfits]
      exact True.intro
    rw [if_neg hfits]
    by_cases hfront : got.length < header.headerPayloadLen
    · rw [if_pos hfront]
      dsimp only
      omega
    rw [if_neg hfront]
    by_cases hend : got.length < header.entireLen
    · rw [if_pos hend]
      dsimp only
      omega
    rw [if_neg hend]
    exact ⟨hgot.eq_of_length (by omega), hnum⟩

end Wire

end XitForge.Afc
