import XitForge.RustSlice
import XitForge.RustText

/-!
The binary entries of the log relay. A header of 129 bytes has the sizes of the texts behind
it, which the receiver takes off the rest of the packet one after the other.
-/
namespace XitForge.OsTraceRelay

open RustEval RustSlice RustText ByteStream

inductive LogLevel where
  | notice
  | info
  | debug
  | error
  | fault
  deriving DecidableEq

structure SyslogLabel where
  subsystem : String
  category : String
  deriving DecidableEq

/-- A log entry, over the type of its time. The UUIDs are their sixteen bytes. -/
structure OsTraceLog (Time : Type) where
  pid : ℕ
  timestamp : Time
  level : LogLevel
  imageName : String
  filename : String
  message : String
  label : Option SyslogLabel
  procid : ℕ
  threadId : ℕ
  imageOffset : ℕ
  imageUuid : Bytes
  processImageUuid : Bytes
  machTimestamp : ℕ

/-- What is documented of `DateTime::from_timestamp` for seconds since the epoch that are not
negative and fit 32 bits. `nanoseconds` are those since the epoch. -/
structure Chrono where
  Time : Type
  fromTimestamp : ℕ → ℕ → Option Time
  nanoseconds : Time → ℕ
  fromTimestamp_isSome : ∀ seconds nanos, seconds < 2 ^ 32 → nanos < 10 ^ 9 →
    (fromTimestamp seconds nanos).isSome
  nanoseconds_fromTimestamp : ∀ seconds nanos time, fromTimestamp seconds nanos = some time →
    nanoseconds time = seconds * 10 ^ 9 + nanos

inductive NextError where
  | socket
  | unexpectedResponse (text : String)
  deriving DecidableEq

def ENTRY_HEADER_LEN : ℕ := 129

def LogLevel.tryFrom (value : UInt8) : Eval NextError LogLevel :=
  if value = 0 then .ok .notice
  else if value = 1 then .ok .info
  else if value = 2 then .ok .debug
  else if value = 0x10 then .ok .error
  else if value = 0x11 then .ok .fault
  else .err (.unexpectedResponse "unknown log level byte value")

/-- The fixed fields of an entry. -/
structure Header where
  pid : ℕ
  procid : ℕ
  processImageUuid : Bytes
  seconds : ℕ
  microseconds : ℕ
  level : LogLevel
  machTimestamp : ℕ
  threadId : ℕ
  imageUuid : Bytes
  imageNameSize : ℕ
  messageSize : ℕ
  imageOffset : ℕ
  subsystemSize : ℕ
  categorySize : ℕ

/-- A little-endian number from bytes that are taken one by one. -/
def number (packet : Bytes) (width : ℕ) : Eval NextError ℕ := do
  let bytes ← indices packet 0 width
  .ok (leValue bytes)

def readU64 (packet : Bytes) (offset : ℕ) : Eval NextError ℕ := do
  let bytes ← slice packet offset (offset + 8)
  .ok (leValue bytes)

def readUuid (packet : Bytes) (offset : ℕ) : Eval NextError Bytes :=
  slice packet offset (offset + 16)

/-- The fixed fields, and what is behind them. -/
def parseHeader (packet : Bytes) : Eval NextError (Header × Bytes) := do
  let packet ← sliceFrom packet 9
  let pid ← number packet 4
  let packet ← sliceFrom packet 4
  let procid ← readU64 packet 0
  let processImageUuid ← readUuid packet 8
  let packet ← sliceFrom packet 42
  let seconds ← number packet 4
  let packet ← sliceFrom packet 8
  let microseconds ← number packet 4
  let packet ← sliceFrom packet 4
  let packet ← sliceFrom packet 1
  let level ← index packet 0
  let level ← LogLevel.tryFrom level
  let packet ← sliceFrom packet 1
  let machTimestamp ← readU64 packet 4
  let threadId ← readU64 packet 14
  let imageUuid ← readUuid packet 22
  let packet ← sliceFrom packet 38
  let imageNameSize ← number packet 2
  let packet ← sliceFrom packet 2
  let messageSize ← number packet 2
  let packet ← sliceFrom packet 2
  let packet ← sliceFrom packet 2
  let imageOffset ← number packet 4
  let packet ← sliceFrom packet 4
  let subsystemSize ← number packet 4
  let packet ← sliceFrom packet 4
  let categorySize ← number packet 4
  let packet ← sliceFrom packet 4
  let packet ← sliceFrom packet 4
  let header : Header := {
    pid := pid
    procid := procid
    processImageUuid := processImageUuid
    seconds := seconds
    microseconds := microseconds
    level := level
    machTimestamp := machTimestamp
    threadId := threadId
    imageUuid := imageUuid
    imageNameSize := imageNameSize
    messageSize := messageSize
    imageOffset := imageOffset
    subsystemSize := subsystemSize
    categorySize := categorySize }
  .ok (header, packet)

/-- A text of a size that counts its terminator, and the packet behind it. -/
def takeText (checks : Bool) (packet : Bytes) (size : ℕ) : Eval NextError (String × Bytes) := do
  let bytes ← slice packet 0 size
  let stop ← Eval.sub 64 checks bytes.length 1
  let text ← slice bytes 0 stop
  let packet ← sliceFrom packet size
  .ok (fromUtf8Lossy text, packet)

/-- The subsystem and the category, where both have a size and there are bytes left. -/
def takeLabel (checks : Bool) (packet : Bytes) (subsystemSize categorySize : ℕ) :
    Eval NextError (Option SyslogLabel) :=
  if 0 < subsystemSize ∧ 0 < categorySize ∧ packet ≠ [] then do
    let (subsystem, packet) ← takeText checks packet subsystemSize
    let (category, _) ← takeText checks packet categorySize
    .ok (some { subsystem, category })
  else .ok none

variable (chrono : Chrono)

/-- The texts behind the filename, and the entry. -/
def parseTexts (checks : Bool) (header : Header) (filename packet : Bytes) :
    Eval NextError (OsTraceLog chrono.Time) := do
  let (imageName, packet) ← takeText checks packet header.imageNameSize
  let (message, packet) ← takeText checks packet header.messageSize
  let label ← takeLabel checks packet header.subsystemSize header.categorySize
  match chrono.fromTimestamp header.seconds header.microseconds with
  | none => .err (.unexpectedResponse "invalid timestamp in log packet")
  | some timestamp => .ok {
      pid := header.pid
      timestamp := timestamp
      level := header.level
      imageName := imageName
      filename := fromUtf8Lossy filename
      message := message
      label := label
      procid := header.procid
      threadId := header.threadId
      imageOffset := header.imageOffset
      imageUuid := header.imageUuid
      processImageUuid := header.processImageUuid
      machTimestamp := header.machTimestamp }

/-- The entry in a packet. -/
def parseEntry (checks : Bool) (packet : Bytes) : Eval NextError (OsTraceLog chrono.Time) :=
  if packet.length < ENTRY_HEADER_LEN then
    .err (.unexpectedResponse "log packet shorter than the fixed entry header")
  else do
    let (header, packet) ← parseHeader packet
    match packet.findIdx? (· == 0) with
    | none => .err (.unexpectedResponse "filename not null-terminated in log packet")
    | some filenameEnd => do
      let filename ← slice packet 0 filenameEnd
      let packet ← sliceFrom packet (filenameEnd + 1)
      parseTexts chrono checks header filename packet

/-- `Idevice::read_raw` of a socket with these bytes on it. -/
def readRaw (count : ℕ) (stream : Bytes) : Eval NextError (Bytes × Bytes) :=
  match splitExact count stream with
  | some read => .ok read
  | none => .err .socket

/-- The next packet. -/
def readPacket (stream : Bytes) : Eval NextError (Bytes × Bytes) := do
  let (first, stream) ← readRaw 1 stream
  let first ← index first 0
  if first ≠ 2 then
    .err (.unexpectedResponse "expected leading byte 0x02 at start of log packet")
  else do
    let (length, stream) ← readRaw 4 stream
    let length ← number length 4
    readRaw length stream

/-- `OsTraceRelayReceiver::next`, with what is left on the socket. -/
def next (checks : Bool) (stream : Bytes) : Eval NextError (OsTraceLog chrono.Time × Bytes) := do
  let (packet, stream) ← readPacket stream
  let entry ← parseEntry chrono checks packet
  .ok (entry, stream)

section Header

variable {packet : Bytes}

/-- The number of a width at an offset. -/
def numberAt (packet : Bytes) (offset width : ℕ) : ℕ := leValue ((packet.drop offset).take width)

def levelAt (packet : Bytes) : UInt8 := packet[68]?.getD 0

/-- The fixed fields by their places. -/
def headerOf (packet : Bytes) (level : LogLevel) : Header where
  pid := numberAt packet 9 4
  procid := numberAt packet 13 8
  processImageUuid := (packet.drop 21).take 16
  seconds := numberAt packet 55 4
  microseconds := numberAt packet 63 4
  level := level
  machTimestamp := numberAt packet 73 8
  threadId := numberAt packet 83 8
  imageUuid := (packet.drop 91).take 16
  imageNameSize := numberAt packet 107 2
  messageSize := numberAt packet 109 2
  imageOffset := numberAt packet 113 4
  subsystemSize := numberAt packet 117 4
  categorySize := numberAt packet 121 4

theorem sliceFrom_drop {offset count : ℕ} (h : offset + count ≤ packet.length) :
    (sliceFrom (packet.drop offset) count : Eval NextError Bytes) =
      .ok (packet.drop (offset + count)) := by
  rw [sliceFrom_eq (by rw [List.length_drop]; omega), List.drop_drop]

theorem number_drop {offset width : ℕ} (h : offset + width ≤ packet.length) :
    number (packet.drop offset) width = .ok (numberAt packet offset width) := by
  unfold number
  rw [indices_eq (by rw [List.length_drop]; omega), Eval.ok_bind, List.drop_zero]
  rfl

theorem slice_drop {offset start count : ℕ} (h : offset + start + count ≤ packet.length) :
    (slice (packet.drop offset) start (start + count) : Eval NextError Bytes) =
      .ok ((packet.drop (offset + start)).take count) := by
  rw [slice_eq (Nat.le_add_right _ _) (by rw [List.length_drop]; omega), List.drop_drop,
    Nat.add_sub_cancel_left]

theorem readU64_drop {offset start : ℕ} (h : offset + start + 8 ≤ packet.length) :
    readU64 (packet.drop offset) start = .ok (numberAt packet (offset + start) 8) := by
  unfold readU64
  rw [slice_drop h]
  rfl

theorem readUuid_drop {offset start : ℕ} (h : offset + start + 16 ≤ packet.length) :
    readUuid (packet.drop offset) start = .ok ((packet.drop (offset + start)).take 16) :=
  slice_drop h

theorem index_drop {offset : ℕ} (h : offset < packet.length) :
    (index (packet.drop offset) 0 : Eval NextError UInt8) = .ok (packet[offset]?.getD 0) := by
  rw [index_eq (by rw [List.length_drop]; omega), List.getElem_drop, List.getElem?_eq_getElem h]
  rfl

/-- The fixed fields are where they are read, once there is a header. -/
theorem parseHeader_eq (h : ENTRY_HEADER_LEN ≤ packet.length) :
    parseHeader packet =
      (LogLevel.tryFrom (levelAt packet) >>= fun level =>
        .ok (headerOf packet level, packet.drop ENTRY_HEADER_LEN)) := by
  unfold ENTRY_HEADER_LEN at h
  unfold parseHeader
  rw [sliceFrom_eq (show 9 ≤ packet.length by omega), Eval.ok_bind,
    number_drop (show 9 + 4 ≤ packet.length by omega), Eval.ok_bind,
    sliceFrom_drop (show 9 + 4 ≤ packet.length by omega), Eval.ok_bind,
    readU64_drop (show 13 + 0 + 8 ≤ packet.length by omega), Eval.ok_bind,
    readUuid_drop (show 13 + 8 + 16 ≤ packet.length by omega), Eval.ok_bind,
    sliceFrom_drop (show 13 + 42 ≤ packet.length by omega), Eval.ok_bind,
    number_drop (show 55 + 4 ≤ packet.length by omega), Eval.ok_bind,
    sliceFrom_drop (show 55 + 8 ≤ packet.length by omega), Eval.ok_bind,
    number_drop (show 63 + 4 ≤ packet.length by omega), Eval.ok_bind,
    sliceFrom_drop (show 63 + 4 ≤ packet.length by omega), Eval.ok_bind,
    sliceFrom_drop (show 67 + 1 ≤ packet.length by omega), Eval.ok_bind,
    index_drop (show 68 < packet.length by omega), Eval.ok_bind]
  change (LogLevel.tryFrom (levelAt packet) >>= _) = _
  congr 1
  funext level
  rw [sliceFrom_drop (show 68 + 1 ≤ packet.length by omega), Eval.ok_bind,
    readU64_drop (show 69 + 4 + 8 ≤ packet.length by omega), Eval.ok_bind,
    readU64_drop (show 69 + 14 + 8 ≤ packet.length by omega), Eval.ok_bind,
    readUuid_drop (show 69 + 22 + 16 ≤ packet.length by omega), Eval.ok_bind,
    sliceFrom_drop (show 69 + 38 ≤ packet.length by omega), Eval.ok_bind,
    number_drop (show 107 + 2 ≤ packet.length by omega), Eval.ok_bind,
    sliceFrom_drop (show 107 + 2 ≤ packet.length by omega), Eval.ok_bind,
    number_drop (show 109 + 2 ≤ packet.length by omega), Eval.ok_bind,
    sliceFrom_drop (show 109 + 2 ≤ packet.length by omega), Eval.ok_bind,
    sliceFrom_drop (show 111 + 2 ≤ packet.length by omega), Eval.ok_bind,
    number_drop (show 113 + 4 ≤ packet.length by omega), Eval.ok_bind,
    sliceFrom_drop (show 113 + 4 ≤ packet.length by omega), Eval.ok_bind,
    number_drop (show 117 + 4 ≤ packet.length by omega), Eval.ok_bind,
    sliceFrom_drop (show 117 + 4 ≤ packet.length by omega), Eval.ok_bind,
    number_drop (show 121 + 4 ≤ packet.length by omega), Eval.ok_bind,
    sliceFrom_drop (show 121 + 4 ≤ packet.length by omega), Eval.ok_bind,
    sliceFrom_drop (show 125 + 4 ≤ packet.length by omega), Eval.ok_bind]
  rfl

end Header

end XitForge.OsTraceRelay
