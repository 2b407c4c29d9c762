import XitForge.OsTraceRelay.Receiver

/-!
The entries as the relay lays them out. Every such entry is read with its own texts and
numbers; its time is right only when there are no microseconds to add.
-/
namespace XitForge.OsTraceRelay

open RustEval RustSlice RustText ByteStream

section Layout

def LogLevel.byte : LogLevel → UInt8
  | .notice => 0
  | .info => 1
  | .debug => 2
  | .error => 0x10
  | .fault => 0x11

/-- A text and its terminator. -/
def terminated (text : String) : Bytes := utf8 text.toList ++ [0]

/-- What an entry says. The bytes that have no known meaning are those of `filler` at their
places, and whatever comes behind the texts. -/
structure EntryFields where
  pid : UInt32
  procid : UInt64
  processImageUuid : Bytes
  seconds : UInt32
  microseconds : UInt32
  level : LogLevel
  machTimestamp : UInt64
  threadId : UInt64
  imageUuid : Bytes
  imageOffset : UInt32
  filename : String
  imageName : String
  message : String
  label : Option SyslogLabel
  filler : ℕ → UInt8
  trailing : Bytes

namespace EntryFields

variable (entry : EntryFields)

def pad (offset count : ℕ) : Bytes := (List.range count).map fun i => entry.filler (offset + i)

/-- The sizes of the subsystem and the category, with their terminators. -/
def labelSizes : ℕ × ℕ :=
  match entry.label with
  | none => (0, 0)
  | some label => ((terminated label.subsystem).length, (terminated label.category).length)

def labelBytes : Bytes :=
  match entry.label with
  | none => []
  | some label => terminated label.subsystem ++ terminated label.category

def header : List Bytes := [
  entry.pad 0 9, leBytes 4 entry.pid.toNat,
  leBytes 8 entry.procid.toNat, entry.processImageUuid, entry.pad 37 18,
  leBytes 4 entry.seconds.toNat, entry.pad 59 4, leBytes 4 entry.microseconds.toNat,
  entry.pad 67 1, [entry.level.byte],
  entry.pad 69 4, leBytes 8 entry.machTimestamp.toNat, entry.pad 81 2,
  leBytes 8 entry.threadId.toNat, entry.imageUuid,
  leBytes 2 (terminated entry.imageName).length, leBytes 2 (terminated entry.message).length,
  entry.pad 111 2, leBytes 4 entry.imageOffset.toNat,
  leBytes 4 entry.labelSizes.1, leBytes 4 entry.labelSizes.2, entry.pad 125 4]

def texts : Bytes :=
  terminated entry.filename ++ (terminated entry.imageName ++ (terminated entry.message ++
    (entry.labelBytes ++ entry.trailing)))

def bytes : Bytes := entry.header.flatten ++ entry.texts

end EntryFields

/-- An entry whose sizes fit their fields. -/
structure Entry extends EntryFields where
  processImageUuid_length : processImageUuid.length = 16
  imageUuid_length : imageUuid.length = 16
  filename_ne_nul : ∀ c ∈ filename.toList, c.toNat ≠ 0
  imageName_size : (terminated imageName).length < 2 ^ 16
  message_size : (terminated message).length < 2 ^ 16
  packet_size : toEntryFields.bytes.length < 2 ^ 32

/-- The packet of an entry. -/
def Entry.packet (entry : Entry) : Bytes :=
  [2] ++ (leBytes 4 entry.bytes.length ++ entry.bytes)

/-- The entry at a time. -/
def Entry.log {Time : Type} (entry : Entry) (timestamp : Time) : OsTraceLog Time where
  pid := entry.pid.toNat
  timestamp := timestamp
  level := entry.level
  imageName := entry.imageName
  filename := entry.filename
  message := entry.message
  label := entry.label
  procid := entry.procid.toNat
  threadId := entry.threadId.toNat
  imageOffset := entry.imageOffset.toNat
  imageUuid := entry.imageUuid
  processImageUuid := entry.processImageUuid
  machTimestamp := entry.machTimestamp.toNat

end Layout

section Fields

/-- A piece of a list of pieces is at the sum of the lengths before it. -/
theorem piece_of_flatten {pieces : List Bytes} {piece rest : Bytes} {i : ℕ}
    (h : pieces[i]? = some piece) :
    ((pieces.flatten ++ rest).drop ((pieces.map List.length).take i).sum).take piece.length =
      piece := by
  induction pieces generalizing i with
  | nil => simp at h
  | cons first pieces ih =>
    cases i with
    | zero =>
      rw [List.getElem?_cons_zero, Option.some.injEq] at h
      rw [h, List.take_zero, List.sum_nil, List.drop_zero, List.flatten_cons, List.append_assoc,
        List.take_left]
    | succ i =>
      rw [List.getElem?_cons_succ] at h
      rw [List.map_cons, List.take_succ_cons, List.sum_cons, List.flatten_cons, List.append_assoc,
        ← List.drop_drop, List.drop_left]
      exact ih h

namespace Entry

variable (entry : Entry)

/-- The lengths of the pieces of a header. -/
def widths : List ℕ := [9, 4, 8, 16, 18, 4, 4, 4, 1, 1, 4, 8, 2, 8, 16, 2, 2, 2, 4, 4, 4, 4]

theorem length_pad (offset count : ℕ) : (entry.pad offset count).length = count := by
  unfold EntryFields.pad
  rw [List.length_map, List.length_range]

theorem header_widths : entry.header.map List.length = widths := by
  simp only [EntryFields.header, List.map_cons, List.map_nil, length_pad, length_leBytes,
    entry.processImageUuid_length, entry.imageUuid_length, List.length_singleton]
  rfl

/-- The piece of an entry at an offset. -/
theorem piece_eq (i offset : ℕ) {width : ℕ} {piece : Bytes} (h : entry.header[i]? = some piece)
    (hoffset : (widths.take i).sum = offset) (hwidth : widths[i]? = some width) :
    (entry.bytes.drop offset).take width = piece := by
  have hpiece := @piece_of_flatten _ _ entry.texts i h
  have hlength : piece.length = width := by
    rw [← header_widths entry, List.getElem?_map, h] at hwidth
    exact Option.some.inj hwidth
  rw [header_widths, hoffset, hlength] at hpiece
  exact hpiece

theorem numberAt_eq (i offset : ℕ) {width value : ℕ}
    (h : entry.header[i]? = some (leBytes width value))
    (hoffset : (widths.take i).sum = offset) (hwidth : widths[i]? = some width)
    (hvalue : value < 256 ^ width) : numberAt entry.bytes offset width = value := by
  unfold numberAt
  rw [entry.piece_eq i offset h hoffset hwidth, leValue_leBytes hvalue]

theorem length_header : entry.header.flatten.length = ENTRY_HEADER_LEN := by
  rw [List.length_flatten, header_widths]
  rfl

theorem length_bytes : entry.bytes.length = ENTRY_HEADER_LEN + entry.texts.length := by
  unfold EntryFields.bytes
  rw [List.length_append, length_header]

theorem drop_bytes : entry.bytes.drop ENTRY_HEADER_LEN = entry.texts := by
  unfold EntryFields.bytes
  rw [List.drop_left' (length_header entry)]

theorem levelAt_eq : levelAt entry.bytes = entry.level.byte := by
  have hpiece : (entry.bytes.drop 68).take 1 = [entry.level.byte] := entry.piece_eq 9 68 rfl rfl rfl
  have hget := congrArg (fun piece : Bytes => piece[0]?) hpiece
  simp only [List.getElem?_take_of_lt Nat.one_pos, List.getElem?_drop, Nat.add_zero] at hget
  unfold levelAt
  rw [hget]
  rfl

theorem tryFrom_byte (level : LogLevel) : LogLevel.tryFrom level.byte = .ok level := by
  cases level <;> rfl

/-- The sizes of a label are those of texts in the packet. -/
theorem labelSizes_lt : entry.labelSizes.1 < 2 ^ 32 ∧ entry.labelSizes.2 < 2 ^ 32 := by
  have htotal := entry.packet_size
  have hlabel : entry.labelSizes.1 + entry.labelSizes.2 = entry.labelBytes.length := by
    unfold EntryFields.labelSizes EntryFields.labelBytes
    cases entry.label with
    | none => rfl
    | some label => exact List.length_append.symm
  have htexts : entry.labelBytes.length ≤ entry.texts.length := by
    unfold EntryFields.texts
    simp only [List.length_append]
    omega
  rw [length_bytes] at htotal
  omega

/-- The header of an entry is read as it is laid out. -/
theorem headerOf_eq : headerOf entry.bytes entry.level = {
    pid := entry.pid.toNat
    procid := entry.procid.toNat
    processImageUuid := entry.processImageUuid
    seconds := entry.seconds.toNat
    microseconds := entry.microseconds.toNat
    level := entry.level
    machTimestamp := entry.machTimestamp.toNat
    threadId := entry.threadId.toNat
    imageUuid := entry.imageUuid
    imageNameSize := (terminated entry.imageName).length
    messageSize := (terminated entry.message).length
    imageOffset := entry.imageOffset.toNat
    subsystemSize := entry.labelSizes.1
    categorySize := entry.labelSizes.2 } := by
  obtain ⟨hsubsystem, hcategory⟩ := entry.labelSizes_lt
  unfold headerOf
  rw [entry.numberAt_eq 1 9 rfl rfl rfl entry.pid.toNat_lt,
    entry.numberAt_eq 2 13 rfl rfl rfl entry.procid.toNat_lt,
    entry.piece_eq 3 21 rfl rfl rfl,
    entry.numberAt_eq 5 55 rfl rfl rfl entry.seconds.toNat_lt,
    entry.numberAt_eq 7 63 rfl rfl rfl entry.microseconds.toNat_lt,
    entry.numberAt_eq 11 73 rfl rfl rfl entry.machTimestamp.toNat_lt,
    entry.numberAt_eq 13 83 rfl rfl rfl entry.threadId.toNat_lt,
    entry.piece_eq 14 91 rfl rfl rfl,
    entry.numberAt_eq 15 107 rfl rfl rfl entry.imageName_size,
    entry.numberAt_eq 16 109 rfl rfl rfl entry.message_size,
    entry.numberAt_eq 18 113 rfl rfl rfl entry.imageOffset.toNat_lt,
    entry.numberAt_eq 19 117 rfl rfl rfl hsubsystem,
    entry.numberAt_eq 20 121 rfl rfl rfl hcategory]

end Entry

end Fields

section Texts

variable (checks : Bool) (text : String) (rest : Bytes)

theorem length_terminated : (terminated text).length = (utf8 text.toList).length + 1 := by
  unfold terminated
  rw [List.length_append, List.length_singleton]

/-- A text with its terminator is taken as that text. -/
theorem takeText_terminated :
    takeText checks (terminated text ++ rest) (terminated text).length = .ok (text, rest) := by
  have hlength := length_terminated text
  have htake : (terminated text ++ rest).take ((terminated text).length - 1) =
      utf8 text.toList := by
    unfold terminated at hlength ⊢
    rw [hlength, Nat.add_sub_cancel, List.append_assoc, List.take_left]
  rw [takeText_eq, if_pos (by rw [List.length_append]; omega), htake, List.drop_left]
  unfold utf8
  rw [fromUtf8Lossy_encode]

theorem findIdx_terminated (h : ∀ c ∈ text.toList, c.toNat ≠ 0) :
    (terminated text ++ rest).findIdx? (· == 0) = some (utf8 text.toList).length := by
  have hzero : 0 ∉ utf8 text.toList := by
    intro hmem
    obtain ⟨c, hc, hbyte⟩ := List.mem_flatMap.mp hmem
    exact zero_notMem_utf8EncodeChar (h c hc) hbyte
  have hnone : (utf8 text.toList).findIdx? (· == 0) = none := by
    rw [List.findIdx?_eq_none_iff]
    intro byte hbyte
    exact beq_eq_false_iff_ne.mpr fun heq => hzero (heq ▸ hbyte)
  unfold terminated
  rw [List.append_assoc, List.findIdx?_append, hnone, List.singleton_append, List.findIdx?_cons]
  simp

theorem takeLabel_bytes (entry : EntryFields) :
    takeLabel checks (entry.labelBytes ++ entry.trailing) entry.labelSizes.1 entry.labelSizes.2 =
      .ok entry.label := by
  unfold EntryFields.labelBytes EntryFields.labelSizes takeLabel
  cases entry.label with
  | none => rfl
  | some label =>
    have hsubsystem := length_terminated label.subsystem
    have hcategory := length_terminated label.category
    dsimp only
    rw [if_pos ⟨by omega, by omega, by simp [terminated]⟩, List.append_assoc,
      takeText_terminated, Eval.ok_bind]
    dsimp only
    rw [takeText_terminated]
    rfl

end Texts

section RoundTrip

variable (chrono : Chrono) (checks : Bool) (entry : Entry)

/-- The packet of an entry is read as that entry, at the time that its two numbers are
handed on as. -/
theorem parseEntry_bytes : parseEntry chrono checks entry.bytes =
    match chrono.fromTimestamp entry.seconds.toNat entry.microseconds.toNat with
    | none => .err (.unexpectedResponse "invalid timestamp in log packet")
    | some timestamp => .ok (entry.log timestamp) := by
  have hlength : ENTRY_HEADER_LEN ≤ entry.bytes.length := by
    rw [entry.length_bytes]
    omega
  have hfind : (entry.bytes.drop ENTRY_HEADER_LEN).findIdx? (· == 0) =
      some (utf8 entry.filename.toList).length := by
    rw [entry.drop_bytes]
    exact findIdx_terminated entry.filename _ entry.filename_ne_nul
  have htake : (entry.bytes.drop ENTRY_HEADER_LEN).take (utf8 entry.filename.toList).length =
      utf8 entry.filename.toList := by
    rw [entry.drop_bytes, EntryFields.texts, terminated, List.append_assoc, List.take_left]
  have hdrop : (entry.bytes.drop ENTRY_HEADER_LEN).drop
      ((utf8 entry.filename.toList).length + 1) =
        terminated entry.imageName ++ (terminated entry.message ++
          (entry.labelBytes ++ entry.trailing)) := by
    rw [entry.drop_bytes, EntryFields.texts, ← length_terminated, List.drop_left]
  rw [parseEntry_eq hlength, entry.levelAt_eq, Entry.tryFrom_byte, Eval.ok_bind, hfind]
  dsimp only
  rw [htake, hdrop, entry.headerOf_eq]
  unfold parseTexts
  dsimp only
  rw [takeText_terminated, Eval.ok_bind]
  dsimp only
  rw [takeText_terminated, Eval.ok_bind]
  dsimp only
  rw [takeLabel_bytes, Eval.ok_bind]
  unfold utf8
  rw [fromUtf8Lossy_encode]
  rfl

theorem readRaw_append {count : ℕ} {front : Bytes} (h : front.length = count) (rest : Bytes) :
    readRaw count (front ++ rest) = .ok (front, rest) := by
  unfold readRaw
  rw [splitExact_append h]

theorem readPacket_packet (suffix : Bytes) :
    readPacket (entry.packet ++ suffix) = .ok (entry.bytes, suffix) := by
  have hnumber : number (leBytes 4 entry.bytes.length) 4 = .ok entry.bytes.length := by
    unfold number
    rw [indices_eq (by simp), Eval.ok_bind, List.drop_zero,
      List.take_of_length_le (length_leBytes _ _).le, leValue_leBytes entry.packet_size]
  unfold readPacket Entry.packet
  rw [List.append_assoc, readRaw_append (List.length_singleton : [(2 : UInt8)].length = 1),
    Eval.ok_bind]
  dsimp only
  rw [index_eq Nat.one_pos, Eval.ok_bind, List.append_assoc]
  change (readRaw 4 _ >>= _) = _
  rw [readRaw_append (length_leBytes _ _), Eval.ok_bind]
  dsimp only
  rw [hnumber, Eval.ok_bind, readRaw_append rfl]

/-- An entry is received with all it says, and the sum of its seconds and microseconds. -/
def Received (suffix : Bytes) : Prop :=
  ∃ timestamp, next chrono checks (entry.packet ++ suffix) = .ok (entry.log timestamp, suffix) ∧
    chrono.nanoseconds timestamp =
      entry.seconds.toNat * 10 ^ 9 + entry.microseconds.toNat * 1000

theorem next_packet (suffix : Bytes) : next chrono checks (entry.packet ++ suffix) =
    match chrono.fromTimestamp entry.seconds.toNat entry.microseconds.toNat with
    | none => .err (.unexpectedResponse "invalid timestamp in log packet")
    | some timestamp => .ok (entry.log timestamp, suffix) := by
  unfold next
  rw [readPacket_packet, Eval.ok_bind]
  dsimp only
  rw [parseEntry_bytes]
  cases chrono.fromTimestamp entry.seconds.toNat entry.microseconds.toNat with
  | none => rfl
  | some timestamp => rfl

theorem received_iff (suffix : Bytes) :
    Received chrono checks entry suffix ↔ entry.microseconds.toNat = 0 := by
  unfold Received
  rw [next_packet]
  constructor
  · intro h
    obtain ⟨timestamp, hnext, htime⟩ := h
    cases hread : chrono.fromTimestamp entry.seconds.toNat entry.microseconds.toNat with
    | none =>
      rw [hread] at hnext
      cases hnext
    | some time =>
      rw [hread] at hnext
      have hnanos := chrono.nanoseconds_fromTimestamp _ _ _ hread
      have heq : time = timestamp := by
        have hlog := congrArg (fun log => (log.1.timestamp : chrono.Time)) (Eval.ok.inj hnext)
        exact hlog
      rw [heq, htime] at hnanos
      omega
  · intro h
    obtain ⟨timestamp, hread⟩ := Option.isSome_iff_exists.mp
      (chrono.fromTimestamp_isSome entry.seconds.toNat entry.microseconds.toNat
        entry.seconds.toNat_lt (by omega))
    rw [hread]
    exact ⟨timestamp, rfl, by rw [chrono.nanoseconds_fromTimestamp _ _ _ hread, h]⟩

/-- The receiver returns for a stream, and returns what an entry says, just when the sizes in
the next packet fit and the entry has no microseconds. -/
theorem next_iff (chrono : Chrono) (checks : Bool) (stream : Bytes) (entry : Entry)
    (suffix : Bytes) :
    (next chrono checks stream ≠ .panic ∧ Received chrono checks entry suffix) ↔
    (∀ packet rest, readPacket stream = .ok (packet, rest) → Sound packet) ∧
      entry.microseconds.toNat = 0 := by
  rw [next_ne_panic_iff, received_iff]

/-- Times as nanoseconds. -/
def unixTime : Chrono where
  Time := ℕ
  fromTimestamp seconds nanos :=
    if nanos < 10 ^ 9 then some (seconds * 10 ^ 9 + nanos) else none
  nanoseconds time := time
  fromTimestamp_isSome _ _ _ h := by rw [if_pos h, Option.isSome_some]
  nanoseconds_fromTimestamp _ _ _ h := by
    obtain ⟨_, heq⟩ := Option.ite_none_right_eq_some.mp h
    exact (Option.some.inj heq).symm

/-- A packet of 130 zeros. -/
theorem next_panic :
    next unixTime true (2 :: 130 :: 0 :: 0 :: 0 :: List.replicate 130 0) = .panic := by
  have hread : readPacket (2 :: 130 :: 0 :: 0 :: 0 :: List.replicate 130 0) =
      .ok (List.replicate 130 0, []) := by decide +kernel
  have hlevel : LogLevel.tryFrom (levelAt (List.replicate 130 0)) = .ok .notice := by
    decide +kernel
  have hfind : ((List.replicate 130 0 : Bytes).drop ENTRY_HEADER_LEN).findIdx? (· == 0) =
      some 0 := by decide +kernel
  by_contra h
  have hsound := (next_ne_panic_iff _ _ _).mp h _ _ hread
  have hfit := hsound (by decide +kernel) .notice 0 hlevel hfind
  have hsize : (headerOf (List.replicate 130 0) .notice).imageNameSize = 0 := by decide +kernel
  exact absurd hfit.1 (by rw [hsize]; exact Nat.lt_irrefl 0)

end RoundTrip

end XitForge.OsTraceRelay
