import XitForge.OsTraceRelay.Entry

/-!
The receiver of the log relay does not look whether the sizes in a header fit the packet, nor
whether they count a terminator, and hands on microseconds as nanoseconds.
-/
namespace XitForge.OsTraceRelay

open RustEval RustSlice RustText ByteStream

section Safety

variable {chrono : Chrono} {checks : Bool} {packet : Bytes}

/-- A text has a size that counts its terminator and is within the packet. -/
theorem takeText_eq (checks : Bool) (packet : Bytes) (size : ℕ) :
    takeText checks packet size =
      if 0 < size ∧ size ≤ packet.length then
        .ok (fromUtf8Lossy (packet.take (size - 1)), packet.drop size)
      else .panic := by
  unfold takeText
  by_cases hsize : size ≤ packet.length
  · rw [slice_eq (Nat.zero_le _) hsize, Eval.ok_bind, List.drop_zero, Nat.sub_zero,
      List.length_take_of_le hsize]
    by_cases hpos : 0 < size
    · have hstop : size - 1 ≤ (packet.take size).length := by
        rw [List.length_take_of_le hsize]
        omega
      rw [if_pos ⟨hpos, hsize⟩, Eval.sub_of_le hpos, Eval.ok_bind,
        slice_eq (Nat.zero_le _) hstop, Eval.ok_bind, sliceFrom_eq hsize, Eval.ok_bind,
        List.drop_zero, Nat.sub_zero, List.take_take, Nat.min_eq_left (by omega)]
    · have hzero : size = 0 := by omega
      rw [if_neg (by omega), hzero, List.take_zero]
      cases checks with
      | true => rw [Eval.sub_checked_of_lt Nat.one_pos, Eval.panic_bind]
      | false =>
        have hwrapped : (Eval.sub 64 false 0 1 : Eval NextError ℕ) = .ok (2 ^ 64 - 1) := rfl
        rw [hwrapped, Eval.ok_bind, slice_of_not (by simp), Eval.panic_bind]
  · rw [slice_of_not (by omega), if_neg (by omega), Eval.panic_bind]

/-- The sizes of a header fit the bytes behind the filename. -/
def TextsFit (header : Header) (texts : Bytes) : Prop :=
  0 < header.imageNameSize ∧ 0 < header.messageSize ∧
  header.imageNameSize + header.messageSize ≤ texts.length ∧
  (0 < header.subsystemSize → 0 < header.categorySize →
    header.imageNameSize + header.messageSize < texts.length →
    header.imageNameSize + header.messageSize + (header.subsystemSize + header.categorySize) ≤
      texts.length)

/-- The receiver gets to no text of the packet that is not there. -/
def Sound (packet : Bytes) : Prop :=
  ENTRY_HEADER_LEN ≤ packet.length → ∀ level filenameEnd,
    LogLevel.tryFrom (levelAt packet) = .ok level →
    (packet.drop ENTRY_HEADER_LEN).findIdx? (· == 0) = some filenameEnd →
    TextsFit (headerOf packet level) ((packet.drop ENTRY_HEADER_LEN).drop (filenameEnd + 1))

theorem takeLabel_panic_iff (checks : Bool) (packet : Bytes) (subsystemSize categorySize : ℕ) :
    takeLabel checks packet subsystemSize categorySize = .panic ↔
      0 < subsystemSize ∧ 0 < categorySize ∧ packet ≠ [] ∧
        packet.length < subsystemSize + categorySize := by
  unfold takeLabel
  by_cases h : 0 < subsystemSize ∧ 0 < categorySize ∧ packet ≠ []
  · rw [if_pos h, takeText_eq]
    by_cases hsubsystem : subsystemSize ≤ packet.length
    · rw [if_pos ⟨h.1, hsubsystem⟩, Eval.ok_bind]
      dsimp only
      rw [takeText_eq, List.length_drop]
      by_cases hcategory : categorySize ≤ packet.length - subsystemSize
      · rw [if_pos ⟨h.2.1, hcategory⟩, Eval.ok_bind]
        simp only [reduceCtorEq, false_iff]
        omega
      · rw [if_neg (by omega), Eval.panic_bind]
        simp only [true_iff]
        exact ⟨h.1, h.2.1, h.2.2, by omega⟩
    · rw [if_neg (by omega), Eval.panic_bind]
      simp only [true_iff]
      exact ⟨h.1, h.2.1, h.2.2, by omega⟩
  · rw [if_neg h]
    simp only [reduceCtorEq, false_iff]
    tauto

/-- The log level decides before any text is taken. -/
theorem tryFrom_ne_panic (value : UInt8) : LogLevel.tryFrom value ≠ .panic := by
  unfold LogLevel.tryFrom
  split_ifs <;> simp

theorem parseEntry_eq (h : ENTRY_HEADER_LEN ≤ packet.length) :
    parseEntry chrono checks packet =
      (LogLevel.tryFrom (levelAt packet) >>= fun level =>
        match (packet.drop ENTRY_HEADER_LEN).findIdx? (· == 0) with
        | none => .err (.unexpectedResponse "filename not null-terminated in log packet")
        | some filenameEnd =>
          parseTexts chrono checks (headerOf packet level)
            ((packet.drop ENTRY_HEADER_LEN).take filenameEnd)
            ((packet.drop ENTRY_HEADER_LEN).drop (filenameEnd + 1))) := by
  unfold parseEntry
  rw [if_neg (Nat.not_lt.mpr h), parseHeader_eq h]
  cases LogLevel.tryFrom (levelAt packet) with
  | err error => rfl
  | panic => rfl
  | ok level =>
    rw [Eval.ok_bind, Eval.ok_bind, Eval.ok_bind]
    dsimp only
    cases hfind : (packet.drop ENTRY_HEADER_LEN).findIdx? (· == 0) with
    | none => rfl
    | some filenameEnd =>
      obtain ⟨hlt, _⟩ := List.findIdx?_eq_some_iff_getElem.mp hfind
      dsimp only
      rw [slice_eq (Nat.zero_le _) hlt.le, Eval.ok_bind, sliceFrom_eq hlt, Eval.ok_bind]
      rfl

theorem parseTexts_panic_iff (header : Header) (filename texts : Bytes) :
    parseTexts chrono checks header filename texts = .panic ↔ ¬ TextsFit header texts := by
  unfold parseTexts TextsFit
  rw [takeText_eq]
  by_cases hname : 0 < header.imageNameSize ∧ header.imageNameSize ≤ texts.length
  · rw [if_pos hname, Eval.ok_bind]
    dsimp only
    rw [takeText_eq, List.length_drop]
    by_cases hmessage : 0 < header.messageSize ∧
        header.messageSize ≤ texts.length - header.imageNameSize
    · rw [if_pos hmessage, Eval.ok_bind]
      dsimp only
      have hlabel := takeLabel_panic_iff checks
        ((texts.drop header.imageNameSize).drop header.messageSize) header.subsystemSize
        header.categorySize
      rw [← List.length_pos_iff, List.length_drop, List.length_drop] at hlabel
      by_cases hread : takeLabel checks ((texts.drop header.imageNameSize).drop header.messageSize)
          header.subsystemSize header.categorySize = .panic
      · rw [hread, Eval.panic_bind, eq_self, true_iff]
        have hlong := hlabel.mp hread
        intro hfit
        have hlast := hfit.2.2.2 hlong.1 hlong.2.1 (by omega)
        omega
      · have hfit : header.imageNameSize + header.messageSize ≤ texts.length ∧
            (0 < header.subsystemSize → 0 < header.categorySize →
              header.imageNameSize + header.messageSize < texts.length →
              header.imageNameSize + header.messageSize +
                (header.subsystemSize + header.categorySize) ≤ texts.length) := by
          refine ⟨by omega, fun hsubsystem hcategory hlong => ?_⟩
          by_contra hshort
          exact hread (hlabel.mpr ⟨hsubsystem, hcategory, by omega, by omega⟩)
        refine iff_of_false ?_ (not_not_intro ⟨hname.1, hmessage.1, hfit⟩)
        cases hvalue : takeLabel checks
            ((texts.drop header.imageNameSize).drop header.messageSize) header.subsystemSize
            header.categorySize with
        | panic => exact absurd hvalue hread
        | err error => simp
        | ok label =>
          rw [Eval.ok_bind]
          split <;> simp
    · rw [if_neg hmessage, Eval.panic_bind, eq_self, true_iff]
      omega
  · rw [if_neg hname, Eval.panic_bind, eq_self, true_iff]
    omega

theorem parseEntry_panic_iff : parseEntry chrono checks packet = .panic ↔ ¬ Sound packet := by
  unfold Sound
  by_cases hlength : ENTRY_HEADER_LEN ≤ packet.length
  · rw [parseEntry_eq hlength]
    simp only [hlength, true_imp_iff]
    cases hlevel : LogLevel.tryFrom (levelAt packet) with
    | panic => exact absurd hlevel (tryFrom_ne_panic _)
    | err error => simp
    | ok level =>
      rw [Eval.ok_bind]
      cases hfind : (packet.drop ENTRY_HEADER_LEN).findIdx? (· == 0) with
      | none => simp
      | some filenameEnd =>
        dsimp only
        rw [parseTexts_panic_iff]
        simp
  · unfold parseEntry
    rw [if_pos (Nat.not_le.mp hlength)]
    simp [hlength]

theorem readRaw_ne_panic (count : ℕ) (stream : Bytes) : readRaw count stream ≠ .panic := by
  unfold readRaw
  split <;> simp

theorem readRaw_eq_ok {count : ℕ} {stream front rest : Bytes}
    (h : readRaw count stream = .ok (front, rest)) :
    stream = front ++ rest ∧ front.length = count := by
  unfold readRaw at h
  split at h
  · rename_i hsplit
    cases h
    exact splitExact_eq_some hsplit
  · cases h

theorem readPacket_ne_panic (stream : Bytes) : readPacket stream ≠ .panic := by
  unfold readPacket
  intro h
  cases hfirst : readRaw 1 stream with
  | panic => exact readRaw_ne_panic _ _ hfirst
  | err error =>
    rw [hfirst] at h
    cases h
  | ok read =>
    obtain ⟨first, stream'⟩ := read
    obtain ⟨_, hlength⟩ := readRaw_eq_ok hfirst
    rw [hfirst, Eval.ok_bind] at h
    dsimp only at h
    rw [index_eq (by omega), Eval.ok_bind] at h
    split at h
    · cases h
    · cases hsize : readRaw 4 stream' with
      | panic => exact readRaw_ne_panic _ _ hsize
      | err error =>
        rw [hsize] at h
        cases h
      | ok read =>
        obtain ⟨length, stream''⟩ := read
        obtain ⟨_, hlength⟩ := readRaw_eq_ok hsize
        rw [hsize, Eval.ok_bind] at h
        dsimp only at h
        unfold number at h
        rw [indices_eq (by omega), Eval.ok_bind, Eval.ok_bind] at h
        exact readRaw_ne_panic _ _ h

/-- The receiver returns unless the next packet has sizes that do not fit. -/
theorem next_ne_panic_iff (chrono : Chrono) (checks : Bool) (stream : Bytes) :
    next chrono checks stream ≠ .panic ↔
      ∀ packet rest, readPacket stream = .ok (packet, rest) → Sound packet := by
  unfold next
  cases hread : readPacket stream with
  | panic => exact absurd hread (readPacket_ne_panic stream)
  | err error => simp
  | ok read =>
    obtain ⟨packet, rest⟩ := read
    have hentry := @parseEntry_panic_iff chrono checks packet
    rw [Eval.ok_bind]
    dsimp only
    constructor
    · intro h packet' rest' heq
      cases heq
      by_contra hsound
      rw [hentry.mpr hsound] at h
      exact h rfl
    · intro h hpanic
      have hsound := h packet rest rfl
      cases hparse : parseEntry chrono checks packet with
      | panic => exact hentry.mp hparse hsound
      | err error =>
        rw [hparse] at hpanic
        cases hpanic
      | ok entry =>
        rw [hparse] at hpanic
        cases hpanic

end Safety

end XitForge.OsTraceRelay
