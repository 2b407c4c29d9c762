import XitForge.RustSlice

/-!
RTP packets of the display stream. A datagram is a header of twelve bytes, the CSRC
list, the extension, the payload and the padding; bits of the first byte say which of
them are there.
-/
namespace XitForge.CoreDevice.Rtp

open ByteStream RustEval RustSlice

structure RtpPacket where
  version : UInt8
  padding : Bool
  extension : Bool
  marker : Bool
  payloadType : UInt8
  sequenceNumber : ℕ
  timestamp : ℕ
  ssrc : ℕ
  csrc : List ℕ
  extProfile : ℕ
  extData : Bytes
  payload : Bytes
  deriving DecidableEq, Repr

section HeaderBits

variable (b0 : UInt8)

def hasPadding : Bool := b0 &&& 0x20 != 0

def hasExtension : Bool := b0 &&& 0x10 != 0

def csrcCount : ℕ := (b0 &&& 0x0f).toNat

theorem csrcCount_lt : csrcCount b0 < 16 := by
  have hand : (b0 &&& 0x0f).toNat ≤ 0x0f := by
    rw [UInt8.toNat_and]
    exact Nat.and_le_right
  unfold csrcCount
  omega

end HeaderBits

section Parse

variable (checks : Bool) (buf : Bytes)

/-- `for _ in 0..csrc_count`: the words and the offset behind them. -/
def csrcLoop : ℕ → ℕ → List ℕ → Eval Unit (List ℕ × ℕ)
  | 0, off, csrc => .ok (csrc, off)
  | count + 1, off, csrc => do
    let stop ← Eval.add 64 checks off 4
    let w ← tryRange buf off stop
    let word ← indices w 0 4
    csrcLoop count stop (csrc ++ [beValue word])

/-- The profile, the data and the offset behind them. -/
def readExtension (off : ℕ) : Eval Unit (ℕ × Bytes × ℕ) := do
  let stop ← Eval.add 64 checks off 4
  let hdr ← tryRange buf off stop
  let profile ← indices hdr 0 2
  let extWords ← indices hdr 2 2
  let off ← Eval.add 64 checks off 4
  let extLen := beValue extWords * 4
  let stop ← Eval.add 64 checks off extLen
  let extData ← tryRange buf off stop
  .ok (beValue profile, extData, stop)

/-- `if extension`: without one nothing is read. -/
def extensionAt (b0 : UInt8) (off : ℕ) : Eval Unit (ℕ × Bytes × ℕ) :=
  if hasExtension b0 then readExtension checks buf off else .ok (0, [], off)

/-- Where the payload ends. The last byte counts the padding, itself included. -/
def trimPadding (off : ℕ) : Eval Unit ℕ :=
  match buf.getLast? with
  | none => .err ()
  | some last =>
    let pad := last.toNat
    if pad = 0 ∨ buf.length - off < pad then .err () else Eval.sub 64 checks buf.length pad

/-- `if padding`: without it the payload takes the rest. -/
def payloadEnd (b0 : UInt8) (off : ℕ) : Eval Unit ℕ :=
  if hasPadding b0 then trimPadding checks buf off else .ok buf.length

/-- What the bits of the first byte cut the datagram into behind its header. -/
def parseParts (b0 : UInt8) : Eval Unit (List ℕ × ℕ × Bytes × Bytes) := do
  let (csrc, off) ← csrcLoop checks buf (csrcCount b0) 12 []
  let (extProfile, extData, off) ← extensionAt checks buf b0 off
  let stop ← payloadEnd checks buf b0 off
  let payload ← tryRange buf off stop
  .ok (csrc, extProfile, extData, payload)

/-- `RtpPacket::parse`. -/
def parse : Eval Unit RtpPacket :=
  if buf.length < 12 then .err ()
  else do
    let b0 ← index buf 0
    let version := b0 >>> 6
    if version ≠ 2 then .err ()
    else do
      let b1 ← index buf 1
      let sequenceNumber ← indices buf 2 2
      let timestamp ← indices buf 4 4
      let ssrc ← indices buf 8 4
      let (csrc, extProfile, extData, payload) ← parseParts checks buf b0
      .ok { version, padding := hasPadding b0, extension := hasExtension b0,
            marker := b1 &&& 0x80 != 0, payloadType := b1 &&& 0x7f,
            sequenceNumber := beValue sequenceNumber, timestamp := beValue timestamp,
            ssrc := beValue ssrc, csrc, extProfile, extData, payload }

end Parse

/-- `count` numbers of 32 bits, the most significant byte first. -/
def words : ℕ → Bytes → List ℕ
  | 0, _ => []
  | count + 1, bytes => beValue (bytes.take 4) :: words count (bytes.drop 4)

/-- The number of words that the header of an extension declares. -/
def declaredWords (ext : Bytes) : ℕ := beValue ((ext.drop 2).take 2)

/-- The padding behind a first byte `b0`: its last byte is its length. -/
def PadCounted (b0 : UInt8) (pad : Bytes) : Prop :=
  if hasPadding b0 then
    1 ≤ pad.length ∧ pad.length ≤ 255 ∧ pad.getLast? = some (UInt8.ofNat pad.length)
  else pad = []

/-- A datagram in its parts. `numbers` are the sequence number, the timestamp and the
SSRC. -/
structure Datagram where
  b0 : UInt8
  b1 : UInt8
  numbers : Bytes
  csrcs : Bytes
  ext : Bytes
  payload : Bytes
  pad : Bytes
  version_two : b0 >>> 6 = 2
  length_numbers : numbers.length = 10
  length_csrcs : csrcs.length = 4 * csrcCount b0
  length_ext : ext.length = if hasExtension b0 then 4 + 4 * declaredWords ext else 0
  pad_counted : PadCounted b0 pad

namespace Datagram

def header (d : Datagram) : Bytes := d.b0 :: d.b1 :: d.numbers

def bytes (d : Datagram) : Bytes := d.header ++ d.csrcs ++ d.ext ++ d.payload ++ d.pad

def packet (d : Datagram) : RtpPacket where
  version := d.b0 >>> 6
  padding := hasPadding d.b0
  extension := hasExtension d.b0
  marker := d.b1 &&& 0x80 != 0
  payloadType := d.b1 &&& 0x7f
  sequenceNumber := beValue (d.numbers.take 2)
  timestamp := beValue ((d.numbers.drop 2).take 4)
  ssrc := beValue (d.numbers.drop 6)
  csrc := words (csrcCount d.b0) d.csrcs
  extProfile := beValue (d.ext.take 2)
  extData := d.ext.drop 4
  payload := d.payload

end Datagram

theorem words_append {count : ℕ} {bytes : Bytes} (h : bytes.length = 4 * count) (rest : Bytes) :
    words count (bytes ++ rest) = words count bytes := by
  induction count generalizing bytes with
  | zero => rfl
  | succ count ih =>
    have hle : 4 ≤ bytes.length := by omega
    have hdrop : (bytes.drop 4).length = 4 * count := by
      rw [List.length_drop]
      omega
    rw [words, words, List.take_append_of_le_length hle, List.drop_append_of_le_length hle,
      ih hdrop]

section Helpers

variable {checks : Bool} {buf : Bytes}

theorem csrcLoop_eq {count off : ℕ} (hoff : off ≤ buf.length) (hmax : off + 4 * count < 2 ^ 64)
    (csrc : List ℕ) :
    csrcLoop checks buf count off csrc =
      if off + 4 * count ≤ buf.length then
        .ok (csrc ++ words count (buf.drop off), off + 4 * count)
      else .err () := by
  induction count generalizing off csrc with
  | zero => simp [csrcLoop, words, hoff]
  | succ count ih =>
    rw [csrcLoop, Eval.add_of_lt (by omega), Eval.ok_bind, tryRange_eq (Nat.le_add_right off 4)]
    by_cases hword : off + 4 ≤ buf.length
    · have hlength : ((buf.drop off).take 4).length = 4 := by
        rw [List.length_take, List.length_drop]
        omega
      rw [if_pos hword, Nat.add_sub_cancel_left, Eval.ok_bind, indices_eq (Nat.le_of_eq (by
        rw [hlength])), Eval.ok_bind, ih hword (by omega), List.drop_zero, List.take_take,
        Nat.min_self, words, List.drop_drop, List.append_assoc, List.singleton_append]
      have hsum : off + 4 + 4 * count = off + 4 * (count + 1) := by ring
      rw [hsum]
    · rw [if_neg hword, if_neg (by omega), Eval.err_bind]

theorem readExtension_eq {off : ℕ} (hoff : off < 2 ^ 32) :
    readExtension checks buf off =
      if off + 4 ≤ buf.length ∧ off + (4 + 4 * declaredWords (buf.drop off)) ≤ buf.length then
        .ok (beValue ((buf.drop off).take 2),
          (buf.drop (off + 4)).take (4 * declaredWords (buf.drop off)),
          off + (4 + 4 * declaredWords (buf.drop off)))
      else .err () := by
  unfold readExtension
  rw [Eval.add_of_lt (by omega), Eval.ok_bind, tryRange_eq (Nat.le_add_right off 4)]
  by_cases hheader : off + 4 ≤ buf.length
  · have hlength : ((buf.drop off).take 4).length = 4 := by
      rw [List.length_take, List.length_drop]
      omega
    have hprofile : (((buf.drop off).take 4).drop 0).take 2 = (buf.drop off).take 2 := by
      rw [List.drop_zero, List.take_take, Nat.min_eq_left (by omega)]
    have hwords : (((buf.drop off).take 4).drop 2).take 2 = ((buf.drop off).drop 2).take 2 := by
      rw [List.drop_take, List.take_take, Nat.min_eq_left (by omega)]
    have hlt := beValue_lt (((buf.drop off).drop 2).take 2)
    have hpow : 256 ^ (((buf.drop off).drop 2).take 2).length ≤ 256 ^ 2 :=
      Nat.pow_le_pow_right (by omega) (List.length_take_le _ _)
    rw [if_pos hheader, Nat.add_sub_cancel_left, Eval.ok_bind, indices_eq (by omega), Eval.ok_bind,
      indices_eq (by omega), Eval.ok_bind, Eval.ok_bind, hprofile, hwords]
    unfold declaredWords
    generalize beValue (((buf.drop off).drop 2).take 2) = extWords at hlt ⊢
    dsimp only
    rw [Eval.add_of_lt (by omega), Eval.ok_bind, tryRange_eq (Nat.le_add_right _ _)]
    have hstop : off + 4 + extWords * 4 = off + (4 + 4 * extWords) := by ring
    rw [Nat.add_sub_cancel_left, hstop, Nat.mul_comm extWords 4]
    by_cases hdata : off + (4 + 4 * extWords) ≤ buf.length
    · rw [if_pos hdata, if_pos ⟨hheader, hdata⟩, Eval.ok_bind]
    · rw [if_neg hdata, if_neg (by tauto), Eval.err_bind]
  · rw [if_neg hheader, if_neg (by tauto), Eval.err_bind]

/-- What the last byte of a datagram says about its padding. -/
def lastByte (buf : Bytes) : ℕ := (buf.getLast?.getD 0).toNat

theorem trimPadding_eq (off : ℕ) :
    trimPadding checks buf off =
      if 1 ≤ lastByte buf ∧ lastByte buf ≤ buf.length - off then .ok (buf.length - lastByte buf)
      else .err () := by
  unfold trimPadding lastByte
  cases buf.getLast? with
  | none => rfl
  | some last =>
    dsimp only [Option.getD_some]
    by_cases hpad : last.toNat = 0 ∨ buf.length - off < last.toNat
    · rw [if_pos hpad, if_neg (by omega)]
    · rw [if_neg hpad, if_pos (by omega), Eval.sub_of_le (by omega)]

theorem declaredWords_append {ext : Bytes} (h : 4 ≤ ext.length) (rest : Bytes) :
    declaredWords (ext ++ rest) = declaredWords ext := by
  unfold declaredWords
  rw [List.drop_append_of_le_length (by omega),
    List.take_append_of_le_length (by rw [List.length_drop]; omega)]

theorem extension_cases (checks : Bool) (buf : Bytes) (b0 : UInt8) {off : ℕ} (hoff : off < 2 ^ 32)
    (hle : off ≤ buf.length) :
    extensionAt checks buf b0 off = .err () ∨
      ∃ profile data stop, extensionAt checks buf b0 off = .ok (profile, data, stop) ∧
        off ≤ stop ∧ stop ≤ buf.length ∧
        stop - off = if hasExtension b0 then
          4 + 4 * declaredWords ((buf.drop off).take (stop - off)) else 0 := by
  unfold extensionAt
  cases hbit : hasExtension b0 with
  | false => exact .inr ⟨0, [], off, rfl, Nat.le_refl off, hle, Nat.sub_self off⟩
  | true =>
    rw [if_pos rfl, readExtension_eq hoff]
    by_cases hfits : off + 4 ≤ buf.length ∧
        off + (4 + 4 * declaredWords (buf.drop off)) ≤ buf.length
    · rw [if_pos hfits]
      refine .inr ⟨_, _, _, rfl, Nat.le_add_right off _, hfits.2, ?_⟩
      rw [Nat.add_sub_cancel_left, if_pos rfl]
      have hsplit := List.take_append_drop (4 + 4 * declaredWords (buf.drop off)) (buf.drop off)
      have hlength : 4 ≤ ((buf.drop off).take (4 + 4 * declaredWords (buf.drop off))).length := by
        rw [List.length_take, List.length_drop]
        omega
      have hsame := declaredWords_append hlength
        ((buf.drop off).drop (4 + 4 * declaredWords (buf.drop off)))
      rw [hsplit] at hsame
      rw [← hsame]
    · exact .inl (if_neg hfits)

theorem padding_cases (checks : Bool) (buf : Bytes) (b0 : UInt8) {off : ℕ}
    (hle : off ≤ buf.length) :
    payloadEnd checks buf b0 off = .err () ∨
      ∃ stop, payloadEnd checks buf b0 off = .ok stop ∧ off ≤ stop ∧ stop ≤ buf.length ∧
        PadCounted b0 (buf.drop stop) := by
  unfold payloadEnd PadCounted
  cases hbit : hasPadding b0 with
  | false => exact .inr ⟨buf.length, rfl, hle, Nat.le_refl _, by simp⟩
  | true =>
    rw [if_pos rfl, trimPadding_eq off]
    by_cases hfits : 1 ≤ lastByte buf ∧ lastByte buf ≤ buf.length - off
    · rw [if_pos hfits]
      refine .inr ⟨_, rfl, by omega, Nat.sub_le _ _, ?_⟩
      have hlength : (buf.drop (buf.length - lastByte buf)).length = lastByte buf := by
        rw [List.length_drop]
        omega
      have hlt := (buf.getLast?.getD 0).toNat_lt
      have hlast : (buf.drop (buf.length - lastByte buf)).getLast? = buf.getLast? := by
        rw [List.getLast?_drop, if_neg (by omega)]
      rw [if_pos rfl, hlength, hlast]
      refine ⟨hfits.1, by unfold lastByte; omega, ?_⟩
      unfold lastByte
      cases hbytes : buf.getLast? with
      | none =>
        rw [List.getLast?_eq_none_iff] at hbytes
        simp [hbytes] at hfits
        omega
      | some last => simp
    · exact .inl (if_neg hfits)

end Helpers

namespace Datagram

variable (d : Datagram)

theorem length_header : d.header.length = 12 := by
  simp [header, d.length_numbers]

theorem drop_header : d.bytes.drop 12 = d.csrcs ++ (d.ext ++ (d.payload ++ d.pad)) := by
  unfold bytes
  rw [← d.length_header]
  simp only [List.append_assoc, List.drop_left]

theorem drop_csrcs : d.bytes.drop (12 + 4 * csrcCount d.b0) = d.ext ++ (d.payload ++ d.pad) := by
  rw [← List.drop_drop, d.drop_header, ← d.length_csrcs, List.drop_left]

theorem drop_ext :
    d.bytes.drop (12 + 4 * csrcCount d.b0 + d.ext.length) = d.payload ++ d.pad := by
  rw [← List.drop_drop, d.drop_csrcs, List.drop_left]

theorem length_bytes : d.bytes.length =
    12 + 4 * csrcCount d.b0 + d.ext.length + d.payload.length + d.pad.length := by
  unfold bytes
  simp only [List.length_append, d.length_header, d.length_csrcs]

/-- The extension is read, and where there is none nothing is. -/
theorem extensionAt_bytes (checks : Bool) :
    extensionAt checks d.bytes d.b0 (12 + 4 * csrcCount d.b0) =
      .ok (beValue (d.ext.take 2), d.ext.drop 4, 12 + 4 * csrcCount d.b0 + d.ext.length) := by
  unfold extensionAt
  have hlength := d.length_ext
  have hcount := csrcCount_lt d.b0
  have htotal := d.length_bytes
  cases hbit : hasExtension d.b0 with
  | false =>
    rw [hbit] at hlength
    have hnil : d.ext = [] := List.length_eq_zero_iff.mp hlength
    rw [hnil]
    rfl
  | true =>
    rw [hbit, if_pos rfl] at hlength
    have hwords := declaredWords_append (by omega : 4 ≤ d.ext.length) (d.payload ++ d.pad)
    rw [if_pos rfl, readExtension_eq (by omega), d.drop_csrcs, hwords, ← hlength,
      if_pos (by omega), ← List.drop_drop, d.drop_csrcs]
    have hprofile : (d.ext ++ (d.payload ++ d.pad)).take 2 = d.ext.take 2 :=
      List.take_append_of_le_length (by omega)
    have hdata : ((d.ext ++ (d.payload ++ d.pad)).drop 4).take (4 * declaredWords d.ext) =
        d.ext.drop 4 := by
      have hrest : (d.ext.drop 4).length = 4 * declaredWords d.ext := by
        rw [List.length_drop]
        omega
      rw [List.drop_append_of_le_length (by omega), ← hrest, List.take_left]
    rw [hprofile, hdata]

theorem lastByte_bytes (h : hasPadding d.b0 = true) : lastByte d.bytes = d.pad.length := by
  have hpad := d.pad_counted
  unfold PadCounted at hpad
  rw [if_pos h] at hpad
  obtain ⟨hpos, hle, hlast⟩ := hpad
  have hbytes : d.bytes.getLast? = some (UInt8.ofNat d.pad.length) := by
    unfold bytes
    rw [List.getLast?_append, hlast, Option.some_or]
  rw [lastByte, hbytes, Option.getD_some, UInt8.toNat_ofNat']
  omega

theorem payloadEnd_bytes (checks : Bool) :
    payloadEnd checks d.bytes d.b0 (12 + 4 * csrcCount d.b0 + d.ext.length) =
      .ok (12 + 4 * csrcCount d.b0 + d.ext.length + d.payload.length) := by
  have htotal := d.length_bytes
  have hpad := d.pad_counted
  unfold PadCounted at hpad
  unfold payloadEnd
  cases hbit : hasPadding d.b0 with
  | false =>
    rw [hbit] at hpad
    rw [if_neg (by simp), htotal, hpad]
    rfl
  | true =>
    rw [hbit, if_pos rfl] at hpad
    rw [if_pos rfl, trimPadding_eq, d.lastByte_bytes hbit, if_pos (by omega), htotal,
      Nat.add_sub_cancel]

theorem parseParts_bytes (checks : Bool) : parseParts checks d.bytes d.b0 =
    .ok (d.packet.csrc, d.packet.extProfile, d.packet.extData, d.packet.payload) := by
  have htotal := d.length_bytes
  have hcount := csrcCount_lt d.b0
  unfold parseParts
  rw [csrcLoop_eq (by omega) (by omega), if_pos (by omega), Eval.ok_bind, List.nil_append,
    d.drop_header, words_append d.length_csrcs]
  dsimp only
  rw [d.extensionAt_bytes checks, Eval.ok_bind]
  dsimp only
  rw [d.payloadEnd_bytes checks, Eval.ok_bind, tryRange_eq (Nat.le_add_right _ _),
    if_pos (by omega), d.drop_ext, Nat.add_sub_cancel_left, List.take_left]
  rfl

theorem parse_bytes (checks : Bool) : parse checks d.bytes = .ok d.packet := by
  have htotal := d.length_bytes
  have hfirst : (index d.bytes 0 : Eval Unit UInt8) = .ok d.b0 := rfl
  have hsecond : (index d.bytes 1 : Eval Unit UInt8) = .ok d.b1 := rfl
  have hdrop (i : ℕ) (hi : i ≤ 10) :
      d.bytes.drop (2 + i) = d.numbers.drop i ++ d.bytes.drop 12 := by
    have hheader : d.header.drop (2 + i) = d.numbers.drop i := by
      rw [← List.drop_drop]
      rfl
    have hsplit : d.bytes = d.header ++ d.bytes.drop 12 := by
      rw [d.drop_header]
      simp only [bytes, List.append_assoc]
    conv_lhs => rw [hsplit]
    rw [List.drop_append_of_le_length (by rw [d.length_header]; omega), hheader]
  have hread (i count : ℕ) (hi : i + count ≤ 10) :
      (indices d.bytes (2 + i) count : Eval Unit Bytes) = .ok ((d.numbers.drop i).take count) := by
    rw [indices_eq (by omega), hdrop i (by omega), List.take_append_of_le_length (by
      rw [List.length_drop, d.length_numbers]
      omega)]
  have hssrc : (d.numbers.drop 6).take 4 = d.numbers.drop 6 :=
    List.take_of_length_le (by rw [List.length_drop, d.length_numbers])
  unfold parse
  rw [if_neg (by omega), hfirst, Eval.ok_bind]
  dsimp only
  rw [if_neg (not_not_intro d.version_two), hsecond, Eval.ok_bind, hread 0 2 (by omega),
    Eval.ok_bind, hread 2 4 (by omega), Eval.ok_bind, hread 6 4 (by omega), Eval.ok_bind,
    d.parseParts_bytes checks, Eval.ok_bind, hssrc]
  rfl

end Datagram

/-- What is not refused behind the header ends its extension and its payload somewhere. -/
theorem exists_stops {checks : Bool} {buf : Bytes} {b0 : UInt8} (hlen : 12 ≤ buf.length)
    (h : parseParts checks buf b0 ≠ .err ()) :
    ∃ extEnd stop, 12 + 4 * csrcCount b0 ≤ extEnd ∧ extEnd ≤ stop ∧ stop ≤ buf.length ∧
      extEnd - (12 + 4 * csrcCount b0) = (if hasExtension b0 then
        4 + 4 * declaredWords ((buf.drop (12 + 4 * csrcCount b0)).take
          (extEnd - (12 + 4 * csrcCount b0))) else 0) ∧
      PadCounted b0 (buf.drop stop) := by
  have hcount := csrcCount_lt b0
  unfold parseParts at h
  rw [csrcLoop_eq hlen (by omega)] at h
  by_cases hcsrcs : 12 + 4 * csrcCount b0 ≤ buf.length
  swap
  · rw [if_neg hcsrcs] at h
    exact absurd rfl h
  rw [if_pos hcsrcs, Eval.ok_bind] at h
  dsimp only at h
  obtain hext | ⟨profile, data, extEnd, hext, hextLe, hextLen, hextWords⟩ :=
    extension_cases checks buf b0 (by omega) hcsrcs
  · rw [hext] at h
    exact absurd rfl h
  rw [hext, Eval.ok_bind] at h
  dsimp only at h
  rcases padding_cases checks buf b0 hextLen with hpad | ⟨stop, hpad, hstopLe, hstopLen, hcounted⟩
  · rw [hpad] at h
    exact absurd rfl h
  exact ⟨extEnd, stop, hextLe, hstopLe, hstopLen, hextWords, hcounted⟩

/-- A datagram that is not refused has a header, and what is behind it is not refused. -/
theorem exists_header {checks : Bool} {buf : Bytes} (h : parse checks buf ≠ .err ()) :
    12 ≤ buf.length ∧ ∃ b0 b1 rest, buf = b0 :: b1 :: rest ∧ b0 >>> 6 = 2 ∧
      parseParts checks buf b0 ≠ .err () := by
  by_cases hlen : buf.length < 12
  · exact absurd (if_pos hlen) h
  obtain ⟨b0, b1, rest, hbuf⟩ : ∃ b0 b1 rest, buf = b0 :: b1 :: rest := by
    match buf, hlen with
    | b0 :: b1 :: rest, _ => exact ⟨b0, b1, rest, rfl⟩
    | [_], hlen => exact absurd (by decide : 1 < 12) hlen
    | [], hlen => exact absurd (by decide : 0 < 12) hlen
  have hfirst : (index buf 0 : Eval Unit UInt8) = .ok b0 := by
    rw [hbuf]
    rfl
  have hsecond : (index buf 1 : Eval Unit UInt8) = .ok b1 := by
    rw [hbuf]
    rfl
  unfold parse at h
  rw [if_neg hlen, hfirst, Eval.ok_bind] at h
  by_cases hversion : b0 >>> 6 = 2
  swap
  · exact absurd (if_pos hversion) h
  refine ⟨by omega, b0, b1, rest, hbuf, hversion, ?_⟩
  intro herr
  apply h
  dsimp only
  rw [if_neg (not_not_intro hversion), hsecond, Eval.ok_bind, indices_eq (by omega),
    Eval.ok_bind, indices_eq (by omega), Eval.ok_bind, indices_eq (by omega), Eval.ok_bind, herr,
    Eval.err_bind]

/-- A datagram that is not refused has parts. -/
theorem exists_datagram {checks : Bool} {buf : Bytes} (h : parse checks buf ≠ .err ()) :
    ∃ d : Datagram, d.bytes = buf := by
  obtain ⟨hlen, b0, b1, rest, hbuf, hversion, hparts⟩ := exists_header h
  obtain ⟨extEnd, stop, hextLe, hstopLe, hstopLen, hextWords, hcounted⟩ := exists_stops hlen hparts
  refine ⟨⟨b0, b1, (buf.drop 2).take (12 - 2),
    (buf.drop 12).take (12 + 4 * csrcCount b0 - 12),
    (buf.drop (12 + 4 * csrcCount b0)).take (extEnd - (12 + 4 * csrcCount b0)),
    (buf.drop extEnd).take (stop - extEnd), buf.drop stop, hversion, ?_, ?_, ?_, hcounted⟩, ?_⟩
  · rw [List.length_take, List.length_drop]
    omega
  · rw [List.length_take, List.length_drop]
    omega
  · rw [← hextWords, List.length_take, List.length_drop]
    omega
  · have hfront : buf = b0 :: b1 :: buf.drop 2 := by rw [hbuf]; rfl
    unfold Datagram.bytes Datagram.header
    simp only [List.append_assoc]
    rw [drop_cut hstopLe, drop_cut hextLe, drop_cut (Nat.le_add_right _ _), List.cons_append,
      List.cons_append, drop_cut (by omega), ← hfront]

/-- The parser takes what is a datagram, cuts it into its parts, and refuses the rest. -/
theorem parse_partitions (checks : Bool) (buf : Bytes) :
    parse checks buf ≠ .panic ∧
      ∀ p, parse checks buf = .ok p ↔ ∃ d : Datagram, d.bytes = buf ∧ d.packet = p := by
  have hparts : parse checks buf ≠ .err () → ∃ d : Datagram, d.bytes = buf := exists_datagram
  constructor
  · intro hpanic
    obtain ⟨d, rfl⟩ := hparts (by rw [hpanic]; exact nofun)
    rw [d.parse_bytes checks] at hpanic
    cases hpanic
  · intro p
    constructor
    · intro h
      obtain ⟨d, rfl⟩ := hparts (by rw [h]; exact nofun)
      rw [d.parse_bytes checks] at h
      exact ⟨d, rfl, Eval.ok.inj h⟩
    · intro hgiven
      obtain ⟨d, rfl, rfl⟩ := hgiven
      exact d.parse_bytes checks

end XitForge.CoreDevice.Rtp
