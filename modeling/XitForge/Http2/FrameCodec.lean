import XitForge.Http2.Delivery

/-!
The bytes of a frame, and what is parsed of them. A frame is read when its last byte is
there and not before, so frames that follow one another come back one by one, and what
is behind the last whole one waits.
-/
namespace XitForge.Http2

open Xpc (toLEBytes fromLEBytes_toLEBytes toLEBytes_length)

/-- `to_be_bytes` of so many bytes. -/
def toBEBytes (width value : ℕ) : Bytes := (toLEBytes width value).reverse

def Setting.serialize : Setting → Bytes
  | .maxConcurrentStreams value => [0x00, 0x03] ++ toBEBytes 4 value
  | .initialWindowSize value => [0x00, 0x04] ++ toBEBytes 4 value

namespace Written

/-- The length is a `u32` without its first byte. -/
def serialize : Written → Bytes
  | settings frame =>
    let entries := frame.settings.flatMap Setting.serialize
    (toBEBytes 4 entries.length).drop 1 ++ [0x04, frame.flags] ++ toBEBytes 4 frame.streamId ++ entries
  | windowUpdate frame =>
    [0x00, 0x00, 0x04, 0x08, 0x00] ++ toBEBytes 4 frame.streamId ++ toBEBytes 4 frame.incrementSize
  | headers streamId => [0x00, 0x00, 0x00, 0x01, 0x04] ++ toBEBytes 4 streamId
  | data frame =>
    (toBEBytes 4 frame.payload.length).drop 1 ++ [0x00, if frame.endStream then 0x01 else 0x00] ++
      toBEBytes 4 frame.streamId ++ frame.payload

/-- The frame that the peer reads. -/
def frame : Written → Frame
  | settings frame => .settings frame
  | windowUpdate frame => .windowUpdate frame
  | headers streamId => .headers streamId
  | data frame => .data frame

end Written

/-- The value of a setting is a `u32`. -/
def Setting.Fits : Setting → Prop
  | .maxConcurrentStreams value => value < 2 ^ 32
  | .initialWindowSize value => value < 2 ^ 32

/-- The fields are `u32`s, and 24 bits hold the length of the payload. -/
def Written.Fits : Written → Prop
  | settings frame => (∀ setting ∈ frame.settings, setting.Fits) ∧
      6 * frame.settings.length < 2 ^ 24 ∧ frame.streamId < 2 ^ 32
  | windowUpdate frame => frame.incrementSize < 2 ^ 32 ∧ frame.streamId < 2 ^ 32
  | headers streamId => streamId < 2 ^ 32
  | data frame => frame.payload.length < 2 ^ 24 ∧ frame.streamId < 2 ^ 32

section Codec

@[simp] theorem length_toBEBytes (width value : ℕ) : (toBEBytes width value).length = width := by
  rw [toBEBytes, List.length_reverse, toLEBytes_length]

theorem fromBEBytes_toBEBytes {width value : ℕ} (h : value < 256 ^ width) :
    fromBEBytes (toBEBytes width value) = value := by
  rw [fromBEBytes, toBEBytes, List.reverse_reverse, fromLEBytes_toLEBytes width value h]

/-- A `u32` without its first byte. -/
theorem toBEBytes_drop (value : ℕ) : (toBEBytes 4 value).drop 1 = toBEBytes 3 value := by
  simp [toBEBytes, toLEBytes]

/-- The bytes of a frame: its header and its body. -/
def frameBytes (type flags : UInt8) (streamId : ℕ) (body : Bytes) : Bytes :=
  toBEBytes 3 body.length ++ ([type, flags] ++ (toBEBytes 4 streamId ++ body))

theorem serialize_settings (frame : SettingsFrame) :
    (Written.settings frame).serialize =
      frameBytes 0x04 frame.flags frame.streamId (frame.settings.flatMap Setting.serialize) := by
  rw [Written.serialize, frameBytes, toBEBytes_drop]
  simp only [List.append_assoc]

theorem serialize_windowUpdate (frame : WindowUpdateFrame) :
    (Written.windowUpdate frame).serialize =
      frameBytes 0x08 0x00 frame.streamId (toBEBytes 4 frame.incrementSize) := by
  rw [Written.serialize, frameBytes, length_toBEBytes]
  rfl

theorem serialize_headers (streamId : ℕ) :
    (Written.headers streamId).serialize = frameBytes 0x01 0x04 streamId [] := by
  rw [Written.serialize, frameBytes, List.append_nil]
  rfl

theorem serialize_data (frame : DataFrame) :
    (Written.data frame).serialize =
      frameBytes 0x00 (if frame.endStream then 0x01 else 0x00) frame.streamId frame.payload := by
  rw [Written.serialize, frameBytes, toBEBytes_drop]
  simp only [List.append_assoc]

section Header

variable {type flags : UInt8} {streamId : ℕ} {body : Bytes}

theorem length_frameBytes : (frameBytes type flags streamId body).length = 9 + body.length := by
  simp only [frameBytes, List.length_append, length_toBEBytes, List.length_cons, List.length_nil]
  omega

theorem frameTotal_of_prefix {bytes more : Bytes} (hbody : body.length < 2 ^ 24)
    (heq : frameBytes type flags streamId body = bytes ++ more) (hheader : 9 ≤ bytes.length) :
    frameTotal bytes = 9 + body.length := by
  rw [← frameTotal_append hheader more, ← heq, frameTotal, frameBytes,
    List.take_left' (length_toBEBytes 3 _), fromBEBytes_toBEBytes (by omega)]

theorem frameAt_frameBytes (hbody : body.length < 2 ^ 24) (hid : streamId < 2 ^ 32) :
    frameAt (frameBytes type flags streamId body) = parseBody type flags streamId body := by
  have hheader : 9 ≤ (frameBytes type flags streamId body).length := by
    rw [length_frameBytes]
    omega
  have htotal : frameTotal (frameBytes type flags streamId body) = 9 + body.length :=
    frameTotal_of_prefix hbody (List.append_nil _).symm hheader
  have hthree : (toBEBytes 3 body.length).length = 3 := length_toBEBytes 3 _
  have hfour : (toBEBytes 4 streamId).length = 4 := length_toBEBytes 4 _
  have hdrop3 : (frameBytes type flags streamId body).drop 3 =
      type :: flags :: (toBEBytes 4 streamId ++ body) := by
    rw [frameBytes, List.drop_left' hthree]
    rfl
  have hdrop5 : (frameBytes type flags streamId body).drop 5 = toBEBytes 4 streamId ++ body := by
    rw [show (5 : ℕ) = 3 + 2 from rfl, ← List.drop_drop, hdrop3]
    rfl
  have hdrop9 : (frameBytes type flags streamId body).drop 9 = body := by
    rw [show (9 : ℕ) = 5 + 4 from rfl, ← List.drop_drop, hdrop5, List.drop_left' hfour]
  have hbyte (index : ℕ) : (frameBytes type flags streamId body).getD (3 + index) 0 =
      (type :: flags :: (toBEBytes 4 streamId ++ body)).getD index 0 := by
    rw [List.getD_eq_getElem?_getD, List.getD_eq_getElem?_getD, ← List.getElem?_drop, hdrop3]
  have htype := hbyte 0
  have hflags := hbyte 1
  unfold frameAt
  rw [htotal, htype, hflags, hdrop5, List.take_left' hfour, fromBEBytes_toBEBytes (by omega),
    List.take_of_length_le (by rw [length_frameBytes]), hdrop9]
  rfl

/-- Of less than the whole frame nothing is parsed. -/
theorem parse_of_prefix {bytes more : Bytes} (hbody : body.length < 2 ^ 24)
    (heq : frameBytes type flags streamId body = bytes ++ more) (hmore : more ≠ []) :
    Frame.parse bytes = .ok none := by
  have hlength := congrArg List.length heq
  rw [length_frameBytes, List.length_append] at hlength
  have hpos : 0 < more.length := List.length_pos_iff.mpr hmore
  unfold Frame.parse
  by_cases hheader : bytes.length < 9
  · rw [if_pos hheader]
  · rw [if_neg hheader, frameTotal_of_prefix hbody heq (Nat.le_of_not_lt hheader),
      if_pos (by omega)]

end Header

theorem length_serialize (setting : Setting) : setting.serialize.length = 6 := by
  cases setting <;> simp [Setting.serialize]

theorem length_entries (settings : List Setting) :
    (settings.flatMap Setting.serialize).length = 6 * settings.length := by
  induction settings with
  | nil => rfl
  | cons setting settings ih =>
    rw [List.flatMap_cons, List.length_append, length_serialize, ih, List.length_cons]
    omega

/-- The entries of a SETTINGS frame come back. -/
theorem parseSettings_entries {settings : List Setting} (h : ∀ setting ∈ settings, setting.Fits) :
    parseSettings (settings.flatMap Setting.serialize) = .ok settings := by
  induction settings with
  | nil => rfl
  | cons setting settings ih =>
    have hrest := ih fun other hother => h other (List.mem_cons_of_mem _ hother)
    have hfits := h setting (List.mem_cons_self ..)
    have hfour (value : ℕ) : ∃ v0 v1 v2 v3, toBEBytes 4 value = [v0, v1, v2, v3] :=
      ⟨UInt8.ofNat (value / 256 / 256 / 256), UInt8.ofNat (value / 256 / 256),
        UInt8.ofNat (value / 256), UInt8.ofNat value, rfl⟩
    rw [List.flatMap_cons]
    cases setting with
    | maxConcurrentStreams value =>
      have hvalue : fromBEBytes (toBEBytes 4 value) = value := fromBEBytes_toBEBytes hfits
      obtain ⟨v0, v1, v2, v3, hbytes⟩ := hfour value
      rw [hbytes] at hvalue
      rw [Setting.serialize, hbytes]
      show parseSettings (0x00 :: 0x03 :: v0 :: v1 :: v2 :: v3 ::
        settings.flatMap Setting.serialize) = _
      rw [parseSettings, hvalue, hrest]
      rfl
    | initialWindowSize value =>
      have hvalue : fromBEBytes (toBEBytes 4 value) = value := fromBEBytes_toBEBytes hfits
      obtain ⟨v0, v1, v2, v3, hbytes⟩ := hfour value
      rw [hbytes] at hvalue
      rw [Setting.serialize, hbytes]
      show parseSettings (0x00 :: 0x04 :: v0 :: v1 :: v2 :: v3 ::
        settings.flatMap Setting.serialize) = _
      rw [parseSettings, hvalue, hrest]
      rfl

/-- Every frame is a header and a body, which is parsed to the frame. -/
theorem serialize_eq {written : Written} (h : written.Fits) :
    ∃ type flags streamId body, written.serialize = frameBytes type flags streamId body ∧
      body.length < 2 ^ 24 ∧ streamId < 2 ^ 32 ∧
      parseBody type flags streamId body = .ok written.frame := by
  cases written with
  | settings frame =>
    obtain ⟨hsettings, hlength, hid⟩ := h
    refine ⟨_, _, _, _, serialize_settings frame, ?_, hid, ?_⟩
    · rwa [length_entries]
    · show (do
        let settings ← parseSettings (frame.settings.flatMap Setting.serialize)
        return Frame.settings ⟨settings, frame.streamId, frame.flags⟩ : Except Error Frame) = _
      rw [parseSettings_entries hsettings]
      rfl
  | windowUpdate frame =>
    obtain ⟨hincrement, hid⟩ := h
    refine ⟨_, _, _, _, serialize_windowUpdate frame, ?_, hid, ?_⟩
    · rw [length_toBEBytes]
      omega
    · have hvalue : fromBEBytes (toBEBytes 4 frame.incrementSize) = frame.incrementSize :=
        fromBEBytes_toBEBytes hincrement
      show (if (toBEBytes 4 frame.incrementSize).length ≠ 4 then .error .windowUpdateBody
        else return Frame.windowUpdate ⟨fromBEBytes (toBEBytes 4 frame.incrementSize),
          frame.streamId⟩ : Except Error Frame) = _
      rw [if_neg (by simp), hvalue]
      rfl
  | headers streamId => exact ⟨_, _, _, _, serialize_headers streamId, by decide, h, rfl⟩
  | data frame =>
    obtain ⟨hlength, hid⟩ := h
    refine ⟨_, _, _, _, serialize_data frame, hlength, hid, ?_⟩
    have hflag : ∀ endStream : Bool,
        ((if endStream then 0x01 else 0x00 : UInt8) &&& 0x01 != 0) = endStream := by decide
    rw [parseBody, if_pos rfl, hflag]
    rfl

theorem parse_serialize {written : Written} (h : written.Fits) :
    Frame.parse written.serialize = .ok (some (written.frame, written.serialize.length)) := by
  obtain ⟨type, flags, streamId, body, heq, hbody, hid, hparse⟩ := serialize_eq h
  have hlength : (frameBytes type flags streamId body).length = 9 + body.length := length_frameBytes
  have htotal : frameTotal (frameBytes type flags streamId body) = 9 + body.length :=
    frameTotal_of_prefix hbody (List.append_nil _).symm (by omega)
  rw [heq]
  apply parse_eq_some_iff.mpr
  rw [htotal, hlength, frameAt_frameBytes hbody hid]
  exact ⟨by omega, rfl, Nat.le_refl _, hparse⟩

/-- A frame that lacks a byte is no frame yet, and no error. -/
theorem parse_strict_prefix {written : Written} (h : written.Fits) {bytes : Bytes}
    (hfront : bytes <+: written.serialize) (hne : bytes ≠ written.serialize) :
    Frame.parse bytes = .ok none := by
  obtain ⟨type, flags, streamId, body, heq, hbody, -, -⟩ := serialize_eq h
  obtain ⟨more, hmore⟩ := hfront
  rw [heq] at hmore hne
  apply parse_of_prefix hbody hmore.symm
  intro hsame
  subst hsame
  exact hne (by simpa using hmore)

theorem framed_serialize {frames : List Written} (h : ∀ frame ∈ frames, frame.Fits) (rest : Bytes) :
    Framed (frames.flatMap Written.serialize ++ rest) (frames.map Written.frame) rest := by
  induction frames with
  | nil => exact .none rest
  | cons frame frames ih =>
    have hparse := parse_serialize (h frame (List.mem_cons_self ..))
    rw [List.flatMap_cons, List.append_assoc, List.map_cons]
    apply Framed.next (parse_append _ hparse)
    rw [List.drop_left]
    exact ih fun other hother => h other (List.mem_cons_of_mem _ hother)

/-- Frames one behind the other come back as they were written, and a frame that is not
whole waits. -/
theorem frames_reassembled {frames : List Written} {further : Written} {bytes : Bytes}
    (hframes : ∀ frame ∈ frames, frame.Fits) (hfurther : further.Fits)
    (hfront : bytes <+: further.serialize) (hne : bytes ≠ further.serialize) :
    Framed (frames.flatMap Written.serialize ++ bytes) (frames.map Written.frame) bytes ∧
      Frame.parse bytes = .ok none :=
  ⟨framed_serialize hframes bytes, parse_strict_prefix hfurther hfront hne⟩

theorem frames_reassembled_headers :
    Framed ((Written.settings ⟨[.initialWindowSize 65535], 0, 0⟩).serialize ++ [0x00, 0x00])
        [.settings ⟨[.initialWindowSize 65535], 0, 0⟩] [0x00, 0x00] ∧
      Frame.parse [0x00, 0x00] = .ok none := by
  have hsettings : ∀ frame ∈ [Written.settings ⟨[.initialWindowSize 65535], 0, 0⟩], frame.Fits := by
    intro frame hframe
    rw [List.mem_singleton.mp hframe]
    simp [Written.Fits, Setting.Fits]
  have hheaders : (Written.headers 1).Fits := by
    show 1 < 2 ^ 32
    omega
  exact frames_reassembled hsettings hheaders (by decide) (by decide)

end Codec

end XitForge.Http2
