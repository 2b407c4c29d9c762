import Mathlib.Algebra.Ring.Int.Defs
import Mathlib.Data.List.Basic
import XitForge.Xpc.Format

/-!
What `encode_object` writes, `decode_object` reads back, up to the last byte. The
induction follows the object; each container hands its entries one after the
other to the same statement about their values.
-/
namespace XitForge.Xpc

open RustEval

/-- Objects with a wire form: keys and strings without a NUL, dates that fit 64
bits of nanoseconds, and encoded lengths and counts that fit 32 bits. -/
inductive Representable : XPCObject → Prop where
  | null : Representable .null
  | bool (value : Bool) : Representable (.bool value)
  | dictionary (entries : List (String × XPCObject)) (hcount : entries.length < 2 ^ 32)
      (hkeys : (entries.map Prod.fst).Nodup)
      (hnul : ∀ entry ∈ entries, (0 : UInt8) ∉ asBytes entry.1)
      (hlength : ∀ entry ∈ entries, (asBytes entry.1).length < 2 ^ 32)
      (hvalues : ∀ entry ∈ entries, Representable entry.2) : Representable (.dictionary entries)
  | array (items : List XPCObject) (hcount : items.length < 2 ^ 32)
      (hitems : ∀ item ∈ items, Representable item) : Representable (.array items)
  | double (bits : UInt64) : Representable (.double bits)
  | int64 (value : Int64) : Representable (.int64 value)
  | uint64 (value : UInt64) : Representable (.uint64 value)
  | date (nanos : ℤ) (hepoch : 0 ≤ nanos) (hbound : nanos < 2 ^ 64) : Representable (.date nanos)
  | string (value : String) (hnul : (0 : UInt8) ∉ asBytes value)
      (hlength : (asBytes value).length + 1 < 2 ^ 32) : Representable (.string value)
  | data (value : List UInt8) (hlength : value.length < 2 ^ 32) : Representable (.data value)
  | uuid (value : Uuid) : Representable (.uuid value)
  | fileTransfer (msgId : UInt64) (data : XPCObject) (hdata : Representable data) :
      Representable (.fileTransfer msgId data)

section Reading

theorem readExact_append {count : ℕ} (bytes rest : List UInt8) (h : bytes.length = count) :
    readExact count (bytes ++ rest) = .ok (bytes, rest) := by
  unfold readExact
  rw [if_pos (by simp [h]), List.take_left' h, List.drop_left' h]

theorem readExact_le (width value : ℕ) (rest : List UInt8) :
    readExact width (toLEBytes width value ++ rest) = .ok (toLEBytes width value, rest) :=
  readExact_append _ _ (toLEBytes_length width value)

theorem readUntil_append (bytes rest : List UInt8) (h : (0 : UInt8) ∉ bytes) :
    readUntil (bytes ++ 0 :: rest) = (bytes ++ [0], rest) := by
  induction bytes with
  | nil => simp [readUntil]
  | cons byte bytes ih =>
    rw [List.mem_cons, not_or] at h
    rw [List.cons_append, readUntil, if_neg (Ne.symm h.1), ih h.2]
    rfl

theorem cString_asBytes (text : String) (h : (0 : UInt8) ∉ asBytes text) :
    cString (asBytes text ++ [0]) = some text := by
  unfold cString
  rw [List.dropLast_concat, if_pos ⟨by simp, h⟩, fromUTF8_asBytes]

theorem consume_replicate (count : ℕ) (rest : List UInt8) :
    consume count (List.replicate count 0 ++ rest) = rest :=
  List.drop_left' (List.length_replicate)

theorem insertKey_fresh (entries : List (String × XPCObject)) (key : String) (value : XPCObject)
    (h : key ∉ entries.map Prod.fst) : insertKey entries key value = entries ++ [(key, value)] := by
  unfold insertKey
  rw [if_neg]
  rw [List.any_eq_true]
  intro hgiven
  obtain ⟨entry, hentry, hkey⟩ := hgiven
  exact h (List.mem_map.mpr ⟨entry, hentry, by simpa using hkey⟩)

theorem encodeCString_eq (checks : Bool) (text : String) (h : (asBytes text).length + 1 < 2 ^ 64) :
    encodeCString checks text = .ok (asBytes text ++ [0] ++
      List.replicate (calculatePadding ((asBytes text).length + 1)) 0) := by
  unfold encodeCString
  rw [add64_of_lt h]
  rfl

end Reading

/-- The bytes of an object, and that they are read back whatever follows them. -/
def RoundTrips (checks : Bool) (object : XPCObject) (bytes : List UInt8) : Prop :=
  4 ≤ bytes.length ∧ encodeObject checks object = .ok bytes ∧
    ∀ fuel suffix, bytes.length ≤ fuel →
      decodeObject checks fuel (bytes ++ suffix) = .ok (object, suffix)

section Containers

variable {checks : Bool}

theorem decodeEntries_append (entries : List (String × XPCObject))
    (hnul : ∀ entry ∈ entries, (0 : UInt8) ∉ asBytes entry.1)
    (hlength : ∀ entry ∈ entries, (asBytes entry.1).length < 2 ^ 32)
    (hvalues : ∀ entry ∈ entries, ∃ bytes, RoundTrips checks entry.2 bytes) :
    ∃ bytes, encodeEntries checks entries = .ok bytes ∧
      ∀ fuel seen suffix, ((seen ++ entries).map Prod.fst).Nodup → bytes.length ≤ fuel →
        decodeEntries checks (decodeObject checks fuel) entries.length seen (bytes ++ suffix) =
          .ok (seen ++ entries, suffix) := by
  induction entries with
  | nil => exact ⟨[], rfl, fun fuel seen suffix _ _ => by simp [decodeEntries]⟩
  | cons entry rest ih =>
    obtain ⟨key, value⟩ := entry
    obtain ⟨others, hothers, hread⟩ := ih (fun entry h => hnul entry (List.mem_cons_of_mem _ h))
      (fun entry h => hlength entry (List.mem_cons_of_mem _ h))
      fun entry h => hvalues entry (List.mem_cons_of_mem _ h)
    obtain ⟨body, -, hbody, hvalue⟩ := hvalues (key, value) (List.mem_cons_self ..)
    have hnul : (0 : UInt8) ∉ asBytes key := hnul (key, value) (List.mem_cons_self ..)
    have hkey : (asBytes key).length < 2 ^ 32 := hlength (key, value) (List.mem_cons_self ..)
    have hlen : (asBytes key).length + 1 < 2 ^ 64 := by omega
    let padding := calculatePadding ((asBytes key).length + 1)
    refine ⟨asBytes key ++ [0] ++ List.replicate padding 0 ++ body ++ others, ?_, ?_⟩
    · rw [encodeEntries, encodeEntry, encodeCString_eq checks key hlen, hbody, hothers]
      simp [padding]
    · intro fuel seen suffix hnodup hfuel
      simp only [List.length_append] at hfuel
      have hinput : asBytes key ++ [0] ++ List.replicate padding 0 ++ body ++ others ++ suffix =
          asBytes key ++ 0 :: (List.replicate padding 0 ++ (body ++ (others ++ suffix))) := by
        simp
      have hfresh : key ∉ seen.map Prod.fst := by
        rw [List.map_append, List.nodup_append] at hnodup
        intro hmem
        exact hnodup.2.2 key hmem key (by simp) rfl
      rw [hinput, List.length_cons, decodeEntries, readUntil_append _ _ hnul]
      simp only [cString_asBytes key hnul, add64_of_lt hlen, Eval.ok_bind]
      rw [consume_replicate, hvalue fuel (others ++ suffix) (by omega)]
      simp only [Eval.ok_bind]
      rw [insertKey_fresh seen key value hfresh, hread fuel _ suffix (by simpa using hnodup) (by omega)]
      simp

theorem decodeItems_append (items : List XPCObject)
    (hitems : ∀ item ∈ items, ∃ bytes, RoundTrips checks item bytes) :
    ∃ bytes, encodeItems checks items = .ok bytes ∧
      ∀ fuel seen suffix, bytes.length ≤ fuel →
        decodeItems (decodeObject checks fuel) items.length seen (bytes ++ suffix) =
          .ok (seen ++ items, suffix) := by
  induction items with
  | nil => exact ⟨[], rfl, fun fuel seen suffix _ => by simp [decodeItems]⟩
  | cons item rest ih =>
    obtain ⟨others, hothers, hread⟩ := ih fun item h => hitems item (List.mem_cons_of_mem _ h)
    obtain ⟨body, -, hbody, hitem⟩ := hitems item (List.mem_cons_self ..)
    refine ⟨body ++ others, ?_, ?_⟩
    · rw [encodeItems, hbody, hothers]
      rfl
    · intro fuel seen suffix hfuel
      rw [List.length_append] at hfuel
      rw [List.length_cons, decodeItems, List.append_assoc, hitem fuel _ (by omega)]
      simp only [Eval.ok_bind]
      rw [hread fuel _ suffix (by omega)]
      simp

end Containers

section Objects

variable {checks : Bool}

theorem XPCType.bytes_length (type : XPCType) : type.bytes.length = 4 := toLEBytes_length 4 _

theorem readExact_type (type : XPCType) (rest : List UInt8) :
    readExact 4 (type.bytes ++ rest) = .ok (type.bytes, rest) :=
  readExact_le 4 type.code rest

theorem tryFrom_bytes (type : XPCType) : XPCType.tryFrom (fromLEBytes type.bytes) = .ok type := by
  rw [XPCType.bytes, fromLEBytes_toLEBytes 4 type.code type.code_lt, XPCType.tryFrom_code]

/-- An object may be read with any fuel that its length allows; one step of it
reads the type word. -/
theorem roundTrips_of_step {object : XPCObject} {type : XPCType} {payload : List UInt8}
    (hencode : encodeObject checks object = .ok (type.bytes ++ payload))
    (hdecode : ∀ fuel suffix, payload.length ≤ fuel →
      decodeObject checks (fuel + 1) (type.bytes ++ (payload ++ suffix)) = .ok (object, suffix)) :
    RoundTrips checks object (type.bytes ++ payload) := by
  have htype := XPCType.bytes_length type
  refine ⟨by rw [List.length_append]; omega, hencode, fun fuel suffix hfuel => ?_⟩
  rw [List.length_append] at hfuel
  obtain ⟨fuel, rfl⟩ : ∃ less, fuel = less + 1 := ⟨fuel - 1, by omega⟩
  rw [List.append_assoc]
  exact hdecode fuel suffix (by omega)

theorem roundTrips_null : RoundTrips checks .null (XPCType.null.bytes ++ []) := by
  refine roundTrips_of_step (by simp [encodeObject]) fun fuel suffix _ => ?_
  simp [decodeObject, readExact_type, tryFrom_bytes]

theorem boolWord_length (value : Bool) :
    ([if value then 1 else 0, 0, 0, 0] : List UInt8).length = 4 := rfl

theorem roundTrips_bool (value : Bool) :
    RoundTrips checks (.bool value)
      (XPCType.bool.bytes ++ [if value then 1 else 0, 0, 0, 0]) := by
  refine roundTrips_of_step (by simp [encodeObject]) fun fuel suffix _ => ?_
  rw [decodeObject, readExact_type]
  simp only [Eval.ok_bind, tryFrom_bytes]
  rw [readExact_append [if value then 1 else 0, 0, 0, 0] suffix (boolWord_length value)]
  cases value <;> rfl

theorem roundTrips_double (bits : UInt64) :
    RoundTrips checks (.double bits) (XPCType.double.bytes ++ toLEBytes 8 bits.toNat) := by
  refine roundTrips_of_step (by simp [encodeObject]) fun fuel suffix _ => ?_
  rw [decodeObject, readExact_type]
  simp only [Eval.ok_bind, tryFrom_bytes]
  rw [readExact_le]
  simp only [Eval.ok_bind]
  rw [fromLEBytes_toLEBytes 8 _ bits.toNat_lt]
  simp

theorem roundTrips_int64 (value : Int64) :
    RoundTrips checks (.int64 value) (XPCType.int64.bytes ++ toLEBytes 8 value.toUInt64.toNat) := by
  refine roundTrips_of_step (by simp [encodeObject]) fun fuel suffix _ => ?_
  rw [decodeObject, readExact_type]
  simp only [Eval.ok_bind, tryFrom_bytes]
  rw [readExact_le]
  simp only [Eval.ok_bind]
  rw [fromLEBytes_toLEBytes 8 _ value.toUInt64.toNat_lt]
  simp

theorem roundTrips_uint64 (value : UInt64) :
    RoundTrips checks (.uint64 value) (XPCType.uint64.bytes ++ toLEBytes 8 value.toNat) := by
  refine roundTrips_of_step (by simp [encodeObject]) fun fuel suffix _ => ?_
  rw [decodeObject, readExact_type]
  simp only [Eval.ok_bind, tryFrom_bytes]
  rw [readExact_le]
  simp only [Eval.ok_bind]
  rw [fromLEBytes_toLEBytes 8 _ value.toNat_lt]
  simp

theorem roundTrips_date (nanos : ℤ) (hepoch : 0 ≤ nanos) (hbound : nanos < 2 ^ 64) :
    RoundTrips checks (.date nanos) (XPCType.date.bytes ++ toLEBytes 8 nanos.toNat) := by
  have hencode : encodeObject checks (.date nanos) =
      .ok (XPCType.date.bytes ++ toLEBytes 8 nanos.toNat) := by
    rw [encodeObject, if_neg (by omega)]
    rfl
  refine roundTrips_of_step hencode fun fuel suffix _ => ?_
  rw [decodeObject, readExact_type]
  simp only [Eval.ok_bind, tryFrom_bytes]
  rw [readExact_le]
  simp only [Eval.ok_bind]
  rw [fromLEBytes_toLEBytes 8 _ (by omega), Int.toNat_of_nonneg hepoch]
  rfl

theorem roundTrips_string (value : String) (hnul : (0 : UInt8) ∉ asBytes value)
    (hlength : (asBytes value).length + 1 < 2 ^ 32) :
    RoundTrips checks (.string value) (XPCType.string.bytes ++
      (toLEBytes 4 ((asBytes value).length + 1) ++ (asBytes value ++ [0] ++
        List.replicate (calculatePadding ((asBytes value).length + 1)) 0))) := by
  have hlen : (asBytes value).length + 1 < 2 ^ 64 := by omega
  have hencode : encodeObject checks (.string value) = .ok (XPCType.string.bytes ++
      (toLEBytes 4 ((asBytes value).length + 1) ++ (asBytes value ++ [0] ++
        List.replicate (calculatePadding ((asBytes value).length + 1)) 0))) := by
    rw [encodeObject, add64_of_lt hlen, encodeCString_eq checks value hlen]
    simp
  refine roundTrips_of_step hencode fun fuel suffix _ => ?_
  rw [decodeObject, readExact_type]
  simp only [Eval.ok_bind, tryFrom_bytes]
  rw [List.append_assoc (toLEBytes 4 _), readExact_le]
  simp only [Eval.ok_bind]
  rw [fromLEBytes_toLEBytes 4 _ (by omega), List.append_assoc (asBytes value ++ [0]),
    readExact_append _ _ (by simp)]
  simp only [Eval.ok_bind, cString_asBytes value hnul, consume_replicate]
  rfl

theorem roundTrips_data (value : List UInt8) (hlength : value.length < 2 ^ 32) :
    RoundTrips checks (.data value) (XPCType.data.bytes ++ (toLEBytes 4 value.length ++
      (value ++ List.replicate (calculatePadding value.length) 0))) := by
  refine roundTrips_of_step (by simp [encodeObject]) fun fuel suffix _ => ?_
  rw [decodeObject, readExact_type]
  simp only [Eval.ok_bind, tryFrom_bytes]
  rw [List.append_assoc (toLEBytes 4 _), readExact_le]
  simp only [Eval.ok_bind]
  rw [fromLEBytes_toLEBytes 4 _ (by omega), List.append_assoc value, readExact_append _ _ rfl]
  simp only [Eval.ok_bind, consume_replicate]
  rfl

theorem roundTrips_uuid (value : Uuid) :
    RoundTrips checks (.uuid value) (XPCType.uuid.bytes ++ value.asBytes) := by
  refine roundTrips_of_step (by simp [encodeObject]) fun fuel suffix _ => ?_
  rw [decodeObject, readExact_type]
  simp only [Eval.ok_bind, tryFrom_bytes]
  have hread := readExact_append value.asBytes suffix value.length_eq
  split
  · rename_i bytes cursor h
    rw [hread] at h
    cases h
    rfl
  · rename_i error h
    rw [hread] at h
    cases h
  · rename_i h
    rw [hread] at h
    cases h

theorem roundTrips_fileTransfer (msgId : UInt64) {data : XPCObject} {bytes : List UInt8}
    (h : RoundTrips checks data bytes) :
    RoundTrips checks (.fileTransfer msgId data)
      (XPCType.fileTransfer.bytes ++ (toLEBytes 8 msgId.toNat ++ bytes)) := by
  obtain ⟨-, hbytes, hread⟩ := h
  have hencode : encodeObject checks (.fileTransfer msgId data) =
      .ok (XPCType.fileTransfer.bytes ++ (toLEBytes 8 msgId.toNat ++ bytes)) := by
    rw [encodeObject, hbytes]
    simp
  refine roundTrips_of_step hencode fun fuel suffix hfuel => ?_
  rw [List.length_append] at hfuel
  rw [decodeObject, readExact_type]
  simp only [Eval.ok_bind, tryFrom_bytes]
  rw [List.append_assoc (toLEBytes 8 _), readExact_le]
  simp only [Eval.ok_bind]
  rw [fromLEBytes_toLEBytes 8 _ msgId.toNat_lt, hread fuel suffix (by omega)]
  simp

theorem roundTrips_dictionary (entries : List (String × XPCObject))
    (hcount : entries.length < 2 ^ 32) (hkeys : (entries.map Prod.fst).Nodup)
    (hnul : ∀ entry ∈ entries, (0 : UInt8) ∉ asBytes entry.1)
    (hlength : ∀ entry ∈ entries, (asBytes entry.1).length < 2 ^ 32)
    (hvalues : ∀ entry ∈ entries, ∃ bytes, RoundTrips checks entry.2 bytes) :
    ∃ bytes, RoundTrips checks (.dictionary entries) bytes := by
  obtain ⟨content, hcontent, hread⟩ := decodeEntries_append entries hnul hlength hvalues
  have hencode : encodeObject checks (.dictionary entries) = .ok (XPCType.dictionary.bytes ++
      (toLEBytes 4 (4 + content.length) ++ (toLEBytes 4 entries.length ++ content))) := by
    rw [encodeObject, hcontent]
    simp
  refine ⟨_, roundTrips_of_step hencode fun fuel suffix hfuel => ?_⟩
  simp only [List.length_append] at hfuel
  rw [decodeObject, readExact_type]
  simp only [Eval.ok_bind, tryFrom_bytes]
  rw [List.append_assoc (toLEBytes 4 (4 + _)), readExact_le]
  simp only [Eval.ok_bind]
  rw [List.append_assoc (toLEBytes 4 entries.length), readExact_le]
  simp only [Eval.ok_bind]
  rw [fromLEBytes_toLEBytes 4 _ (by omega), hread fuel [] suffix hkeys (by omega)]
  rfl

theorem roundTrips_array (items : List XPCObject) (hcount : items.length < 2 ^ 32)
    (hitems : ∀ item ∈ items, ∃ bytes, RoundTrips checks item bytes) :
    ∃ bytes, RoundTrips checks (.array items) bytes := by
  obtain ⟨content, hcontent, hread⟩ := decodeItems_append items hitems
  have hencode : encodeObject checks (.array items) = .ok (XPCType.array.bytes ++
      (toLEBytes 4 (4 + content.length) ++ (toLEBytes 4 items.length ++ content))) := by
    rw [encodeObject, hcontent]
    simp
  refine ⟨_, roundTrips_of_step hencode fun fuel suffix hfuel => ?_⟩
  simp only [List.length_append] at hfuel
  rw [decodeObject, readExact_type]
  simp only [Eval.ok_bind, tryFrom_bytes]
  rw [List.append_assoc (toLEBytes 4 (4 + _)), readExact_le]
  simp only [Eval.ok_bind]
  rw [List.append_assoc (toLEBytes 4 items.length), readExact_le]
  simp only [Eval.ok_bind]
  rw [fromLEBytes_toLEBytes 4 _ (by omega), hread fuel [] suffix (by omega)]
  rfl

end Objects

/-- Every representable object has a wire form that is read back. -/
theorem Representable.roundTrips (checks : Bool) {object : XPCObject} (h : Representable object) :
    ∃ bytes, RoundTrips checks object bytes := by
  induction h with
  | null => exact ⟨_, roundTrips_null⟩
  | bool value => exact ⟨_, roundTrips_bool value⟩
  | dictionary entries hcount hkeys hnul hlength _ ih =>
    exact roundTrips_dictionary entries hcount hkeys hnul hlength ih
  | array items hcount _ ih => exact roundTrips_array items hcount ih
  | double bits => exact ⟨_, roundTrips_double bits⟩
  | int64 value => exact ⟨_, roundTrips_int64 value⟩
  | uint64 value => exact ⟨_, roundTrips_uint64 value⟩
  | date nanos hepoch hbound => exact ⟨_, roundTrips_date nanos hepoch hbound⟩
  | string value hnul hlength => exact ⟨_, roundTrips_string value hnul hlength⟩
  | data value hlength => exact ⟨_, roundTrips_data value hlength⟩
  | uuid value => exact ⟨_, roundTrips_uuid value⟩
  | fileTransfer msgId data _ ih =>
    obtain ⟨bytes, hbytes⟩ := ih
    exact ⟨_, roundTrips_fileTransfer msgId hbytes⟩

/-- An encoded object in a buffer, with its magic and version words. -/
theorem decode_of_roundTrips {checks : Bool} {object : XPCObject} {bytes : List UInt8}
    (h : RoundTrips checks object bytes) :
    object.encode checks = .ok (toLEBytes 4 0x42133742 ++ toLEBytes 4 0x00000005 ++ bytes) ∧
      XPCObject.decode checks (toLEBytes 4 0x42133742 ++ toLEBytes 4 0x00000005 ++ bytes) =
        .ok object := by
  obtain ⟨-, hbytes, hread⟩ := h
  refine ⟨by rw [XPCObject.encode, hbytes]; rfl, ?_⟩
  have hlength : (toLEBytes 4 0x42133742 ++ toLEBytes 4 0x00000005 ++ bytes).length =
      8 + bytes.length := by simp only [List.length_append, toLEBytes_length]
  have hmagic : leAt (toLEBytes 4 0x42133742 ++ toLEBytes 4 0x00000005 ++ bytes) 0 4 =
      0x42133742 := by
    rw [List.append_assoc]
    exact leAt_append [] _ 4 0x42133742 (by decide)
  have hversion : leAt (toLEBytes 4 0x42133742 ++ toLEBytes 4 0x00000005 ++ bytes) 4 4 =
      0x00000005 := by
    rw [List.append_assoc]
    exact leAt_append (toLEBytes 4 0x42133742) bytes 4 0x00000005 (by decide)
  have hbody := hread (8 + bytes.length) [] (by omega)
  rw [List.append_nil] at hbody
  unfold XPCObject.decode
  rw [hlength, if_neg (by omega), if_neg (not_not.mpr hmagic), if_neg (not_not.mpr hversion),
    List.drop_left' (by simp), hbody]
  rfl

/-- An object that has a wire form is read back from it, and the reader stops at
its last byte. -/
theorem xpcObject_roundTrip (checks : Bool) (object : XPCObject) (h : Representable object) :
    (∃ buf, object.encode checks = .ok buf ∧ XPCObject.decode checks buf = .ok object) ∧
      ∃ bytes, encodeObject checks object = .ok bytes ∧ ∀ suffix,
        decodeObject checks (bytes ++ suffix).length (bytes ++ suffix) = .ok (object, suffix) := by
  obtain ⟨bytes, hbytes⟩ := h.roundTrips checks
  refine ⟨⟨_, decode_of_roundTrips hbytes⟩, bytes, hbytes.2.1, fun suffix => ?_⟩
  exact hbytes.2.2 _ suffix (by simp)

theorem xpcObject_roundTrip_nested :
    (∃ buf, XPCObject.encode true (.dictionary [("a", .array [.date 5])]) = .ok buf ∧
        XPCObject.decode true buf = .ok (.dictionary [("a", .array [.date 5])])) ∧
      ∃ bytes, encodeObject true (.dictionary [("a", .array [.date 5])]) = .ok bytes ∧
        ∀ suffix, decodeObject true (bytes ++ suffix).length (bytes ++ suffix) =
          .ok (.dictionary [("a", .array [.date 5])], suffix) :=
  xpcObject_roundTrip true _ <| .dictionary _ (by decide) (by simp) (by decide) (by decide) <| by
    intro entry hentry
    rw [List.mem_singleton.mp hentry]
    refine .array _ (by decide) fun item hitem => ?_
    rw [List.mem_singleton.mp hitem]
    exact .date 5 (by decide) (by decide)

end XitForge.Xpc
