import XitForge.RustEval
import Mathlib.Data.Int.Notation
import Mathlib.Data.Nat.Log

/-!
The XPC wire format: objects with a type word in front, containers that count
their entries, and C strings and data padded to four bytes; around an object a
magic word and a version, around a message a header with the length of the body.
`checks` tells whether the build panics on arithmetic overflow or wraps around.
-/
namespace XitForge.Xpc

open RustEval

/-- `to_le_bytes`, after an `as` cast to that width. -/
def toLEBytes : ℕ → ℕ → List UInt8
  | 0, _ => []
  | width + 1, value => UInt8.ofNat value :: toLEBytes width (value / 256)

/-- `from_le_bytes`. -/
def fromLEBytes : List UInt8 → ℕ
  | [] => 0
  | byte :: rest => byte.toNat + 256 * fromLEBytes rest

@[simp] theorem toLEBytes_length (width value : ℕ) : (toLEBytes width value).length = width := by
  induction width generalizing value with
  | zero => rfl
  | succ width ih => simp [toLEBytes, ih]

theorem fromLEBytes_toLEBytes (width value : ℕ) (h : value < 256 ^ width) :
    fromLEBytes (toLEBytes width value) = value := by
  induction width generalizing value with
  | zero =>
    rw [Nat.pow_zero, Nat.lt_one_iff] at h
    rw [h]
    rfl
  | succ width ih =>
    have hquot : value / 256 < 256 ^ width := by
      rw [Nat.div_lt_iff_lt_mul (by omega)]
      rwa [Nat.pow_succ] at h
    rw [toLEBytes, fromLEBytes, ih _ hquot, UInt8.toNat_ofNat']
    omega

inductive XpcError where
  | unknownXpcType (value : ℕ)
  | malformedXpc
  | invalidXpcMagic
  | unexpectedXpcVersion
  | invalidCString
  deriving DecidableEq, Repr

inductive IdeviceError where
  | notEnoughBytes (got needed : ℕ)
  | sizeMismatch
  | xpc (error : XpcError)
  /-- The error of `read_exact` at the end of its input. -/
  | socket
  deriving DecidableEq, Repr

/-- Addition of two `u64` or `usize` values. -/
def add64 {ε : Type} (checks : Bool) (a b : ℕ) : Eval ε ℕ :=
  if a + b < 2 ^ 64 then .ok (a + b)
  else if checks then .panic
  else .ok ((a + b) % 2 ^ 64)

theorem add64_of_lt {ε : Type} {checks : Bool} {a b : ℕ} (h : a + b < 2 ^ 64) :
    (add64 checks a b : Eval ε ℕ) = .ok (a + b) := if_pos h

/-- `&data[start..stop]`. -/
def slice {ε : Type} (data : List UInt8) (start stop : ℕ) : Eval ε (List UInt8) :=
  if start ≤ stop ∧ stop ≤ data.length then .ok ((data.take stop).drop start) else .panic

/-- The little-endian number in `data[start..start + width]`, below the length. -/
def leAt (data : List UInt8) (start width : ℕ) : ℕ := fromLEBytes ((data.drop start).take width)

theorem fromLEBytes_lt (bytes : List UInt8) : fromLEBytes bytes < 256 ^ bytes.length := by
  induction bytes with
  | nil => exact Nat.one_pos
  | cons byte rest ih =>
    have hbyte := byte.toNat_lt
    rw [fromLEBytes, List.length_cons, Nat.pow_succ]
    omega

theorem leAt_lt (data : List UInt8) (start width : ℕ) : leAt data start width < 256 ^ width := by
  have hlt := fromLEBytes_lt ((data.drop start).take width)
  have hpow : 256 ^ ((data.drop start).take width).length ≤ 256 ^ width :=
    Nat.pow_le_pow_right (by omega) (List.length_take_le _ _)
  exact Nat.lt_of_lt_of_le hlt hpow

theorem leAt_append (before rest : List UInt8) (width value : ℕ) (h : value < 256 ^ width) :
    leAt (before ++ (toLEBytes width value ++ rest)) before.length width = value := by
  unfold leAt
  rw [List.drop_left, List.take_left' (toLEBytes_length width value),
    fromLEBytes_toLEBytes width value h]

theorem leAt_behind (before rest : List UInt8) (width value start : ℕ) (hstart : before.length = start)
    (h : value < 256 ^ width) :
    leAt (before ++ (toLEBytes width value ++ rest)) start width = value := by
  rw [← hstart]
  exact leAt_append before rest width value h

theorem leAt_drop (data : List UInt8) (position start width : ℕ) :
    leAt (data.drop position) start width = leAt data (position + start) width := by
  simp [leAt, List.drop_drop]

theorem leAt_take (data : List UInt8) {count start width : ℕ} (h : start + width ≤ count) :
    leAt (data.take count) start width = leAt data start width := by
  unfold leAt
  rw [List.drop_take, List.take_take, Nat.min_eq_left (by omega)]

/-- `as f64`: 53 significant bits, ties to even. -/
def asF64 (n : ℕ) : ℕ :=
  let unit := 2 ^ (Nat.log2 n + 1 - 53)
  let quotient := n / unit
  let rest := n % unit
  if unit < 2 * rest ∨ (2 * rest = unit ∧ quotient % 2 = 1) then (quotient + 1) * unit
  else quotient * unit

/-- `calculate_padding`. Division by four, `ceil` and the product with four are
exact for the values `as f64` takes. -/
def calculatePadding (len : ℕ) : ℕ := (asF64 len + 3) / 4 * 4 - asF64 len

inductive XPCType where
  | null
  | bool
  | dictionary
  | array
  | int64
  | uint64
  | double
  | date
  | string
  | data
  | uuid
  | fileTransfer
  deriving DecidableEq, Repr

namespace XPCType

/-- `as u32`. -/
def code : XPCType → ℕ
  | null => 0x00001000
  | bool => 0x00002000
  | dictionary => 0x0000f000
  | array => 0x0000e000
  | int64 => 0x00003000
  | uint64 => 0x00004000
  | double => 0x00005000
  | date => 0x00007000
  | string => 0x00009000
  | data => 0x00008000
  | uuid => 0x0000a000
  | fileTransfer => 0x0001a000

/-- `try_from`. -/
def tryFrom (value : ℕ) : Eval IdeviceError XPCType :=
  if value = 0x00001000 then .ok null
  else if value = 0x00002000 then .ok bool
  else if value = 0x0000f000 then .ok dictionary
  else if value = 0x0000e000 then .ok array
  else if value = 0x00003000 then .ok int64
  else if value = 0x00005000 then .ok double
  else if value = 0x00004000 then .ok uint64
  else if value = 0x00007000 then .ok date
  else if value = 0x00009000 then .ok string
  else if value = 0x00008000 then .ok data
  else if value = 0x0000a000 then .ok uuid
  else if value = 0x0001a000 then .ok fileTransfer
  else .err (.xpc (.unknownXpcType value))

theorem tryFrom_code (type : XPCType) : tryFrom type.code = .ok type := by cases type <;> rfl

theorem code_lt (type : XPCType) : type.code < 256 ^ 4 := by cases type <;> decide

def bytes (type : XPCType) : List UInt8 := toLEBytes 4 type.code

end XPCType

structure Uuid where
  asBytes : List UInt8
  length_eq : asBytes.length = 16
  deriving DecidableEq

/-- `Dictionary` is an `IndexMap`, in the order of insertion. A `Double` is its
bits and a `Date` its nanoseconds since the Unix epoch. -/
inductive XPCObject where
  | null
  | bool (value : Bool)
  | dictionary (entries : List (String × XPCObject))
  | array (items : List XPCObject)
  | double (bits : UInt64)
  | int64 (value : Int64)
  | uint64 (value : UInt64)
  | date (nanos : ℤ)
  | string (value : String)
  | data (value : List UInt8)
  | uuid (value : Uuid)
  | fileTransfer (msgId : UInt64) (data : XPCObject)

/-- `as_bytes`. -/
def asBytes (text : String) : List UInt8 := text.toByteArray.data.toList

theorem fromUTF8_asBytes (text : String) :
    String.fromUTF8? ⟨(asBytes text).toArray⟩ = some text := by
  have hbytes : (⟨(asBytes text).toArray⟩ : ByteArray) = text.toByteArray := rfl
  rw [hbytes, String.fromUTF8?, dif_pos text.isValidUTF8]
  rfl

/-- The text of a key or a string, a NUL and the padding. -/
def encodeCString (checks : Bool) (text : String) : Eval IdeviceError (List UInt8) := do
  let len ← add64 checks (asBytes text).length 1
  return asBytes text ++ [0] ++ List.replicate (calculatePadding len) 0

mutual

/-- `encode_object`: the bytes it appends. The `unwrap` of a date before the
epoch panics. -/
def encodeObject (checks : Bool) : XPCObject → Eval IdeviceError (List UInt8)
  | .null => pure XPCType.null.bytes
  | .bool value => pure (XPCType.bool.bytes ++ [if value then 1 else 0] ++ List.replicate 3 0)
  | .dictionary entries => do
    let content ← encodeEntries checks entries
    let content := toLEBytes 4 entries.length ++ content
    return XPCType.dictionary.bytes ++ toLEBytes 4 content.length ++ content
  | .array items => do
    let content ← encodeItems checks items
    let content := toLEBytes 4 items.length ++ content
    return XPCType.array.bytes ++ toLEBytes 4 content.length ++ content
  | .double bits => pure (XPCType.double.bytes ++ toLEBytes 8 bits.toNat)
  | .int64 value => pure (XPCType.int64.bytes ++ toLEBytes 8 value.toUInt64.toNat)
  | .uint64 value => pure (XPCType.uint64.bytes ++ toLEBytes 8 value.toNat)
  | .date nanos =>
    if nanos < 0 then .panic else pure (XPCType.date.bytes ++ toLEBytes 8 nanos.toNat)
  | .string value => do
    let len ← add64 checks (asBytes value).length 1
    let text ← encodeCString checks value
    return XPCType.string.bytes ++ toLEBytes 4 len ++ text
  | .data value =>
    pure (XPCType.data.bytes ++ toLEBytes 4 value.length ++ value ++
      List.replicate (calculatePadding value.length) 0)
  | .uuid value => pure (XPCType.uuid.bytes ++ value.asBytes)
  | .fileTransfer msgId data => do
    let inner ← encodeObject checks data
    return XPCType.fileTransfer.bytes ++ toLEBytes 8 msgId.toNat ++ inner
termination_by structural object => object

/-- The loop over the entries of a dictionary. -/
def encodeEntries (checks : Bool) : List (String × XPCObject) → Eval IdeviceError (List UInt8)
  | [] => pure []
  | entry :: rest => do
    let first ← encodeEntry checks entry
    let others ← encodeEntries checks rest
    return first ++ others
termination_by structural entries => entries

def encodeEntry (checks : Bool) : String × XPCObject → Eval IdeviceError (List UInt8)
  | (key, value) => do
    let name ← encodeCString checks key
    let object ← encodeObject checks value
    return name ++ object
termination_by structural entry => entry

/-- The loop over the items of an array. -/
def encodeItems (checks : Bool) : List XPCObject → Eval IdeviceError (List UInt8)
  | [] => pure []
  | item :: rest => do
    let first ← encodeObject checks item
    let others ← encodeItems checks rest
    return first ++ others
termination_by structural items => items

end

attribute [simp] encodeObject encodeEntries encodeEntry encodeItems

/-- `XPCObject::encode`. -/
def XPCObject.encode (checks : Bool) (object : XPCObject) : Eval IdeviceError (List UInt8) := do
  let body ← encodeObject checks object
  return toLEBytes 4 0x42133742 ++ toLEBytes 4 0x00000005 ++ body

/-- `read_exact`, of a cursor over what is left to read of its slice. -/
def readExact (count : ℕ) (cursor : List UInt8) : Eval IdeviceError (List UInt8 × List UInt8) :=
  if count ≤ cursor.length then .ok (cursor.take count, cursor.drop count) else .err .socket

/-- `read_until` with the delimiter 0, which the result includes if it was found. -/
def readUntil : List UInt8 → List UInt8 × List UInt8
  | [] => ([], [])
  | byte :: rest =>
    if byte = 0 then ([0], rest) else (byte :: (readUntil rest).1, (readUntil rest).2)

/-- `BufRead::consume`, which may go past the end. -/
def consume (count : ℕ) (cursor : List UInt8) : List UInt8 := cursor.drop count

/-- `CString::from_vec_with_nul` and `to_str`. -/
def cString (bytes : List UInt8) : Option String :=
  if bytes.getLast? = some 0 ∧ 0 ∉ bytes.dropLast then
    String.fromUTF8? ⟨bytes.dropLast.toArray⟩
  else none

/-- `IndexMap::insert`. -/
def insertKey (entries : List (String × XPCObject)) (key : String) (value : XPCObject) :
    List (String × XPCObject) :=
  if entries.any (fun entry => entry.1 == key) then
    entries.map fun entry => if entry.1 == key then (key, value) else entry
  else entries ++ [(key, value)]

abbrev ObjectReader := List UInt8 → Eval IdeviceError (XPCObject × List UInt8)

/-- The loop of a dictionary, with the entries read so far. -/
def decodeEntries (checks : Bool) (read : ObjectReader) :
    ℕ → List (String × XPCObject) → List UInt8 →
      Eval IdeviceError (List (String × XPCObject) × List UInt8)
  | 0, entries, cursor => pure (entries, cursor)
  | count + 1, entries, cursor =>
    match cString (readUntil cursor).1 with
    | none => .err (.xpc .invalidCString)
    | some key => do
      let len ← add64 checks (asBytes key).length 1
      let (value, rest) ← read (consume (calculatePadding len) (readUntil cursor).2)
      decodeEntries checks read count (insertKey entries key value) rest

/-- The loop of an array. -/
def decodeItems (read : ObjectReader) :
    ℕ → List XPCObject → List UInt8 → Eval IdeviceError (List XPCObject × List UInt8)
  | 0, items, cursor => pure (items, cursor)
  | count + 1, items, cursor => do
    let (item, rest) ← read cursor
    decodeItems read count (items ++ [item]) rest

theorem readExact_length {count : ℕ} {cursor bytes rest : List UInt8}
    (h : readExact count cursor = .ok (bytes, rest)) : bytes.length = count := by
  unfold readExact at h
  split at h
  · cases h
    rw [List.length_take]
    omega
  · cases h

/-- `decode_object`. An object inside another one starts behind the type word of
that one, so the length of the input is enough fuel; without fuel it panics. -/
def decodeObject (checks : Bool) : ℕ → ObjectReader
  | 0, _ => .panic
  | fuel + 1, cursor => do
    let (word, cursor) ← readExact 4 cursor
    match ← XPCType.tryFrom (fromLEBytes word) with
    | .null => return (.null, cursor)
    | .dictionary =>
      let (_, cursor) ← readExact 4 cursor
      let (count, cursor) ← readExact 4 cursor
      let (entries, cursor) ←
        decodeEntries checks (decodeObject checks fuel) (fromLEBytes count) [] cursor
      return (.dictionary entries, cursor)
    | .array =>
      let (_, cursor) ← readExact 4 cursor
      let (count, cursor) ← readExact 4 cursor
      let (items, cursor) ← decodeItems (decodeObject checks fuel) (fromLEBytes count) [] cursor
      return (.array items, cursor)
    | .double =>
      let (bytes, cursor) ← readExact 8 cursor
      return (.double (UInt64.ofNat (fromLEBytes bytes)), cursor)
    | .int64 =>
      let (bytes, cursor) ← readExact 8 cursor
      return (.int64 (UInt64.ofNat (fromLEBytes bytes)).toInt64, cursor)
    | .uint64 =>
      let (bytes, cursor) ← readExact 8 cursor
      return (.uint64 (UInt64.ofNat (fromLEBytes bytes)), cursor)
    | .date =>
      let (bytes, cursor) ← readExact 8 cursor
      return (.date (fromLEBytes bytes), cursor)
    | .string =>
      let (len, cursor) ← readExact 4 cursor
      let (text, cursor) ← readExact (fromLEBytes len) cursor
      match cString text with
      | none => .err (.xpc .invalidCString)
      | some text => return (.string text, consume (calculatePadding (fromLEBytes len)) cursor)
    | .bool =>
      let (bytes, cursor) ← readExact 4 cursor
      return (.bool (bytes.head? != some 0), cursor)
    | .data =>
      let (len, cursor) ← readExact 4 cursor
      let (bytes, cursor) ← readExact (fromLEBytes len) cursor
      return (.data bytes, consume (calculatePadding (fromLEBytes len)) cursor)
    | .uuid =>
      match h : readExact 16 cursor with
      | .ok (bytes, cursor) => return (.uuid ⟨bytes, readExact_length h⟩, cursor)
      | .err error => .err error
      | .panic => .panic
    | .fileTransfer =>
      let (id, cursor) ← readExact 8 cursor
      let (inner, cursor) ← decodeObject checks fuel cursor
      return (.fileTransfer (UInt64.ofNat (fromLEBytes id)) inner, cursor)

/-- `XPCObject::decode`. -/
def XPCObject.decode (checks : Bool) (buf : List UInt8) : Eval IdeviceError XPCObject :=
  if buf.length < 8 then .err (.notEnoughBytes buf.length 8)
  else if leAt buf 0 4 ≠ 0x42133742 then .err (.xpc .invalidXpcMagic)
  else if leAt buf 4 4 ≠ 0x00000005 then .err (.xpc .unexpectedXpcVersion)
  else do
    let (object, _) ← decodeObject checks buf.length (buf.drop 8)
    return object

structure XPCMessage where
  flags : UInt32
  message : Option XPCObject
  messageId : Option UInt64

namespace XPCMessage

def magic : ℕ := 0x29b00b92

/-- `XPCMessage::decode`. -/
def decode (checks : Bool) (data : List UInt8) : Eval IdeviceError XPCMessage :=
  if data.length < 24 then .err (.notEnoughBytes data.length 24)
  else if leAt data 0 4 ≠ magic then .err (.xpc .malformedXpc)
  else do
    let bodyLen := leAt data 8 8
    let needed ← add64 checks bodyLen 24
    if data.length < needed then .err .sizeMismatch
    else
      let message ←
        if 0 < bodyLen then do
          let stop ← add64 checks 24 bodyLen
          let body ← slice data 24 stop
          let object ← XPCObject.decode checks body
          pure (some object)
        else pure none
      return ⟨UInt32.ofNat (leAt data 4 4), message, some (UInt64.ofNat (leAt data 16 8))⟩

/-- `XPCMessage::encode`. -/
def encode (checks : Bool) (message : XPCMessage) (messageId : UInt64) :
    Eval IdeviceError (List UInt8) := do
  let head := toLEBytes 4 magic ++ toLEBytes 4 message.flags.toNat
  match message.message with
  | some object =>
    let body ← object.encode checks
    return head ++ toLEBytes 8 body.length ++ toLEBytes 8 messageId.toNat ++ body
  | none => return head ++ toLEBytes 8 0 ++ toLEBytes 8 messageId.toNat

end XPCMessage

end XitForge.Xpc
