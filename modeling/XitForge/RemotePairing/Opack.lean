import Mathlib.Algebra.Ring.Int.Defs
import Mathlib.Algebra.Ring.Nat
import XitForge.Xpc.Channel

/-!
OPACK, which plists travel in while devices pair. A tag is in front of every value;
small numbers and lengths are in the tag itself, collections of up to 14 elements
count them there, and larger ones end in a terminator. A reader keeps the scalars it
has seen, for tags that point back at them.
-/
namespace XitForge.RemotePairing

open Xpc (PlistValue toLEBytes fromLEBytes asBytes)

abbrev Bytes := List UInt8

section Floats

/-- The nearest of the multiples of `2 ^ shift`, ties to even, as a multiple. -/
def roundShift (value shift : ℕ) : ℕ :=
  let quotient := value / 2 ^ shift
  let rest := value % 2 ^ shift
  if 2 ^ shift < 2 * rest ∨ (2 * rest = 2 ^ shift ∧ quotient % 2 = 1) then quotient + 1 else quotient

/-- `as f32` without the sign. A NaN becomes a quiet one. -/
def narrowMagnitude (magnitude : ℕ) : ℕ :=
  let exponent := magnitude / 2 ^ 52
  let fraction := magnitude % 2 ^ 52
  if exponent = 2047 then
    if fraction = 0 then 0x7f800000 else 0x7fc00000 ||| (0x7f800000 + fraction / 2 ^ 29)
  else
    let significand := if exponent = 0 then fraction else 2 ^ 52 + fraction
    let exponent := max exponent 1
    let rounded := roundShift significand (max 29 (926 - exponent))
    min 0x7f800000 ((exponent - 897) * 2 ^ 23 + rounded)

/-- `as f32`, on the bits of an `f64`. -/
def asF32 (bits : ℕ) : ℕ := bits / 2 ^ 63 * 2 ^ 31 + narrowMagnitude (bits % 2 ^ 63)

/-- `as f64` without the sign. -/
def widenMagnitude (magnitude : ℕ) : ℕ :=
  let exponent := magnitude / 2 ^ 23
  let fraction := magnitude % 2 ^ 23
  if exponent = 255 then
    if fraction = 0 then 0x7ff0000000000000
    else 0x7ff8000000000000 ||| (0x7ff0000000000000 + fraction * 2 ^ 29)
  else if exponent = 0 then
    if fraction = 0 then 0
    else (Nat.log2 fraction + 873) * 2 ^ 52 + fraction * 2 ^ (52 - Nat.log2 fraction)
  else (exponent + 896) * 2 ^ 52 + fraction * 2 ^ 29

/-- `as f64`, on the bits of an `f32`. -/
def asF64 (bits : ℕ) : ℕ := bits / 2 ^ 31 * 2 ^ 63 + widenMagnitude (bits % 2 ^ 31)

def isNan (bits : ℕ) : Bool := 0x7ff0000000000000 < bits % 2 ^ 63

/-- `==` of two `f64`. -/
def floatEq (a b : ℕ) : Bool :=
  !isNan a && !isNan b && (a == b || (a % 2 ^ 63 == 0 && b % 2 ^ 63 == 0))

end Floats

section Encoding

/-- `to_be_bytes`. -/
def toBEBytes (width value : ℕ) : Bytes := (toLEBytes width value).reverse

def fromBEBytes (bytes : Bytes) : ℕ := fromLEBytes bytes.reverse

/-- The tags of strings or of data. -/
structure SizedLenTags where
  inlineBase : ℕ
  u8Tag : ℕ
  u16Tag : ℕ
  u32Tag : ℕ
  u64Tag : ℕ
  deriving DecidableEq, Repr

def stringTags : SizedLenTags := ⟨0x40, 0x61, 0x62, 0x63, 0x64⟩

def dataTags : SizedLenTags := ⟨0x70, 0x91, 0x92, 0x93, 0x94⟩

/-- The tag and the length of a string or of data. -/
def sizedLen (tags : SizedLenTags) (len : ℕ) : Bytes :=
  if 0x20 < len then
    if len ≤ 0xFF then [UInt8.ofNat tags.u8Tag, UInt8.ofNat len]
    else if len ≤ 0xFFFF then UInt8.ofNat tags.u16Tag :: toLEBytes 2 len
    else if len ≤ 0xFFFFFFFF then UInt8.ofNat tags.u32Tag :: toLEBytes 4 len
    else UInt8.ofNat tags.u64Tag :: toLEBytes 8 len
  else [UInt8.ofNat (tags.inlineBase + len)]

/-- `len() as u32`. -/
def countOf (len : ℕ) : ℕ := len % 2 ^ 32

/-- The tag of a collection, for a count that is in it or not. -/
def blen (base open_ count : ℕ) : UInt8 := UInt8.ofNat (if count < 15 then base + count else open_)

def terminator (count : ℕ) : Bytes := if 14 < count then [0x03] else []

def encodeInteger (value : ℕ) : Bytes :=
  if value ≤ 0xFF then
    if 0x27 < value then [0x30, UInt8.ofNat value] else [UInt8.ofNat (value + 8)]
  else if value ≤ 0xFFFFFFFF then 0x32 :: toLEBytes 4 value
  else 0x33 :: toLEBytes 8 value

def encodeReal (bits : ℕ) : Bytes :=
  if floatEq (asF64 (asF32 bits)) bits then 0x35 :: toBEBytes 4 (asF32 bits)
  else 0x36 :: toBEBytes 8 bits

/-- `as_unsigned().unwrap_or(0)`. -/
def asUnsigned (value : ℤ) : ℕ := if 0 ≤ value ∧ value < 2 ^ 64 then value.toNat else 0

def encodeString (text : String) : Bytes := sizedLen stringTags (asBytes text).length ++ asBytes text

mutual

/-- `plist_to_opack_inner`: the bytes it appends. -/
def plistToOpack : PlistValue → Bytes
  | .dictionary entries =>
    blen 0xE0 0xEF (countOf entries.length) ::
      (encodeEntries entries ++ terminator (countOf entries.length))
  | .array items =>
    blen 0xD0 0xDF (countOf items.length) ::
      (encodeItems items ++ terminator (countOf items.length))
  | .boolean value => [if value then 1 else 2]
  | .integer value => encodeInteger (asUnsigned value)
  | .real bits => encodeReal bits.toNat
  | .string text => encodeString text
  | .data bytes => sizedLen dataTags bytes.length ++ bytes
  | .date _ => []
termination_by structural value => value

def encodeItems : List PlistValue → Bytes
  | [] => []
  | item :: rest => plistToOpack item ++ encodeItems rest
termination_by structural items => items

def encodeEntries : List (String × PlistValue) → Bytes
  | [] => []
  | entry :: rest => encodeEntry entry ++ encodeEntries rest
termination_by structural entries => entries

def encodeEntry : String × PlistValue → Bytes
  | (key, value) => encodeString key ++ plistToOpack value
termination_by structural entry => entry

end

end Encoding

section Decoding

inductive OpackError where
  | trailingBytes (count : ℕ)
  /-- `unexpected EOF while reading OPACK tag` -/
  | eofTag
  | eof (count : ℕ)
  | unexpectedTerminator
  | unsupportedTag (tag : ℕ)
  | backReference (index seen : ℕ)
  | invalidUtf8
  | keyNotString
  /-- Not of the source: the model's rounds are over. -/
  | rounds
  deriving DecidableEq, Repr

/-- The scalars that a tag can point back at. -/
abbrev Objects := List PlistValue

/-- A reader of what is left, with the scalars seen so far. -/
abbrev Reader (α : Type) := Bytes → Objects → Except OpackError (α × Bytes × Objects)

def readU8 : Bytes → Except OpackError (ℕ × Bytes)
  | [] => .error .eofTag
  | byte :: rest => .ok (byte.toNat, rest)

/-- `read_exact` and `read_vec`. -/
def readExact (count : ℕ) (bytes : Bytes) : Except OpackError (Bytes × Bytes) :=
  if count ≤ bytes.length then .ok (bytes.take count, bytes.drop count) else .error (.eof count)

def readLE (width : ℕ) (bytes : Bytes) : Except OpackError (ℕ × Bytes) := do
  let (word, bytes) ← readExact width bytes
  return (fromLEBytes word, bytes)

def readBE (width : ℕ) (bytes : Bytes) : Except OpackError (ℕ × Bytes) := do
  let (word, bytes) ← readExact width bytes
  return (fromBEBytes word, bytes)

/-- `==` of two of the values that are remembered. -/
def scalarEq : PlistValue → PlistValue → Bool
  | .integer a, .integer b => a == b
  | .real a, .real b => floatEq a.toNat b.toNat
  | .string a, .string b => a == b
  | .data a, .data b => a == b
  | _, _ => false

def remember (value : PlistValue) (bytes : Bytes) (objects : Objects) :
    Except OpackError (PlistValue × Bytes × Objects) :=
  .ok (value, bytes, if objects.any (scalarEq · value) then objects else objects ++ [value])

def lookup (index : ℕ) (bytes : Bytes) (objects : Objects) :
    Except OpackError (PlistValue × Bytes × Objects) :=
  match objects[index]? with
  | some value => .ok (value, bytes, objects)
  | none => .error (.backReference index objects.length)

/-- `read_sized_len`; `usize` has 64 bits. -/
def readSizedLen (tags : SizedLenTags) (tag : ℕ) (bytes : Bytes) : Except OpackError (ℕ × Bytes) :=
  if tags.inlineBase ≤ tag ∧ tag < tags.u8Tag then .ok (tag - tags.inlineBase, bytes)
  else if tag = tags.u8Tag then readU8 bytes
  else if tag = tags.u16Tag then readLE 2 bytes
  else if tag = tags.u32Tag then readLE 4 bytes
  else if tag = tags.u64Tag then readLE 8 bytes
  else .error (.unsupportedTag tag)

def readString (len : ℕ) (bytes : Bytes) : Except OpackError (String × Bytes) := do
  let (data, bytes) ← readExact len bytes
  match String.fromUTF8? ⟨data.toArray⟩ with
  | some text => return (text, bytes)
  | none => .error .invalidUtf8

/-- `IndexMap::insert`. -/
def insertKey (entries : List (String × PlistValue)) (key : String) (value : PlistValue) :
    List (String × PlistValue) :=
  if entries.any (fun entry => entry.1 == key) then
    entries.map fun entry => if entry.1 == key then (key, value) else entry
  else entries ++ [(key, value)]

/-- `read_dictionary_key`. -/
def readDictionaryKey (read : Reader PlistValue) : Reader String := fun bytes objects => do
  match ← read bytes objects with
  | (.string key, bytes, objects) => return (key, bytes, objects)
  | _ => .error .keyNotString

/-- `parse_array` with a count. -/
def countedItems (read : Reader PlistValue) : ℕ → List PlistValue → Reader (List PlistValue)
  | 0, items, bytes, objects => .ok (items, bytes, objects)
  | count + 1, items, bytes, objects => do
    let (item, bytes, objects) ← read bytes objects
    countedItems read count (items ++ [item]) bytes objects

/-- `parse_array` up to the terminator. -/
def openItems (read : Reader PlistValue) : ℕ → List PlistValue → Reader (List PlistValue)
  | 0, _, _, _ => .error .rounds
  | rounds + 1, items, bytes, objects =>
    if bytes.head? = some 0x03 then .ok (items, bytes.drop 1, objects)
    else do
      let (item, bytes, objects) ← read bytes objects
      openItems read rounds (items ++ [item]) bytes objects

/-- `parse_dictionary` with a count. -/
def countedEntries (read : Reader PlistValue) :
    ℕ → List (String × PlistValue) → Reader (List (String × PlistValue))
  | 0, entries, bytes, objects => .ok (entries, bytes, objects)
  | count + 1, entries, bytes, objects => do
    let (key, bytes, objects) ← readDictionaryKey read bytes objects
    let (value, bytes, objects) ← read bytes objects
    countedEntries read count (insertKey entries key value) bytes objects

/-- `parse_dictionary` up to the terminator. -/
def openEntries (read : Reader PlistValue) :
    ℕ → List (String × PlistValue) → Reader (List (String × PlistValue))
  | 0, _, _, _ => .error .rounds
  | rounds + 1, entries, bytes, objects =>
    if bytes.head? = some 0x03 then .ok (entries, bytes.drop 1, objects)
    else do
      let (key, bytes, objects) ← readDictionaryKey read bytes objects
      let (value, bytes, objects) ← read bytes objects
      openEntries read rounds (insertKey entries key value) bytes objects

/-- What is behind a tag. -/
def parseTag (read : Reader PlistValue) (rounds tag : ℕ) : Reader PlistValue :=
  fun bytes objects =>
  if tag = 0x01 then return (.boolean true, bytes, objects)
  else if tag = 0x02 then return (.boolean false, bytes, objects)
  else if 0x08 ≤ tag ∧ tag ≤ 0x2F then return (.integer (tag - 8 : ℕ), bytes, objects)
  else if tag = 0x30 then do
    let (value, bytes) ← readU8 bytes
    remember (.integer value) bytes objects
  else if tag = 0x31 then do
    let (value, bytes) ← readLE 2 bytes
    remember (.integer value) bytes objects
  else if tag = 0x32 then do
    let (value, bytes) ← readLE 4 bytes
    remember (.integer value) bytes objects
  else if tag = 0x33 then do
    let (value, bytes) ← readLE 8 bytes
    remember (.integer value) bytes objects
  else if tag = 0x35 then do
    let (bits, bytes) ← readBE 4 bytes
    remember (.real (UInt64.ofNat (asF64 bits))) bytes objects
  else if tag = 0x36 then do
    let (bits, bytes) ← readBE 8 bytes
    remember (.real (UInt64.ofNat bits)) bytes objects
  else if 0x40 ≤ tag ∧ tag ≤ 0x64 then do
    let (len, bytes) ← readSizedLen stringTags tag bytes
    let (text, bytes) ← readString len bytes
    remember (.string text) bytes objects
  else if 0x70 ≤ tag ∧ tag ≤ 0x94 then do
    let (len, bytes) ← readSizedLen dataTags tag bytes
    let (data, bytes) ← readExact len bytes
    remember (.data data) bytes objects
  else if 0xA0 ≤ tag ∧ tag ≤ 0xC0 then lookup (tag - 0xA0) bytes objects
  else if 0xC1 ≤ tag ∧ tag ≤ 0xC4 then do
    let (index, bytes) ← if tag = 0xC1 then readU8 bytes else readLE (2 ^ (tag - 0xC1)) bytes
    lookup index bytes objects
  else if 0xD0 ≤ tag ∧ tag ≤ 0xDE then do
    let (items, bytes, objects) ←
      countedItems read (tag - 0xD0) [] bytes objects
    return (.array items, bytes, objects)
  else if tag = 0xDF then do
    let (items, bytes, objects) ← openItems read rounds [] bytes objects
    return (.array items, bytes, objects)
  else if 0xE0 ≤ tag ∧ tag ≤ 0xEE then do
    let (entries, bytes, objects) ←
      countedEntries read (tag - 0xE0) [] bytes objects
    return (.dictionary entries, bytes, objects)
  else if tag = 0xEF then do
    let (entries, bytes, objects) ←
      openEntries read rounds [] bytes objects
    return (.dictionary entries, bytes, objects)
  else if tag = 0x03 then .error .unexpectedTerminator
  else .error (.unsupportedTag tag)

/-- `opack_to_plist_inner`. Every value takes a tag off, so there are no more rounds
than bytes. -/
def opackToPlistInner : ℕ → Reader PlistValue
  | 0, _, _ => .error .rounds
  | rounds + 1, bytes, objects => do
    let (tag, bytes) ← readU8 bytes
    parseTag (opackToPlistInner rounds) rounds tag bytes objects

/-- `opack_to_plist`. -/
def opackToPlist (bytes : Bytes) : Except OpackError PlistValue := do
  let (value, rest, _) ← opackToPlistInner (bytes.length + 1) bytes []
  if rest.isEmpty then return value else .error (.trailingBytes rest.length)

end Decoding

end XitForge.RemotePairing
