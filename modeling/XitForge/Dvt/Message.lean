import XitForge.RustEval
import XitForge.Xpc.Channel

/-!
Reading a DTX message: fragments, each with a header of 32 bytes, put together to
a payload header, auxiliary values and an archive. The values come flat behind a
header of their own, or as the keys and values of one dictionary block.
-/
namespace XitForge.Dvt

open RustEval
open Xpc (fromLEBytes leAt slice PlistValue)

inductive ReadError where
  /-- The error of `read_exact` at the end of its input. -/
  | socket
  | notEnoughBytes (got needed : ℕ)
  | utf8
  | unknownAuxValueType (rawType : ℕ)
  | archive
  deriving DecidableEq, Repr

/-- The values that `parse_primitive` makes. A `Double` is its bits. -/
inductive AuxValue where
  | null
  | string (value : String)
  | array (value : List UInt8)
  | u32 (value : ℕ)
  | i64 (value : Int64)
  | double (bits : UInt64)
  deriving DecidableEq, Repr

structure AuxHeader where
  bufferSize : ℕ := 0
  unknown : ℕ := 0
  auxSize : ℕ := 0
  unknown2 : ℕ := 0
  deriving DecidableEq, Repr

structure Aux where
  header : AuxHeader
  values : List AuxValue
  deriving DecidableEq, Repr

structure Cursor where
  bytes : List UInt8
  position : ℕ
  deriving DecidableEq, Repr

def Cursor.readExact (count : ℕ) (cursor : Cursor) : Eval ReadError (List UInt8 × Cursor) :=
  if count ≤ cursor.bytes.length - cursor.position then
    .ok ((cursor.bytes.drop cursor.position).take count,
      { cursor with position := cursor.position + count })
  else .err .socket

/-- `read_u32`, and `read_u64` with eight bytes. -/
def Cursor.readWord (width : ℕ) (cursor : Cursor) : Eval ReadError (ℕ × Cursor) := do
  let (bytes, cursor) ← cursor.readExact width
  return (fromLEBytes bytes, cursor)

/-- `parse_primitive`. -/
def parsePrimitive (cursor : Cursor) : Eval ReadError (AuxValue × Cursor) := do
  let (rawType, cursor) ← cursor.readWord 4
  let typeCode := rawType % 256
  if typeCode = 0x01 then
    let (len, cursor) ← cursor.readWord 4
    let (bytes, cursor) ← cursor.readExact len
    match String.fromUTF8? ⟨bytes.toArray⟩ with
    | some text => return (.string text, cursor)
    | none => .err .utf8
  else if typeCode = 0x02 then
    let (len, cursor) ← cursor.readWord 4
    let (bytes, cursor) ← cursor.readExact len
    return (.array bytes, cursor)
  else if typeCode = 0x03 then
    let (value, cursor) ← cursor.readWord 4
    return (.u32 value, cursor)
  else if typeCode = 0x06 then
    let (value, cursor) ← cursor.readWord 8
    return (.i64 (UInt64.ofNat value).toInt64, cursor)
  else if typeCode = 0x09 then
    let (value, cursor) ← cursor.readWord 8
    return (.double (UInt64.ofNat value), cursor)
  else if typeCode = 0x0A then return (.null, cursor)
  else .err (.unknownAuxValueType rawType)

/-- The loop of `parse_legacy_bytes`. No position comes twice unless the loop
never ends; without fuel it panics. -/
def legacyLoop (checks : Bool) :
    ℕ → List AuxValue → Cursor → Eval ReadError (List AuxValue)
  | 0, _, _ => .panic
  | fuel + 1, values, cursor => do
    let next ← Eval.add 64 checks cursor.position 4
    if cursor.bytes.length < next then return values
    let (auxType, cursor) ← cursor.readWord 4
    if auxType = 0x0a then legacyLoop checks fuel values cursor
    else if auxType = 0x0f0 then
      let (_, cursor) ← cursor.readWord 4
      let (bodyLen, cursor) ← cursor.readWord 8
      let stop ← Eval.add 64 checks cursor.position bodyLen
      if cursor.bytes.length < stop then .err (.notEnoughBytes cursor.bytes.length stop)
      else legacyLoop checks fuel values { cursor with position := stop }
    else
      let start ← Eval.sub 64 checks cursor.position 4
      let rest ← slice cursor.bytes start cursor.bytes.length
      let (value, sub) ← parsePrimitive ⟨rest, 0⟩
      let stop ← Eval.add 64 checks start sub.position
      legacyLoop checks fuel (values ++ [value]) { cursor with position := stop }

/-- `parse_legacy_bytes`. -/
def parseLegacyBytes (checks : Bool) (bytes : List UInt8) : Eval ReadError Aux :=
  if bytes.length < 16 then .err (.notEnoughBytes bytes.length 16)
  else do
    let (bufferSize, cursor) ← Cursor.readWord 4 ⟨bytes, 0⟩
    let (unknown, cursor) ← cursor.readWord 4
    let (auxSize, cursor) ← cursor.readWord 4
    let (unknown2, cursor) ← cursor.readWord 4
    let values ← legacyLoop checks (bytes.length + 1) [] cursor
    return ⟨⟨bufferSize, unknown, auxSize, unknown2⟩, values⟩

/-- The loop of `Aux::from_bytes`. A key takes four bytes at least; without fuel it panics. -/
def pairLoop (bodyEnd : ℕ) : ℕ → List AuxValue → Cursor → Eval ReadError (List AuxValue)
  | 0, _, _ => .panic
  | fuel + 1, values, cursor =>
    if cursor.position < bodyEnd then do
      let (_, cursor) ← parsePrimitive cursor
      let (value, cursor) ← parsePrimitive cursor
      pairLoop bodyEnd fuel (values ++ [value]) cursor
    else return values

/-- `Aux::from_bytes`. -/
def Aux.fromBytes (checks : Bool) (bytes : List UInt8) : Eval ReadError Aux :=
  match bytes with
  | [] => return ⟨{}, []⟩
  | first :: _ =>
    if first.toNat ≠ 0xF0 then parseLegacyBytes checks bytes
    else if bytes.length < 16 then .err (.notEnoughBytes bytes.length 16)
    else do
      let (_, cursor) ← Cursor.readWord 4 ⟨bytes, 0⟩
      let (_, cursor) ← cursor.readWord 4
      let (bodyLen, cursor) ← cursor.readWord 8
      let bodyEnd ← Eval.add 64 checks 16 bodyLen
      if bytes.length < bodyEnd then .err (.notEnoughBytes bytes.length bodyEnd)
      else
        let values ← pairLoop bodyEnd (bytes.length + 1) [] cursor
        return ⟨{}, values⟩

structure MessageHeader where
  magic : ℕ
  headerLen : ℕ
  fragmentId : ℕ
  fragmentCount : ℕ
  length : ℕ
  identifier : ℕ
  conversationIndex : ℕ
  channel : Int32
  expectsReply : Bool
  deriving DecidableEq, Repr

structure PayloadHeader where
  msgType : UInt8
  flagsA : UInt8
  flagsB : UInt8
  reserved : UInt8
  auxLength : ℕ
  totalLength : ℕ
  flags : ℕ
  deriving DecidableEq, Repr

structure Message where
  messageHeader : MessageHeader
  payloadHeader : PayloadHeader
  aux : Option Aux
  data : Option PlistValue
  rawData : Option (List UInt8)

/-- `-channel`. The least `i32` has no negative. -/
def negate (checks : Bool) (channel : Int32) : Eval ReadError Int32 :=
  if checks ∧ channel = Int32.minValue then .panic else .ok (-channel)

/-- `i32::from_le_bytes` of the channel in a header. -/
def wireChannel (header : List UInt8) : Int32 := (UInt32.ofNat (leAt header 24 4)).toInt32

/-- The header in its 32 bytes. -/
def parseHeader (checks : Bool) (buf : List UInt8) : Eval ReadError MessageHeader := do
  let conversationIndex := leAt buf 20 4
  let channel ←
    if conversationIndex % 2 = 0 then negate checks (wireChannel buf) else pure (wireChannel buf)
  return {
    magic := leAt buf 0 4
    headerLen := leAt buf 4 4
    fragmentId := leAt buf 8 2
    fragmentCount := leAt buf 10 2
    length := leAt buf 12 4
    identifier := leAt buf 16 4
    conversationIndex := conversationIndex
    channel := channel
    expectsReply := leAt buf 28 4 == 1 }

/-- `read_exact` of the stream of the peer, which fails where the stream ends. -/
def readStream (count : ℕ) (stream : List UInt8) : Eval ReadError (List UInt8 × List UInt8) :=
  if count ≤ stream.length then .ok (stream.take count, stream.drop count) else .err .socket

/-- The loop over the fragments of `from_reader`, with panic for a lack of fuel. -/
def readFragments (checks : Bool) :
    ℕ → List UInt8 → List UInt8 → Eval ReadError (MessageHeader × List UInt8 × List UInt8)
  | 0, _, _ => .panic
  | fuel + 1, packetData, stream => do
    let (buf, stream) ← readStream 32 stream
    let header ← parseHeader checks buf
    -- the first of several fragments is a header alone
    if 1 < header.fragmentCount ∧ header.fragmentId = 0 then readFragments checks fuel packetData stream
    else
      let (buf, stream) ← readStream header.length stream
      let last ← Eval.sub 16 checks header.fragmentCount 1
      if header.fragmentId = last then return (header, packetData ++ buf, stream)
      else readFragments checks fuel (packetData ++ buf) stream

def PayloadHeader.parse (buf : List UInt8) : PayloadHeader where
  msgType := buf.getD 0 0
  flagsA := buf.getD 1 0
  flagsB := buf.getD 2 0
  reserved := buf.getD 3 0
  auxLength := leAt buf 4 4
  totalLength := leAt buf 8 4
  flags := leAt buf 12 4

/-- `ns_keyed_archive::decode::from_bytes`, which returns a `Result`. -/
abbrev Archive := List UInt8 → Option PlistValue

/-- What `from_reader` does behind the auxiliary values. -/
def parseData (checks : Bool) (archive : Archive) (header : MessageHeader) (packetData : List UInt8)
    (pheader : PayloadHeader) (aux : Option Aux) : Eval ReadError Message := do
  let needLen ← Eval.sub 32 checks pheader.totalLength pheader.auxLength
  let start ← Eval.add 32 checks pheader.auxLength 16
  let stop ← Eval.add 64 checks pheader.auxLength 16
  let stop ← Eval.add 64 checks stop needLen
  let buf ← slice packetData start stop
  if buf.isEmpty then return ⟨header, pheader, aux, none, none⟩
  else
    match archive buf with
    | some data => return ⟨header, pheader, aux, some data, some buf⟩
    | none => .err .archive

/-- What `from_reader` makes of the packet of a message. -/
def parsePacket (checks : Bool) (archive : Archive) (header : MessageHeader)
    (packetData : List UInt8) : Eval ReadError Message := do
  let buf ← slice packetData 0 16
  let pheader := PayloadHeader.parse buf
  let aux ←
    if 0 < pheader.auxLength then do
      let stop ← Eval.add 64 checks 16 pheader.auxLength
      let buf ← slice packetData 16 stop
      let aux ← Aux.fromBytes checks buf
      pure (some aux)
    else pure none
  parseData checks archive header packetData pheader aux

/-- `Message::from_reader`: the message and what is left of the stream. -/
def Message.fromReader (checks : Bool) (archive : Archive) (stream : List UInt8) :
    Eval ReadError (Message × List UInt8) := do
  let (header, packetData, rest) ← readFragments checks (stream.length + 1) [] stream
  let message ← parsePacket checks archive header packetData
  return (message, rest)

end XitForge.Dvt
