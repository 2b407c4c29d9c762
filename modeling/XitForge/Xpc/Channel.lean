import XitForge.Xpc.Format

/-!
One channel of `RemoteXpcClient`. Payloads of DATA frames are cached by the
HTTP/2 client and appended to the bytes of the channel until a whole message is
there; a read that is dropped leaves the cached payloads and the bytes behind.
-/
namespace XitForge.Xpc

open RustEval

/-- `plist::Value`. -/
inductive PlistValue where
  | string (value : String)
  | boolean (value : Bool)
  | real (bits : UInt64)
  | integer (value : ℤ)
  | date (nanos : ℤ)
  | data (value : List UInt8)
  | array (items : List PlistValue)
  | dictionary (entries : List (String × PlistValue))

def hexDigit (n : ℕ) : Char := if n < 10 then Char.ofNat (48 + n) else Char.ofNat (87 + n)

def hexText (bytes : List UInt8) : List Char :=
  bytes.flatMap fun byte => [hexDigit (byte.toNat / 16), hexDigit (byte.toNat % 16)]

/-- `Uuid::to_string`: lowercase, hyphenated. -/
def Uuid.toText (uuid : Uuid) : String :=
  let bytes := uuid.asBytes
  String.ofList (hexText (bytes.take 4) ++ '-' :: hexText ((bytes.drop 4).take 2) ++
    '-' :: hexText ((bytes.drop 6).take 2) ++ '-' :: hexText ((bytes.drop 8).take 2) ++
    '-' :: hexText (bytes.drop 10))

mutual

/-- `to_plist`; the keys of a dictionary are distinct, so each insertion appends. -/
def XPCObject.toPlist : XPCObject → PlistValue
  | .null => .string ""
  | .bool value => .boolean value
  | .uuid value => .string value.toText
  | .double bits => .real bits
  | .uint64 value => .integer value.toNat
  | .int64 value => .integer value.toInt
  | .date nanos => .date nanos
  | .string value => .string value
  | .data value => .data value
  | .array items => .array (toPlistItems items)
  | .dictionary entries => .dictionary (toPlistEntries entries)
  | .fileTransfer msgId data =>
    .dictionary [("msg_id", .integer msgId.toNat), ("data", data.toPlist)]
termination_by structural object => object

def toPlistItems : List XPCObject → List PlistValue
  | [] => []
  | item :: rest => item.toPlist :: toPlistItems rest
termination_by structural items => items

def toPlistEntries : List (String × XPCObject) → List (String × PlistValue)
  | [] => []
  | entry :: rest => toPlistEntry entry :: toPlistEntries rest
termination_by structural entries => entries

def toPlistEntry : String × XPCObject → String × PlistValue
  | (key, value) => (key, value.toPlist)
termination_by structural entry => entry

end

def XPCObject.isEmptyDictionary : XPCObject → Bool
  | .dictionary entries => entries.isEmpty
  | _ => false

/-- `xpc_body_len`, of a buffer that holds a whole header. -/
def xpcBodyLen (buf : List UInt8) : ℕ := leAt buf 8 8

/-- `take_buffered`: the message, if there is a whole one, and what is left. -/
def takeBuffered (checks : Bool) (buf : List UInt8) : Eval IdeviceError (Option XPCMessage × List UInt8) :=
  match XPCMessage.decode checks buf with
  | .ok message => do
    let consumed ← add64 checks 24 (xpcBodyLen buf)
    return (some message, buf.drop (min consumed buf.length))
  | .err .sizeMismatch => .ok (none, buf)
  | .err (.notEnoughBytes _ _) => .ok (none, buf)
  | .err error => .err error
  | .panic => .panic

/-- The bytes toward the next message, and the payloads the HTTP/2 client cached. -/
structure Channel where
  buffered : List UInt8 := []
  cache : List (List UInt8) := []
  deriving DecidableEq, Repr

/-- What ends a wait of `pump`. -/
inductive Wake where
  /-- A DATA frame of the channel. Its payload is cached, and the future may be
  dropped while the window updates are flushed. -/
  | frame (payload : List UInt8) (dropped : Bool)
  /-- A frame that is none of the channel's. -/
  | other
  /-- The future is dropped before a frame is there. -/
  | dropped
  deriving DecidableEq, Repr

def Wake.payload : Wake → List UInt8
  | .frame payload _ => payload
  | _ => []

inductive ReadEnd where
  | chunk (payload : List UInt8) (cache : List (List UInt8)) (wakes : List Wake)
  | dropped (cache : List (List UInt8)) (wakes : List Wake)
  | pending
  deriving DecidableEq, Repr

/-- `Http2Client::read`. -/
def h2Read : List (List UInt8) → List Wake → ReadEnd
  | payload :: cache, wakes => .chunk payload cache wakes
  | [], [] => .pending
  | [], .dropped :: wakes => .dropped [] wakes
  | [], .frame payload true :: wakes => .dropped [payload] wakes
  | [], .frame payload false :: wakes => .chunk payload [] wakes
  | [], .other :: wakes => h2Read [] wakes

inductive Received where
  | value (value : PlistValue) (channel : Channel) (wakes : List Wake)
  | dropped (channel : Channel) (wakes : List Wake)
  | pending (channel : Channel)

/-- The loop of `recv_from_channel`, with panic for a lack of fuel. -/
def recvLoop (checks : Bool) : ℕ → Channel → List Wake → Eval IdeviceError Received
  | 0, _, _ => .panic
  | fuel + 1, channel, wakes => do
    let (message, buffered) ← takeBuffered checks channel.buffered
    match message with
    | some message =>
      match message.message with
      | some inner =>
        if inner.isEmptyDictionary then recvLoop checks fuel { channel with buffered := buffered } wakes
        else return .value inner.toPlist { channel with buffered := buffered } wakes
      | none => recvLoop checks fuel { channel with buffered := buffered } wakes
    | none =>
      match h2Read channel.cache wakes with
      | .chunk payload cache wakes =>
        recvLoop checks fuel { buffered := buffered ++ payload, cache := cache } wakes
      | .dropped cache wakes => return .dropped { buffered := buffered, cache := cache } wakes
      | .pending => return .pending { buffered := buffered, cache := [] }

/-- The bytes that were received or will be. -/
def Channel.bytes (channel : Channel) (wakes : List Wake) : List UInt8 :=
  channel.buffered ++ (channel.cache.flatten ++ (wakes.map Wake.payload).flatten)

/-- Every round takes a message, a cached payload or a frame. -/
def Channel.rounds (channel : Channel) (wakes : List Wake) : ℕ :=
  (channel.bytes wakes).length + channel.cache.length + 2 * wakes.length + 1

/-- `recv_from_channel`. -/
def recvFromChannel (checks : Bool) (channel : Channel) (wakes : List Wake) :
    Eval IdeviceError Received := recvLoop checks (channel.rounds wakes) channel wakes

/-- Calls of `recv_from_channel`, each after the value or the drop of the last
one, until one waits for a frame that does not come. -/
def recvCalls (checks : Bool) :
    ℕ → Channel → List Wake → Eval IdeviceError (List PlistValue × Channel)
  | 0, _, _ => .panic
  | fuel + 1, channel, wakes => do
    match ← recvFromChannel checks channel wakes with
    | .value value channel wakes =>
      let (values, channel) ← recvCalls checks fuel channel wakes
      return (value :: values, channel)
    | .dropped channel wakes => recvCalls checks fuel channel wakes
    | .pending channel => return ([], channel)

/-- All that is received from a channel before its frames end. -/
def recvAll (checks : Bool) (wakes : List Wake) : Eval IdeviceError (List PlistValue × Channel) :=
  recvCalls checks (Channel.rounds {} wakes) {} wakes

end XitForge.Xpc
