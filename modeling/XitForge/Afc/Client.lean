import XitForge.Afc.Packet

/-!
The operations of `AfcClient` and of an open file, as the exchanges they make: a
request is sent, its response is read, and what comes next depends on it. A status
response that is not success ends the operation.
-/
namespace XitForge.Afc

/-- What an operation has still to do on its connection. -/
inductive Task (α : Type) where
  | done (value : α)
  | failed (error : Error)
  | exchange (operation : AfcOpcode) (headerPayload payload : Bytes) (next : AfcPacket → Task α)

namespace Task

variable {α β : Type}

protected def bind : Task α → (α → Task β) → Task β
  | done value, next => next value
  | failed error, _ => failed error
  | exchange operation headerPayload payload rest, next =>
    exchange operation headerPayload payload fun response => (rest response).bind next

instance : Monad Task where
  pure := done
  bind := Task.bind

/-- `ok_or`. -/
def ofOption (error : Error) : Option α → Task α
  | some value => done value
  | none => failed error

end Task

namespace AfcClient

/-- `send_op`, and the same lines of the operations that do not call it. -/
def sendOp (operation : AfcOpcode) (headerPayload payload : Bytes) : Task AfcPacket :=
  .exchange operation headerPayload payload .done

/-- The strings between the zero bytes that are not empty. -/
def splitStrings (payload : Bytes) : List Bytes :=
  (payload.splitOn 0).filter (· ≠ [])

/-- Two by two; an odd one at the end is left out. -/
def pairs : List Bytes → List (Bytes × Bytes)
  | key :: value :: rest => (key, value) :: pairs rest
  | _ => []

/-- `parse_kv_payload`. The attributes that are looked up have ASCII names, which no
other bytes turn into when they are made text. -/
def parseKvPayload (payload : Bytes) : List (Bytes × Bytes) := pairs (splitStrings payload)

/-- The value of a key: of entries with one key the last one stays in the map. -/
def valueOf (kvs : List (Bytes × Bytes)) (key : String) : Option Bytes :=
  (kvs.reverse.find? fun kv => kv.1 == key.toUTF8.toList).map Prod.snd

/-- The number that digits denote. -/
def parseDigits : ℕ → Bytes → Option ℕ
  | value, [] => some value
  | value, byte :: rest =>
    if 48 ≤ byte.toNat ∧ byte.toNat ≤ 57 then parseDigits (10 * value + (byte.toNat - 48)) rest
    else none

def parseNumber (bytes : Bytes) : Option ℕ := if bytes = [] then none else parseDigits 0 bytes

/-- `parse::<usize>`. -/
def parseUsize (bytes : Bytes) : Option ℕ :=
  let digits := match bytes with
    | 43 :: rest => rest
    | _ => bytes
  (parseNumber digits).filter (· < 2 ^ 64)

/-- `parse::<i64>`. -/
def parseI64 (bytes : Bytes) : Option ℤ :=
  match bytes with
  | 43 :: rest => ((parseNumber rest).filter (· < 2 ^ 63)).map Int.ofNat
  | 45 :: rest => ((parseNumber rest).filter (· ≤ 2 ^ 63)).map fun value => -Int.ofNat value
  | _ => ((parseNumber bytes).filter (· < 2 ^ 63)).map Int.ofNat

def listDir (path : Bytes) : Task (List Bytes) := do
  let response ← sendOp .readDir path []
  return splitStrings response.payload

def mkDir (path : Bytes) : Task Unit := do
  let _ ← sendOp .makeDir path []

def getFileInfoRaw (path : Bytes) : Task (List (Bytes × Bytes)) := do
  let response ← sendOp .getFileInfo path []
  return parseKvPayload response.payload

structure FileInfo where
  size : ℕ
  blocks : ℕ
  /-- Nanoseconds since the epoch. -/
  creation : ℤ
  modified : ℤ
  stNlink : Bytes
  stIfmt : Bytes
  stLinkTarget : Option Bytes

def getFileInfo (path : Bytes) : Task FileInfo := do
  let kvs ← getFileInfoRaw path
  let size ← .ofOption .missingAttribute ((valueOf kvs "st_size").bind parseUsize)
  let blocks ← .ofOption .missingAttribute ((valueOf kvs "st_blocks").bind parseUsize)
  let creation ← .ofOption .missingAttribute ((valueOf kvs "st_birthtime").bind parseI64)
  let modified ← .ofOption .missingAttribute ((valueOf kvs "st_mtime").bind parseI64)
  let stNlink ← .ofOption .missingAttribute (valueOf kvs "st_nlink")
  let stIfmt ← .ofOption .missingAttribute (valueOf kvs "st_ifmt")
  return { size, blocks, creation, modified, stNlink, stIfmt
           stLinkTarget := (valueOf kvs "LinkTarget").or (valueOf kvs "st_link_target") }

def getDeviceInfoRaw : Task (List (Bytes × Bytes)) := do
  let response ← sendOp .getDevInfo [] []
  return parseKvPayload response.payload

structure DeviceInfo where
  model : Bytes
  totalBytes : ℕ
  freeBytes : ℕ
  blockSize : ℕ

def getDeviceInfo : Task DeviceInfo := do
  let kvs ← getDeviceInfoRaw
  let model ← .ofOption .missingAttribute (valueOf kvs "Model")
  let totalBytes ← .ofOption .missingAttribute ((valueOf kvs "FSTotalBytes").bind parseUsize)
  let freeBytes ← .ofOption .missingAttribute ((valueOf kvs "FSFreeBytes").bind parseUsize)
  let blockSize ← .ofOption .missingAttribute ((valueOf kvs "FSBlockSize").bind parseUsize)
  return { model, totalBytes, freeBytes, blockSize }

def remove (path : Bytes) : Task Unit := do
  let _ ← sendOp .removePath path []

def removeAll (path : Bytes) : Task Unit := do
  let _ ← sendOp .removePathAndContents path []

/-- `to_le_bytes` of a `u64`. -/
def word (value : ℕ) : Bytes := Xpc.toLEBytes 8 value

/-- `open` and `open_owned`: the descriptor of the file. -/
def openFile (path : Bytes) (mode : ℕ) : Task ℕ := do
  let response ← sendOp .fileOpen (word mode ++ path) []
  if response.headerPayload.length < 8 then .failed .fdTooShort
  else return Xpc.leAt response.headerPayload 0 8

def link (target source : Bytes) (kind : ℕ) : Task Unit := do
  let _ ← sendOp .makeLink (word kind ++ target ++ [0] ++ source ++ [0]) []

def rename (source target : Bytes) : Task Unit := do
  let _ ← sendOp .renamePath (source ++ [0] ++ target ++ [0]) []

def getFileHash (path : Bytes) : Task Bytes := do
  let response ← sendOp .getFileHash path []
  return response.payload

def setFileTime (path : Bytes) (mtime : ℕ) : Task Unit := do
  let _ ← sendOp .setFileTime (word mtime ++ path) []

def getConnectionInfo : Task (List (Bytes × Bytes)) := do
  let response ← sendOp .getConInfo [] []
  return parseKvPayload response.payload

end AfcClient

namespace FileDescriptor

open AfcClient

/-- `MAX_TRANSFER`. -/
def maxTransfer : ℕ := 1024 * 1024

/-- Where the pieces of `n` bytes start. -/
def starts (n : ℕ) : List ℕ := (List.range ((n + maxTransfer - 1) / maxTransfer)).map (· * maxTransfer)

/-- `chunk_number`. -/
def chunkNumber (n : ℕ) : List ℕ := (starts n).map fun start => min (n - start) maxTransfer

def seekTell (fd : ℕ) : Task ℕ := do
  let response ← sendOp .fileTell (word fd) []
  if response.headerPayload.length < 8 then .failed .positionMissing
  else return Xpc.leAt response.headerPayload 0 8

/-- `seek`, with the offset as its 64 bits. -/
def seek (fd whence offset : ℕ) : Task ℕ := do
  let _ ← sendOp .fileSeek (word fd ++ word whence ++ word offset) []
  seekTell fd

/-- The loop of `read_n`. -/
def readChunks (fd : ℕ) : List ℕ → Bytes → Task Bytes
  | [], collected => .done collected
  | chunk :: rest, collected => do
    let response ← sendOp .read (word fd ++ word chunk) []
    if response.payload.isEmpty then .done collected
    else readChunks fd rest (collected ++ response.payload)

def readN (fd n : ℕ) : Task Bytes := readChunks fd (chunkNumber n) []

/-- The loop of `read`. A round that goes on takes at least one byte off. -/
def readLoop (fd : ℕ) : ℕ → ℕ → Bytes → Task Bytes
  | 0, _, collected => .done collected
  | rounds + 1, bytesLeft, collected =>
    if bytesLeft = 0 then .done collected
    else do
      let bytes ← readN fd (min bytesLeft maxTransfer)
      if bytes.isEmpty then .done collected
      else readLoop fd rounds (bytesLeft - bytes.length) (collected ++ bytes)

def read (fd : ℕ) (path : Bytes) : Task Bytes := do
  let seekPos ← seekTell fd
  let info ← getFileInfo path
  readLoop fd (info.size - seekPos) (info.size - seekPos) []

/-- The loop of `write`. -/
def writeChunks (fd : ℕ) : List Bytes → Task Unit
  | [] => .done ()
  | chunk :: rest => do
    let _ ← sendOp .write (word fd) chunk
    writeChunks fd rest

def write (fd : ℕ) (bytes : Bytes) : Task Unit :=
  writeChunks fd ((starts bytes.length).map fun start => (bytes.drop start).take maxTransfer)

def lock (fd op : ℕ) : Task Unit := do
  let _ ← sendOp .fileLock (word fd ++ word op) []

def setSize (fd size : ℕ) : Task Unit := do
  let _ ← sendOp .fileSetSize (word fd ++ word size) []

def close (fd : ℕ) : Task Unit := do
  let _ ← sendOp .fileClose (word fd) []

end FileDescriptor

/-- An operation of the client or of an open file. -/
inductive Call where
  | listDir (path : Bytes)
  | mkDir (path : Bytes)
  | getFileInfoRaw (path : Bytes)
  | getFileInfo (path : Bytes)
  | getDeviceInfoRaw
  | getDeviceInfo
  | remove (path : Bytes)
  | removeAll (path : Bytes)
  | openFile (path : Bytes) (mode : ℕ)
  | link (target source : Bytes) (kind : ℕ)
  | rename (source target : Bytes)
  | sendOp (operation : AfcOpcode) (headerPayload payload : Bytes)
  | getFileHash (path : Bytes)
  | setFileTime (path : Bytes) (mtime : ℕ)
  | getConnectionInfo
  | seekTell (fd : ℕ)
  | seek (fd whence offset : ℕ)
  | readN (fd n : ℕ)
  | read (fd : ℕ) (path : Bytes)
  | write (fd : ℕ) (bytes : Bytes)
  | lock (fd op : ℕ)
  | setSize (fd size : ℕ)
  | close (fd : ℕ)
  deriving DecidableEq, Repr

/-- What is left of a call once its result is known to the caller. -/
def Call.task : Call → Task Unit
  | .listDir path => do let _ ← AfcClient.listDir path
  | .mkDir path => AfcClient.mkDir path
  | .getFileInfoRaw path => do let _ ← AfcClient.getFileInfoRaw path
  | .getFileInfo path => do let _ ← AfcClient.getFileInfo path
  | .getDeviceInfoRaw => do let _ ← AfcClient.getDeviceInfoRaw
  | .getDeviceInfo => do let _ ← AfcClient.getDeviceInfo
  | .remove path => AfcClient.remove path
  | .removeAll path => AfcClient.removeAll path
  | .openFile path mode => do let _ ← AfcClient.openFile path mode
  | .link target source kind => AfcClient.link target source kind
  | .rename source target => AfcClient.rename source target
  | .sendOp operation headerPayload payload => do
    let _ ← AfcClient.sendOp operation headerPayload payload
  | .getFileHash path => do let _ ← AfcClient.getFileHash path
  | .setFileTime path mtime => AfcClient.setFileTime path mtime
  | .getConnectionInfo => do let _ ← AfcClient.getConnectionInfo
  | .seekTell fd => do let _ ← FileDescriptor.seekTell fd
  | .seek fd whence offset => do let _ ← FileDescriptor.seek fd whence offset
  | .readN fd n => do let _ ← FileDescriptor.readN fd n
  | .read fd path => do let _ ← FileDescriptor.read fd path
  | .write fd bytes => FileDescriptor.write fd bytes
  | .lock fd op => FileDescriptor.lock fd op
  | .setSize fd size => FileDescriptor.setSize fd size
  | .close fd => FileDescriptor.close fd

end XitForge.Afc
