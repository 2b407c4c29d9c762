import XitForge.ByteStream
import XitForge.Program
import XitForge.RustText
import XitForge.Xpc.Channel

/-!
The messages of mobilebackup2 that make the host change its backup directory. The
storage is a delegate that answers every call as it likes, and the device supplies
every path.
-/
namespace XitForge.MobileBackup

open ByteStream Program RustText
open Xpc (PlistValue)

/-- `DL_CODE_SUCCESS`. -/
def codeSuccess : UInt8 := 0x00

/-- `DL_CODE_FILE_DATA`. -/
def codeFileData : UInt8 := 0x0c

/-- Only the normal components of the device's path are kept. -/
def hostPath (hostDir : Path) (rel : String) : Path :=
  (components rel).foldl (fun out component =>
    match component with
    | .normal name => out.push name
    | _ => out) hostDir

/-- A call of the `BackupDelegate`, or of a file that it opened. -/
inductive DelegateCall where
  | createDirAll (path : Path)
  | exists (path : Path)
  | remove (path : Path)
  | createFileWrite (path : Path)
  | writeAll (path : Path) (data : Bytes)
  | rename (old new : Path)
  | copy (src dst : Path)
  | onFileReceived (path : String) (fileCount : UInt32)
  deriving DecidableEq

/-- The paths whose contents a call replaces or destroys. -/
def DelegateCall.destroyed : DelegateCall → List Path
  | remove path => [path]
  | createFileWrite path => [path]
  | rename old new => [old, new]
  | copy _ dst => [dst]
  | _ => []

/-- What the storage answers to a call after the calls before it: whether the call
succeeds, or whether the path exists. -/
abbrev Delegate := List DelegateCall → DelegateCall → Bool

inductive BackupError where
  | socket
  | createFile
  | writeFile
  | sendStatus
  deriving DecidableEq, Repr

structure Host where
  /-- What the device has sent and the host has not read. -/
  stream : Bytes
  calls : List DelegateCall

abbrev Call (α : Type) := Prog Host BackupError α

section Reading

/-- `read_exact`. -/
def readExact (count : ℕ) : Call Bytes := fun host =>
  match splitExact count host.stream with
  | some (front, rest) => (.done front, { host with stream := rest })
  | none => (.failed .socket, host)

def readBeU32 : Call ℕ := fun host =>
  match splitU32 host.stream with
  | some (n, rest) => (.done n, { host with stream := rest })
  | none => (.failed .socket, host)

def readOne : Call UInt8 := fun host =>
  match host.stream with
  | byte :: rest => (.done byte, { host with stream := rest })
  | [] => (.failed .socket, host)

/-- `read_exact_string`. -/
def readExactString (count : ℕ) : Call String := do
  let bytes ← readExact count
  pure (fromUtf8Lossy bytes)

variable {host : Host} {rest : Bytes}

theorem readExact_some {count : ℕ} {front : Bytes}
    (h : splitExact count host.stream = some (front, rest)) :
    readExact count host = (.done front, { host with stream := rest }) := by
  unfold readExact
  rw [h]

theorem readExact_eq_done {count : ℕ} {front : Bytes} {host' : Host}
    (h : readExact count host = (.done front, host')) :
    splitExact count host.stream = some (front, host'.stream) ∧ host'.calls = host.calls := by
  unfold readExact at h
  split at h
  · rename_i heq
    cases h
    exact ⟨heq, rfl⟩
  · cases h

theorem readBeU32_some {n : ℕ} (h : splitU32 host.stream = some (n, rest)) :
    readBeU32 host = (.done n, { host with stream := rest }) := by
  unfold readBeU32
  rw [h]

theorem readBeU32_eq_done {n : ℕ} {host' : Host} (h : readBeU32 host = (.done n, host')) :
    splitU32 host.stream = some (n, host'.stream) ∧ host'.calls = host.calls := by
  unfold readBeU32 at h
  split at h
  · rename_i heq
    cases h
    exact ⟨heq, rfl⟩
  · cases h

theorem readOne_cons {byte : UInt8} (h : host.stream = byte :: rest) :
    readOne host = (.done byte, { host with stream := rest }) := by
  unfold readOne
  rw [h]

theorem readOne_eq_done {byte : UInt8} {host' : Host} (h : readOne host = (.done byte, host')) :
    host.stream = byte :: host'.stream ∧ host'.calls = host.calls := by
  unfold readOne at h
  split at h
  · rename_i heq
    cases h
    exact ⟨heq, rfl⟩
  · cases h

end Reading

section Handlers

variable (delegate : Delegate) (hostDir : Path)

def ask (call : DelegateCall) : Call Bool := fun host =>
  (.done (delegate host.calls call), { host with calls := host.calls ++ [call] })

/-- The parent of a path is made, if it has one; a failure is ignored. -/
def createParent (path : Path) : Call Unit :=
  match path.parent with
  | some parent => do
    let _ ← ask delegate (.createDirAll parent)
    pure ()
  | none => pure ()

theorem createParent_done (path : Path) (host : Host) :
    ∃ host', createParent delegate path host = (.done (), host') ∧ host'.stream = host.stream := by
  unfold createParent
  cases path.parent with
  | none => exact ⟨_, rfl, rfl⟩
  | some parent => exact ⟨_, rfl, rfl⟩

/-- The blocks of a file, as long as they hold data. The result is the length and the
code of the last block that was looked at. -/
def receiveBlocks (dst : Path) : ℕ → ℕ → UInt8 → Call (ℕ × UInt8)
  | 0, nlen, code => pure (nlen, code)
  | fuel + 1, nlen, code =>
    if code = codeFileData then do
      let data ← readExact (nlen - 1)
      let written ← ask delegate (.writeAll dst data)
      if !written then Prog.fail .writeFile
      else
        let nlen ← readBeU32
        if nlen > 0 then
          let code ← readOne
          receiveBlocks dst fuel nlen code
        else pure (nlen, code)
    else pure (nlen, code)

/-- One file of an upload, behind its name. -/
def receiveFile (fname : String) (fileCount : UInt32) : Call UInt32 := do
  let dst := hostPath hostDir fname
  createParent delegate dst
  let nlen ← readBeU32
  if nlen = 0 then pure fileCount
  else
    let code ← readOne
    let _ ← ask delegate (.remove dst)
    let created ← ask delegate (.createFileWrite dst)
    if !created then Prog.fail .createFile
    else
      let host ← Prog.get
      let (nlen, code) ← receiveBlocks delegate dst (host.stream.length + 1) nlen code
      let _ ← ask delegate (.onFileReceived fname (fileCount + 1))
      if nlen > 0 ∧ code ≠ codeFileData ∧ code ≠ codeSuccess then
        let _ ← readExact (nlen - 1)
        pure (fileCount + 1)
      else pure (fileCount + 1)

/-- The names before a file: a length of zero ends the upload. -/
def receiveHeader : Call (Option String) := do
  let dlen ← readBeU32
  if dlen = 0 then pure none
  else
    let _dname ← readExactString dlen
    let flen ← readBeU32
    if flen = 0 then pure none
    else
      let fname ← readExactString flen
      pure (some fname)

/-- The loop of `handle_upload_files`. Every round reads from the stream, whose length
bounds the rounds. -/
def receiveFiles : ℕ → UInt32 → Call Unit
  | 0, _ => pure ()
  | fuel + 1, fileCount => do
    match ← receiveHeader with
    | none => pure ()
    | some fname =>
      let fileCount ← receiveFile delegate hostDir fname fileCount
      receiveFiles fuel fileCount

/-- `sent` tells whether the status response at the end can be sent. -/
def handleUploadFiles (sent : Bool) : Call Unit := do
  let host ← Prog.get
  receiveFiles delegate hostDir (host.stream.length + 1) 0
  if sent then pure () else Prog.fail .sendStatus

def createDirectoryFromMessage (dlValue : PlistValue) : Call ℤ :=
  match dlValue with
  | .array (_ :: .string dir :: _) => do
    let made ← ask delegate (.createDirAll (hostPath hostDir dir))
    pure (if made then 0 else -1)
  | _ => pure (-1)

def moveEntries : List (String × PlistValue) → Call ℤ
  | [] => pure 0
  | (source, .string target) :: rest => do
    let old := hostPath hostDir source
    let new := hostPath hostDir target
    createParent delegate new
    let renamed ← ask delegate (.rename old new)
    if !renamed then pure (-1) else moveEntries rest
  | _ :: rest => moveEntries rest

def moveFilesFromMessage (dlValue : PlistValue) : Call ℤ :=
  match dlValue with
  | .array (_ :: .dictionary entries :: _) => moveEntries delegate hostDir entries
  | _ => pure (-1)

def removeItems : List PlistValue → Call ℤ
  | [] => pure 0
  | .string item :: rest => do
    let path := hostPath hostDir item
    let found ← ask delegate (.exists path)
    if found then
      let removed ← ask delegate (.remove path)
      if !removed then pure (-1) else removeItems rest
    else removeItems rest
  | _ :: rest => removeItems rest

def removeFilesFromMessage (dlValue : PlistValue) : Call ℤ :=
  match dlValue with
  | .array (_ :: .array items :: _) => removeItems delegate hostDir items
  | _ => pure (-1)

def copyItemFromMessage (dlValue : PlistValue) : Call ℤ :=
  match dlValue with
  | .array (_ :: .string src :: .string dst :: _) => do
    let target := hostPath hostDir dst
    createParent delegate target
    let copied ← ask delegate (.copy (hostPath hostDir src) target)
    pure (if copied then 0 else -1)
  | _ => pure (-1)

/-- A message that makes the host write, and for an upload the bytes that follow it. -/
inductive Message where
  | uploadFiles (raw : Bytes)
  | createDirectory (dlValue : PlistValue)
  | moveFiles (dlValue : PlistValue)
  | removeFiles (dlValue : PlistValue)
  | copyItem (dlValue : PlistValue)

def Message.handle (sent : Bool) : Message → Call Unit
  | uploadFiles raw => do
    Prog.modify fun host => { host with stream := raw }
    handleUploadFiles delegate hostDir sent
  | createDirectory dlValue => respond (createDirectoryFromMessage delegate hostDir dlValue)
  | moveFiles dlValue => respond (moveFilesFromMessage delegate hostDir dlValue)
  | removeFiles dlValue => respond (removeFilesFromMessage delegate hostDir dlValue)
  | copyItem dlValue => respond (copyItemFromMessage delegate hostDir dlValue)
where
  respond (status : Call ℤ) : Call Unit := do
    let _ ← status
    if sent then pure () else Prog.fail .sendStatus

/-- `process_dl_loop` on the messages that change the directory, each with whether its
response can be sent. The first failure ends the loop. -/
def processDlLoop (messages : List (Message × Bool)) : Call Unit :=
  Prog.each (fun message => message.1.handle delegate hostDir message.2) messages

end Handlers

end XitForge.MobileBackup
