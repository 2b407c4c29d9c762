import XitForge.MobileBackup.Disk
import XitForge.MobileBackup.Download

/-!
The loop of a backup or a restore on the file system of the host. The device sends one message
after the other, and the host answers each of them or fails; a last one ends the session.
-/
namespace XitForge.MobileBackup

open ByteStream Program RustText RustEval
open Download (Read Storage handleDownloadFiles statusResponse)
open Xpc (PlistValue)
open Restore (Dictionary)

section Loop

/-- How a file is cut into reads. -/
structure Reading where
  cut : Bytes → List Read
  whole : ∀ contents, ((cut contents).map Read.bytes).flatten = contents

/-- `open_file_read` of the disk, and what is then read of a file. -/
def Disk.storage (reading : Reading) (disk : Disk) : Storage := fun _ path =>
  match disk.lookup path with
  | some (.file contents) => .file (reading.cut contents) none
  | some .directory => .file [] (some "Is a directory (os error 21)")
  | none =>
    if path.inits.any fun front => (disk.files front).isSome then .failed "internal error"
    else .notFound "not found"

/-- What the host tells of an object beside its kind and the length of a file. -/
structure Attributes where
  directorySize : ℕ
  modified : Option ℤ

def Attributes.size (attributes : Attributes) : HostNode → ℕ
  | .directory => attributes.directorySize
  | .file contents => contents.length

/-- The row of an object in the listing of its directory. -/
def Attributes.row (attributes : Attributes) (node : HostNode) : Dictionary :=
  [("DLFileType", .string (if node.isDirectory then "DLFileTypeDirectory" else "DLFileTypeRegular")),
    ("DLFileSize", .integer (attributes.size node))] ++
    (attributes.modified.map fun mtime => ("DLFileModificationDate", .date mtime)).toList

inductive LoopError where
  | backup (error : BackupError)
  | panic
  deriving DecidableEq, Repr

/-- What is sent to the device for a message. -/
inductive Reply where
  | status (response : PlistValue)
  /-- The bytes of a download, and the status behind them. -/
  | batch (bytes : Bytes) (response : PlistValue)

structure Session where
  disk : Disk
  replies : List Reply

abbrev Loop := Prog Session LoopError

/-- A message of the device, by its tag. -/
inductive DlMessage where
  | downloadFiles (dlValue : PlistValue)
  | change (message : Message)
  | getFreeDiskSpace
  | contentsOfDirectory (dlValue : PlistValue)
  | processMessage (dlValue : PlistValue)
  | disconnect
  | unsupported (tag : String)

def emptyParameter : PlistValue := .string "___EmptyParameterString___"

/-- The status of a message that changes the directory. -/
def Message.answer (delegate : Delegate) (hostDir : Path) : Message → Call PlistValue
  | .uploadFiles raw => do
    Prog.modify fun host => { host with stream := raw }
    handleUploadFiles delegate hostDir true
    return statusResponse 0 none (.dictionary [])
  | .createDirectory dlValue => do
    let status ← createDirectoryFromMessage delegate hostDir dlValue
    return statusResponse status none emptyParameter
  | .moveFiles dlValue => do
    let status ← moveFilesFromMessage delegate hostDir dlValue
    return statusResponse status none (.dictionary [])
  | .removeFiles dlValue => do
    let status ← removeFilesFromMessage delegate hostDir dlValue
    return statusResponse status none (.dictionary [])
  | .copyItem dlValue => do
    let status ← copyItemFromMessage delegate hostDir dlValue
    return statusResponse status none (.dictionary [])

/-- `list_dir`: the names in a directory, and nothing of what is none. -/
def Disk.listDir (attributes : Disk → Path → Attributes) (disk : Disk) (path : Path) :
    Option (List (String × PlistValue)) :=
  match disk.lookup path with
  | some .directory => some ((disk.names path).filterMap fun name =>
    match name, disk.lookup (path ++ [name]) with
    | .normal text, some node =>
      some (String.ofList text, .dictionary ((attributes disk (path ++ [name])).row node))
    | _, _ => none)
  | _ => none

def listDirectoryContents (attributes : Disk → Path → Attributes) (disk : Disk) (hostDir : Path)
    (dlValue : PlistValue) : PlistValue :=
  match dlValue with
  | .array (_ :: .string dir :: _) =>
    .dictionary ((disk.listDir attributes (hostPath hostDir dir)).getD [])
  | _ => .dictionary []

variable (checks : Bool) (reading : Reading) (freeSpace : Disk → ℕ)
  (attributes : Disk → Path → Attributes) (hostDir : Path)

def answerChange (message : Message) : Loop PlistValue := fun session =>
  match message.answer session.disk.delegate hostDir ⟨[], []⟩ with
  | (.done response, host) =>
    (.done response, { session with disk := session.disk.replay host.calls })
  | (.failed error, host) =>
    (.failed (.backup error), { session with disk := session.disk.replay host.calls })
  | (.stopped, host) => (.stopped, { session with disk := session.disk.replay host.calls })

def answerDownload (dlValue : PlistValue) : Loop (Bytes × PlistValue) := fun session =>
  match handleDownloadFiles checks (session.disk.storage reading) hostDir dlValue with
  | .ok result => (.done result, session)
  | .err error => (.failed (.backup error), session)
  | .panic => (.failed .panic, session)

/-- The reply goes out, or the connection is lost. -/
def send (sent : Bool) (reply : Reply) : Loop Unit :=
  if sent then Prog.modify fun session => { session with replies := session.replies ++ [reply] }
  else Prog.fail (.backup .sendStatus)

/-- A message of the loop; the last one of a session has a result. -/
def DlMessage.handle (sent : Bool) : DlMessage → Loop (Option (Option Dictionary))
  | .downloadFiles dlValue => do
    let result ← answerDownload checks reading hostDir dlValue
    send sent (.batch result.1 result.2)
    return none
  | .change message => do
    let response ← answerChange hostDir message
    send sent (.status response)
    return none
  | .getFreeDiskSpace => do
    let session ← Prog.get
    send sent (.status (statusResponse 0 none (.integer (freeSpace session.disk))))
    return none
  | .contentsOfDirectory dlValue => do
    let session ← Prog.get
    send sent (.status (statusResponse 0 none
      (listDirectoryContents attributes session.disk hostDir dlValue)))
    return none
  | .processMessage dlValue =>
    return some (match dlValue with
      | .array (_ :: .dictionary dict :: _) => some dict
      | _ => none)
  | .disconnect => return some none
  | .unsupported _ => do
    send sent (.status (statusResponse (-1) (some "Operation not supported") emptyParameter))
    return none

end Loop

end XitForge.MobileBackup
