import Mathlib.Algebra.Ring.Int.Defs
import XitForge.Program
import XitForge.RustText
import XitForge.Xpc.Channel

/-!
`run_restore`. The device drives a restore by messages on the control connection. They
are taken off by the main loop, by the pump that runs beside the transfer of the
filesystem, and by a boot object that waits for the address of a key.
-/
namespace XitForge.Restore

open Program
open RustText (isWhitespace)
open Xpc (PlistValue)

section Plists

abbrev Dictionary := List (String × PlistValue)

def Dictionary.get (message : Dictionary) (key : String) : Option PlistValue :=
  (message.find? fun entry => entry.1 == key).map Prod.snd

def asString : PlistValue → Option String
  | .string value => some value
  | _ => none

def asBoolean : PlistValue → Option Bool
  | .boolean value => some value
  | _ => none

def asDictionary : PlistValue → Option Dictionary
  | .dictionary entries => some entries
  | _ => none

/-- An `i64`. -/
def asSignedInteger : PlistValue → Option ℤ
  | .integer value => if -2 ^ 63 ≤ value ∧ value < 2 ^ 63 then some value else none
  | _ => none

/-- A `u64`. -/
def asUnsignedInteger : PlistValue → Option ℕ
  | .integer value => if 0 ≤ value ∧ value < 2 ^ 64 then some value.toNat else none
  | _ => none

/-- `MsgType`, or the empty text. -/
def msgType (message : Dictionary) : String := ((message.get "MsgType").bind asString).getD ""

end Plists

inductive RestoreError where
  | transport
  | unexpectedResponse
  | cancelled
  | restoredCrashed
  | basebandRejected (detail : String)
  | deviceReported (amrError : ℤ) (detail : String)
  | noFilesystemImage
  | missingField (name : String)
  | unsupported (what : String)
  /-- Of the image, the component source or another handler. -/
  | other
  deriving DecidableEq, Repr

/-- Who takes a message off the control connection. -/
inductive Place where
  | main
  | transfer
  | bootObject
  deriving DecidableEq, Repr

/-- What is handed to the control connection. -/
inductive Outgoing where
  | startRestore
  | reboot
  | goodbye
  | receivedFinalStatus
  | restoreShouldAttest (value : Bool)
  /-- Of a data request. -/
  | reply
  deriving DecidableEq, Repr

inductive Event where
  | received (place : Place) (message : Dictionary)
  | sending (message : Outgoing)
  | sent (message : Outgoing)

/-- How an await ends. -/
inductive Answer where
  | message (message : Dictionary)
  | data (bytes : List UInt8)
  | done
  | failed (error : RestoreError)
  /-- The transfer beside the pump has ended, and the pump is dropped. -/
  | dropped

structure World where
  /-- The run ends where it waits for more of them. -/
  answers : List Answer
  /-- How often the handle for cancellation is still asked in vain. -/
  untilCancel : Option ℕ
  filesystem : Bool
  log : List Event

abbrev RestoreM := Prog World RestoreError

namespace World

def note (event : Event) (w : World) : World := { w with log := w.log ++ [event] }

def new (answers : List Answer) (untilCancel : Option ℕ) (filesystem : Bool) : World where
  answers := answers
  untilCancel := untilCancel
  filesystem := filesystem
  log := []

end World

def await : RestoreM Answer := fun w =>
  match w.answers with
  | [] => (.stopped, w)
  | .failed error :: rest => (.failed error, { w with answers := rest })
  | .dropped :: rest => (.stopped, { w with answers := rest })
  | answer :: rest => (.done answer, { w with answers := rest })

/-- An await of the control connection, which fails with an error of its own. -/
def socket : RestoreM Answer := do
  match ← Prog.attempt await with
  | .ok answer => return answer
  | .error _ => Prog.fail .transport

/-- `RestoredClient::send`. -/
def send (message : Outgoing) : RestoreM Unit := do
  Prog.modify (World.note (.sending message))
  let _ ← socket
  Prog.modify (World.note (.sent message))

/-- `RestoredClient::recv`, of a message that is a dictionary. -/
def recv (place : Place) : RestoreM Dictionary := do
  match ← socket with
  | .message message =>
    Prog.modify (World.note (.received place message))
    return message
  | _ => Prog.fail .unexpectedResponse

/-- `check_cancel`. A handle that was cancelled stays so. -/
def checkCancel : RestoreM Unit := fun w =>
  match w.untilCancel with
  | none => (.done (), w)
  | some 0 => (.failed .cancelled, w)
  | some (count + 1) => (.done (), { w with untilCancel := some count })

section Handlers

/-- Handlers whose only trace on the control connection are replies. -/
def handler : ℕ → RestoreM Unit
  | 0 => Prog.stop
  | rounds + 1 => do
    match ← await with
    | .data _ =>
      send .reply
      handler rounds
    | _ => return ()

/-- `BootSink`: a data port or the control connection. -/
inductive BootSink where
  | port
  | restored
  deriving DecidableEq, Repr

def BootSink.send : BootSink → RestoreM Unit
  | .port => do
    let _ ← await
  | .restored => Restore.send .reply

def BootSink.recv : BootSink → RestoreM Dictionary
  | .port => do
    match ← await with
    | .message message => return message
    | _ => Prog.fail .unexpectedResponse
  | .restored => Restore.recv .bootObject

/-- `AEA1`. -/
def aeaMagic : List UInt8 := [0x41, 0x45, 0x41, 0x31]

/-- `stream_boot_object`. Behind the first chunk of an AEA image it waits three seconds
for a message, and one that asks for no address is not looked at. -/
def streamBootObject (sink : BootSink) : ℕ → Bool → RestoreM Unit
  | 0, _ => Prog.stop
  | rounds + 1, first => do
    checkCancel
    match ← await with
    | .data (byte :: bytes) =>
      sink.send
      if first ∧ aeaMagic.isPrefixOf (byte :: bytes) then
        match ← Prog.attempt sink.recv with
        | .ok message =>
          if msgType message = "URLAsset" then
            let _ ← await
            sink.send
        | .error _ => pure ()
      streamBootObject sink rounds false
    | _ => sink.send

/-- `send_boot_object`. -/
def sendBootObject (rounds : ℕ) (message : Dictionary) (handleAea : Bool) : RestoreM Unit :=
  match (((message.get "Arguments").bind asDictionary).bind (·.get "ImageName")).bind asString with
  | none => Prog.fail (.missingField "ImageName")
  | some imageName =>
    if imageName = "__GlobalManifest__" then Prog.fail (.unsupported "__GlobalManifest__ (macOS)")
    else if handleAea ∧ imageName ≠ "__RestoreVersion__" ∧ imageName ≠ "__SystemVersion__" then do
      let _ ← await
      match (message.get "DataPort").bind asUnsignedInteger with
      | some _ =>
        let _ ← await
        streamBootObject .port rounds true
      | none => streamBootObject .restored rounds true
    else handler rounds

/-- `take` of the filesystem, which the context of the pump is without. -/
def takeFilesystem : Place → RestoreM Bool
  | .main => fun w => (.done w.filesystem, { w with filesystem := false })
  | _ => return false

/-- `tokio::select!` of the transfer and the pump, which returns on an error only. -/
def selectTransfer (pump : RestoreM Unit) : RestoreM Unit := fun w =>
  match pump w with
  | (.done (), w') => (.done (), w')
  | (.failed error, w') => (.failed error, w')
  | (.stopped, w') => (do let _ ← await : RestoreM Unit) w'

/-- `send_filesystem`. -/
def sendFilesystem (place : Place) (pump : RestoreM Unit) : RestoreM Unit := do
  let _ ← await
  let _ ← await
  if ← takeFilesystem place then selectTransfer pump
  else Prog.fail .noFilesystemImage

/-- The requests whose handlers answer on the control connection or on a data port. -/
def answeredTypes : List String :=
  ["RootTicket", "BuildIdentityDict", "KernelCache", "DeviceTree", "SystemImageRootHash",
    "SystemImageCanonicalMetadata", "NORData", "FirmwareUpdaterData", "BasebandData",
    "FDRTrustData", "FUDData", "PersonalizedData", "EANData", "ReceiptManifest", "URLAsset",
    "StreamedImageDecryptionKey"]

/-- `dispatch`. -/
def dispatch (rounds : ℕ) (place : Place) (pump : RestoreM Unit) (message : Dictionary) :
    RestoreM Unit :=
  match (message.get "DataType").bind asString with
  | none => return ()
  | some dataType =>
    if dataType = "SystemImageData" ∨ dataType = "RecoveryOSASRImage" then sendFilesystem place pump
    else if dataType = "PersonalizedBootObjectV3" then sendBootObject rounds message false
    else if dataType = "SourceBootObjectV4" ∨ dataType = "SourceBootObjectV5" then
      sendBootObject rounds message true
    else if dataType ∈ answeredTypes then handler rounds
    else return ()

end Handlers

section Descriptions

def trim (text : String) : String :=
  String.ofList ((text.toList.dropWhile isWhitespace).reverse.dropWhile isWhitespace).reverse

/-- The text of an `NSDescription`, in its `Content` or bare. -/
def description (key : String) (value : PlistValue) : List String :=
  if key = "NSDescription" then
    let content := ((asDictionary value).bind (·.get "Content")).bind asString
    ((content.or (asString value)).map trim).toList
  else []

mutual

/-- `walk`. -/
def walk : PlistValue → List String
  | .dictionary entries => walkEntries entries
  | .array items => walkItems items
  | _ => []
termination_by structural value => value

def walkItems : List PlistValue → List String
  | [] => []
  | item :: rest => walk item ++ walkItems rest
termination_by structural items => items

def walkEntries : List (String × PlistValue) → List String
  | [] => []
  | entry :: rest => walkEntry entry ++ walkEntries rest
termination_by structural entries => entries

def walkEntry : String × PlistValue → List String
  | (key, value) => description key value ++ walk value
termination_by structural entry => entry

end

/-- `collect_error_descriptions`. -/
def collectErrorDescriptions (value : PlistValue) : Option String :=
  match walk value with
  | [] => none
  | texts => some (" -> ".intercalate texts)

end Descriptions

section Driving

/-- `handle_bb_update_status`. -/
def handleBbUpdateStatus (message : Dictionary) : RestoreM Unit :=
  if ((message.get "Accepted").bind asBoolean).getD false then return ()
  else
    let detail := ((message.get "Error").bind asDictionary).bind fun error =>
      ((error.get "NSLocalizedDescription").or (error.get "NSDescription")).bind asString
    Prog.fail (.basebandRejected (detail.getD "device did not accept BasebandData"))

/-- `handle_status`: whether the restore is over. -/
def handleStatus (message : Dictionary) : RestoreM Bool :=
  let status := (message.get "Status").bind asSignedInteger
  let amrError := (message.get "AMRError").bind asSignedInteger
  if status = some 0 ∧ amrError.getD 0 = 0 then do
    send .receivedFinalStatus
    return true
  else if (message.get "Error").isSome ∨ amrError.getD 0 ≠ 0 then
    Prog.fail (.deviceReported (amrError.getD (-1))
      (((message.get "Error").bind collectErrorDescriptions).getD "no description"))
  else return false

def isDataRequest (type : String) : Prop := type = "DataRequestMsg" ∨ type = "AsyncDataRequestMsg"

instance (type : String) : Decidable (isDataRequest type) := by
  unfold isDataRequest
  infer_instance

/-- `run_transfer_pump`, without the filesystem. -/
def runTransferPump : ℕ → RestoreM Unit
  | 0 => Prog.stop
  | rounds + 1 => do
    checkCancel
    let message ← recv .transfer
    if isDataRequest (msgType message) then
      dispatch rounds .transfer (runTransferPump rounds) message
    runTransferPump rounds

/-- `drive_restore`. The other types of messages are logged. -/
def driveRestore : ℕ → RestoreM Unit
  | 0 => Prog.stop
  | rounds + 1 => do
    checkCancel
    let message ← recv .main
    if isDataRequest (msgType message) then
      dispatch rounds .main (runTransferPump rounds) message
      driveRestore rounds
    else if msgType message = "StatusMsg" then
      if ← handleStatus message then return ()
      else driveRestore rounds
    else if msgType message = "BBUpdateStatusMsg" then
      handleBbUpdateStatus message
      driveRestore rounds
    else if msgType message = "RestoredCrash" then Prog.fail .restoredCrashed
    else if msgType message = "RestoreAttestation" then
      send (.restoreShouldAttest false)
      driveRestore rounds
    else driveRestore rounds

/-- `reboot` and `goodbye`, whose answer is read and not looked at. -/
def request (message : Outgoing) : RestoreM Unit := do
  send message
  let _ ← socket

/-- `run_restore`. -/
def runRestore (rounds : ℕ) : RestoreM Unit := do
  send .startRestore
  let result ← Prog.attempt (driveRestore rounds)
  if result = .error .cancelled then
    let _ ← Prog.attempt (request .reboot)
  let _ ← Prog.attempt (request .goodbye)
  match result with
  | .ok _ => return ()
  | .error error => Prog.fail error

end Driving

end XitForge.Restore
