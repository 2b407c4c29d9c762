import Mathlib.Algebra.Ring.Int.Defs
import XitForge.Program
import XitForge.Xpc.Channel

/-!
The file service client. Requests and replies share one control connection, and
a flag tells whether it may still be used. A wire step succeeds, fails, stalls
until a timeout, or is the place where the caller drops the operation.
-/
namespace XitForge.CoreDevice.FileService

open Program
open Xpc (XPCObject PlistValue)

inductive Domain where
  | appDataContainer
  | appGroupDataContainer
  | temporary
  | systemCrashLogs
  deriving DecidableEq, Repr

def Domain.asU64 : Domain → UInt64
  | appDataContainer => 1
  | appGroupDataContainer => 2
  | temporary => 3
  | systemCrashLogs => 5

inductive CoreDeviceError where
  | missingField (name : String)
  | malformedField (name : String)
  | deviceError (detail : String)
  deriving DecidableEq, Repr

inductive IdeviceError where
  | coreDevice (error : CoreDeviceError)
  | noEstablishedConnection
  | unexpectedResponse (text : String)
  | internalError (text : String)
  | timeout
  /-- An error of a stream or of the XPC layer. -/
  | transport
  deriving DecidableEq, Repr

/-- An error that a complete reply of the device reports. -/
def IdeviceError.IsDeviceError : IdeviceError → Prop
  | coreDevice (.deviceError _) => True
  | _ => False

/-- How a wire step ends. -/
inductive Await (α : Type) where
  | ready (value : α)
  | failed (error : IdeviceError)
  | stalled
  /-- The caller drops the operation here. -/
  | dropped

/-- What the world does at one wire step, whichever step the client is at. -/
structure Moment where
  sent : Await Unit
  received : Await PlistValue
  connected : Await Unit
  written : Await Unit
  read : (length : ℕ) → Await (Vector UInt8 length)
  /-- `try_reserve_exact` succeeds. -/
  reserves : Bool
  /-- `Uuid::new_v4()`. -/
  uuid : String

/-- A use of the control connection. -/
inductive WireUse where
  | send (request : XPCObject)
  | receive

structure FileServiceClient where
  session : Option String
  usable : Bool
  /-- The number of wire steps so far. -/
  steps : ℕ
  /-- The uses of the control connection that were begun. -/
  wire : List WireUse

def FileServiceClient.new : FileServiceClient := ⟨none, true, 0, []⟩

/-- Why an operation does not go on. -/
inductive Interrupt where
  | error (error : IdeviceError)
  | stalled

abbrev Call (α : Type) := Prog FileServiceClient Interrupt α

def fail {α : Type} (error : IdeviceError) : Call α := Prog.fail (.error error)

/-- A wire step that ends as `choose` finds in the moment. -/
def await {α : Type} (pattern : ℕ → Moment) (choose : Moment → Await α) : Call α := fun s =>
  let after := { s with steps := s.steps + 1 }
  match choose (pattern s.steps) with
  | .ready value => (.done value, after)
  | .failed error => (.failed (.error error), after)
  | .stalled => (.failed .stalled, after)
  | .dropped => (.stopped, after)

def touch (use : WireUse) : Call Unit := Prog.modify fun s => { s with wire := s.wire ++ [use] }

def asDictionary : PlistValue → Option (List (String × PlistValue))
  | .dictionary entries => some entries
  | _ => none

def asString : PlistValue → Option String
  | .string text => some text
  | _ => none

def asArray : PlistValue → Option (List PlistValue)
  | .array items => some items
  | _ => none

/-- `plist_u64`. -/
def plistU64 : PlistValue → Option UInt64
  | .integer value =>
    if 0 ≤ value ∧ value < 2 ^ 64 then some (UInt64.ofNat value.toNat)
    else if -2 ^ 63 ≤ value ∧ value < 2 ^ 63 then some (Int64.ofInt value).toUInt64
    else none
  | _ => none

/-- `ok_or`. -/
def orFail {α : Type} (error : IdeviceError) : Option α → Call α
  | some value => pure value
  | none => fail error

section Operations

variable (pattern : ℕ → Moment)

def invalidateConnection : Call Unit :=
  Prog.modify fun s => { s with usable := false, session := none }

/-- `finish_operation`; the operation ran under a timeout, which a stalled step ends. -/
def finishOperation {α : Type} : Except Interrupt α → Call α
  | .error .stalled => do
    invalidateConnection
    fail .timeout
  | .error (.error (.coreDevice (.deviceError detail))) => fail (.coreDevice (.deviceError detail))
  | .error (.error error) => do
    invalidateConnection
    fail error
  | .ok value => pure value

/-- `FileServiceClient::session`. -/
def session : Call String := do
  let s ← Prog.get
  if !s.usable then fail .noEstablishedConnection
  else orFail (.unexpectedResponse "no file service session; call create_session") s.session

/-- The text of an error reply; the debug output of a value is a parameter of the model. -/
def errorDetail (debug : Option PlistValue → String) (entries : List (String × PlistValue)) :
    String :=
  ((entries.lookup "LocalizedDescription").bind asString).getD
    (debug (entries.lookup "EncodedError"))

variable (debug : Option PlistValue → String)

def sendReceive (request : XPCObject) : Call PlistValue := do
  let s ← Prog.get
  if !s.usable then fail .noEstablishedConnection
  else
    touch (.send request)
    await pattern Moment.sent
    touch .receive
    let res ← await pattern Moment.received
    match asDictionary res with
    | some entries =>
      if (entries.lookup "EncodedError").isSome then
        fail (.coreDevice (.deviceError (errorDetail debug entries)))
      else pure res
    | none => pure res

def createSessionInner (domain : Domain) (identifier : String) : Call String := do
  let res ← sendReceive pattern debug (.dictionary
    [("Cmd", .string "CreateSession"), ("Domain", .uint64 domain.asU64),
      ("Identifier", .string identifier), ("Session", .string ""), ("User", .string "mobile")])
  let session ← orFail (.coreDevice (.missingField "NewSessionID"))
    (((asDictionary res).bind fun entries => entries.lookup "NewSessionID").bind asString)
  Prog.modify fun s => { s with session := some session }
  pure session

def createSession (domain : Domain) (identifier : String) : Call String := do
  let result ← Prog.attempt (createSessionInner pattern debug domain identifier)
  finishOperation result

def retrieveDirectoryListInner (path : String) : Call (List String) := do
  let sessionId ← session
  let s ← Prog.get
  let res ← sendReceive pattern debug (.dictionary
    [("Cmd", .string "RetrieveDirectoryList"), ("MessageUUID", .string (pattern s.steps).uuid),
      ("Path", .string path), ("SessionID", .string sessionId)])
  let list ← orFail (.coreDevice (.missingField "FileList"))
    (((asDictionary res).bind fun entries => entries.lookup "FileList").bind asArray)
  pure (list.filterMap asString)

def retrieveDirectoryList (path : String) : Call (List String) := do
  let _ ← session
  let result ← Prog.attempt (retrieveDirectoryListInner pattern debug path)
  finishOperation result

/-- `FILE_SERVICE_MAX_READ_SIZE`. -/
def maxReadSize : ℕ := 128 * 1024 * 1024

/-- `u32::from_be_bytes`. -/
def beLength (bytes : Vector UInt8 4) : ℕ :=
  bytes.toList.foldl (fun acc byte => acc * 256 + byte.toNat) 0

def retrieveFileInner (path : String) : Call (List UInt8) := do
  let sessionId ← session
  let res ← sendReceive pattern debug (.dictionary
    [("Cmd", .string "RetrieveFile"), ("Path", .string path), ("SessionID", .string sessionId)])
  let entries ← orFail (.coreDevice (.malformedField "(root)")) (asDictionary res)
  let _response ← orFail (.coreDevice (.missingField "Response"))
    ((entries.lookup "Response").bind plistU64)
  let _fileId ← orFail (.coreDevice (.missingField "NewFileID"))
    ((entries.lookup "NewFileID").bind plistU64)
  await pattern Moment.connected
  -- the request on the data stream, and its flush
  await pattern Moment.written
  await pattern Moment.written
  let _preamble ← await pattern fun moment => moment.read 0x24
  let len ← await pattern fun moment => moment.read 4
  let length := beLength len
  if length > maxReadSize then
    fail (.unexpectedResponse "FileService payload exceeds the 128 MiB read limit")
  else
    let s ← Prog.get
    if !(pattern s.steps).reserves then fail (.internalError "FileService payload allocation failed")
    else
      let payload ← await pattern fun moment => moment.read length
      pure payload.toList

def retrieveFile (path : String) : Call (List UInt8) := do
  let _ ← session
  let result ← Prog.attempt (retrieveFileInner pattern debug path)
  let result ← Prog.attempt (finishOperation result)
  match result with
  | .ok payload => pure payload
  | .error interrupt => do
    invalidateConnection
    Prog.fail interrupt

/-- There is no timeout here: a step that stalls leaves the operation without an end. -/
def proposeEmptyFile (path : String) (filePermissions uid gid : UInt32)
    (creationTime lastModificationTime : Int64) : Call Unit := do
  let sessionId ← session
  let _ ← sendReceive pattern debug (.dictionary
    [("Cmd", .string "ProposeEmptyFile"), ("FileCreationTime", .int64 creationTime),
      ("FileLastModificationTime", .int64 lastModificationTime),
      ("FilePermissions", .int64 (Int64.ofNat filePermissions.toNat)),
      ("FileOwnerUserID", .int64 (Int64.ofNat uid.toNat)),
      ("FileOwnerGroupID", .int64 (Int64.ofNat gid.toNat)),
      ("Path", .string path), ("SessionID", .string sessionId)])
  pure ()

end Operations

/-- The operations that make a request. -/
inductive Operation where
  | createSession (domain : Domain) (identifier : String)
  | retrieveDirectoryList (path : String)
  | retrieveFile (path : String)
  | proposeEmptyFile (path : String) (filePermissions uid gid : UInt32)
      (creationTime lastModificationTime : Int64)

/-- What a caller can do with a client. -/
inductive Action where
  | request (operation : Operation)
  | invalidateConnection

section Runs

variable (pattern : ℕ → Moment) (debug : Option PlistValue → String)

/-- An operation, without the value it returns. -/
def Operation.perform : Operation → Call Unit
  | createSession domain identifier => do
    let _ ← FileService.createSession pattern debug domain identifier
    pure ()
  | retrieveDirectoryList path => do
    let _ ← FileService.retrieveDirectoryList pattern debug path
    pure ()
  | retrieveFile path => do
    let _ ← FileService.retrieveFile pattern debug path
    pure ()
  | proposeEmptyFile path filePermissions uid gid creationTime lastModificationTime =>
    FileService.proposeEmptyFile pattern debug path filePermissions uid gid creationTime
      lastModificationTime

def Action.perform : Action → Call Unit
  | request operation => operation.perform pattern debug
  | invalidateConnection => FileService.invalidateConnection

/-- Actions one after the other, however each of them ends. -/
def run (actions : List Action) (s : FileServiceClient) : FileServiceClient :=
  actions.foldl (fun s action => (action.perform pattern debug s).2) s

end Runs

section Closed

variable (pattern : ℕ → Moment) (debug : Option PlistValue → String) {s : FileServiceClient}

theorem session_unusable (h : s.usable = false) :
    session s = (.failed (.error .noEstablishedConnection), s) := by
  unfold session
  rw [Prog.bind_done (rfl : Prog.get s = (.done s, s)), if_pos (by simp [h])]
  rfl

theorem sendReceive_unusable (h : s.usable = false) (request : XPCObject) :
    sendReceive pattern debug request s = (.failed (.error .noEstablishedConnection), s) := by
  unfold sendReceive
  rw [Prog.bind_done (rfl : Prog.get s = (.done s, s)), if_pos (by simp [h])]
  rfl

/-- On a connection that is not used any more every request fails without the wire. -/
theorem request_unusable (operation : Operation) (h : s.usable = false) :
    ∃ error s', operation.perform pattern debug s = (.failed (.error error), s') ∧
      s'.usable = false ∧ s'.wire = s.wire := by
  cases operation with
  | createSession domain identifier =>
    have hinner : createSessionInner pattern debug domain identifier s =
        (.failed (.error .noEstablishedConnection), s) :=
      Prog.bind_failed (sendReceive_unusable pattern debug h _)
    have hattempt : Prog.attempt (createSessionInner pattern debug domain identifier) s =
        (.done (.error (.error .noEstablishedConnection)), s) := by
      unfold Prog.attempt
      rw [hinner]
    have hcall : createSession pattern debug domain identifier s =
        (.failed (.error .noEstablishedConnection), { s with usable := false, session := none }) := by
      unfold createSession
      rw [Prog.bind_done hattempt]
      rfl
    exact ⟨_, _, Prog.bind_failed hcall, rfl, rfl⟩
  | retrieveDirectoryList path =>
    exact ⟨_, s, Prog.bind_failed (Prog.bind_failed (session_unusable h)), h, rfl⟩
  | retrieveFile path =>
    exact ⟨_, s, Prog.bind_failed (Prog.bind_failed (session_unusable h)), h, rfl⟩
  | proposeEmptyFile path filePermissions uid gid creationTime lastModificationTime =>
    exact ⟨_, s, Prog.bind_failed (session_unusable h), h, rfl⟩

theorem action_unusable (action : Action) (h : s.usable = false) :
    (action.perform pattern debug s).2.usable = false ∧
      (action.perform pattern debug s).2.wire = s.wire := by
  cases action with
  | request operation =>
    obtain ⟨error, s', heq, husable, hwire⟩ :=
      request_unusable pattern debug operation h
    show (operation.perform pattern debug s).2.usable = false ∧ _
    rw [heq]
    exact ⟨husable, by rw [← hwire]; exact congrArg (fun r => r.2.wire) heq⟩
  | invalidateConnection => exact ⟨rfl, rfl⟩

theorem run_unusable (actions : List Action) (h : s.usable = false) :
    (run pattern debug actions s).usable = false ∧ (run pattern debug actions s).wire = s.wire := by
  induction actions generalizing s with
  | nil => exact ⟨h, rfl⟩
  | cons action rest ih =>
    have hstep := action_unusable pattern debug action h
    have hrest := ih hstep.1
    exact ⟨hrest.1, hrest.2.trans hstep.2⟩

end Closed

section Failing

variable {pattern : ℕ → Moment} {debug : Option PlistValue → String} {s s' : FileServiceClient}
  {error : IdeviceError}

/-- An operation that fails after its steps closes the connection, unless the device
replied with an error. -/
theorem finishOperation_failed {α : Type} {result : Except Interrupt α}
    (h : finishOperation result s = (.failed (.error error), s')) (hreply : ¬ error.IsDeviceError) :
    s'.usable = false := by
  match result with
  | .error .stalled =>
    cases h
    rfl
  | .error (.error (.coreDevice (.deviceError detail))) =>
    cases h
    exact absurd trivial hreply
  | .error (.error (.coreDevice (.missingField name))) =>
    cases h
    rfl
  | .error (.error (.coreDevice (.malformedField name))) =>
    cases h
    rfl
  | .error (.error .noEstablishedConnection) =>
    cases h
    rfl
  | .error (.error (.unexpectedResponse text)) =>
    cases h
    rfl
  | .error (.error (.internalError text)) =>
    cases h
    rfl
  | .error (.error .timeout) =>
    cases h
    rfl
  | .error (.error .transport) =>
    cases h
    rfl
  | .ok value => cases h

theorem attempt_ne_failed {α : Type} {m : Call α} {interrupt : Interrupt} :
    Prog.attempt m s ≠ (.failed interrupt, s') := by
  intro h
  unfold Prog.attempt at h
  rcases heq : m s with ⟨outcome, after⟩
  rw [heq] at h
  cases outcome <;> cases h

/-- An operation is refused where no session was opened. -/
def Operation.Refused (s : FileServiceClient) : Operation → Prop
  | createSession .. => False
  | _ => s.usable = true ∧ s.session = none

theorem session_failed (h : session s = (.failed (.error error), s'))
    (hrefused : ¬ (s.usable = true ∧ s.session = none)) : s'.usable = false := by
  by_cases husable : s.usable = true
  · rcases hsession : s.session with _ | id
    · exact absurd ⟨husable, hsession⟩ hrefused
    · unfold session at h
      rw [Prog.bind_done (rfl : Prog.get s = (.done s, s)), if_neg (by simp [husable]), hsession] at h
      cases h
  · have hfalse : s.usable = false := by simpa using husable
    rw [session_unusable hfalse] at h
    cases h
    exact hfalse

/-- What a failed operation with a timeout leaves behind. -/
theorem timed_failed {α : Type} {m : Call α}
    (h : (Prog.attempt m >>= finishOperation) s = (.failed (.error error), s'))
    (hreply : ¬ error.IsDeviceError) : s'.usable = false := by
  rcases Prog.bind_eq_failed h with hattempt | ⟨result, middle, -, hfinish⟩
  · exact absurd hattempt attempt_ne_failed
  · exact finishOperation_failed hfinish hreply

theorem perform_failed {operation : Operation}
    (hfails : operation.perform pattern debug s = (.failed (.error error), s'))
    (hreply : ¬ error.IsDeviceError) (hrefused : ¬ operation.Refused s)
    (hpropose : ∀ path filePermissions uid gid creationTime lastModificationTime,
      operation ≠ .proposeEmptyFile path filePermissions uid gid creationTime
        lastModificationTime) : s'.usable = false := by
  cases operation with
  | createSession domain identifier =>
    rcases Prog.bind_eq_failed hfails with hcall | ⟨_, _, -, hnext⟩
    · exact timed_failed hcall hreply
    · cases hnext
  | retrieveDirectoryList path =>
    rcases Prog.bind_eq_failed hfails with hcall | ⟨_, _, -, hnext⟩
    · rcases Prog.bind_eq_failed hcall with hsession | ⟨id, middle, -, hrest⟩
      · exact session_failed hsession hrefused
      · exact timed_failed hrest hreply
    · cases hnext
  | retrieveFile path =>
    rcases Prog.bind_eq_failed hfails with hcall | ⟨_, _, -, hnext⟩
    · rcases Prog.bind_eq_failed hcall with hsession | ⟨id, middle, -, hrest⟩
      · exact session_failed hsession hrefused
      · -- whatever the failure, the connection is closed at the end
        rcases Prog.bind_eq_failed hrest with hattempt | ⟨result, after, -, hrest⟩
        · exact absurd hattempt attempt_ne_failed
        · rcases Prog.bind_eq_failed hrest with hattempt | ⟨finished, last, -, hend⟩
          · exact absurd hattempt attempt_ne_failed
          · cases finished with
            | ok payload => cases hend
            | error interrupt =>
              cases hend
              rfl
    · cases hnext
  | proposeEmptyFile path filePermissions uid gid creationTime lastModificationTime =>
    exact absurd rfl (hpropose _ _ _ _ _ _)

end Failing

/-- Once an operation other than `propose_empty_file` has failed on the connection, and not
with an error that the device replied, every later request fails and leaves the connection
alone. -/
theorem failed_operation_closes (pattern : ℕ → Moment) (debug : Option PlistValue → String)
    (before : List Action) (operation : Operation) (error : IdeviceError) (s : FileServiceClient)
    (hfails : operation.perform pattern debug (run pattern debug before .new) =
      (.failed (.error error), s))
    (hreply : ¬ error.IsDeviceError)
    (hrefused : ¬ operation.Refused (run pattern debug before .new))
    (hpropose : ∀ path filePermissions uid gid creationTime lastModificationTime,
      operation ≠ .proposeEmptyFile path filePermissions uid gid creationTime
        lastModificationTime)
    (later : List Action) (next : Operation) :
    ∃ error' s', next.perform pattern debug (run pattern debug later s) =
      (.failed (.error error'), s') ∧ s'.wire = s.wire := by
  have husable := perform_failed hfails hreply hrefused hpropose
  have hlater := run_unusable pattern debug later husable
  obtain ⟨error', s', heq, -, hwire⟩ :=
    request_unusable pattern debug next hlater.1
  exact ⟨error', s', heq, hwire.trans hlater.2⟩

/-- A world in which the device opens every session it is asked for. -/
def opens (id : String) (_ : ℕ) : Moment where
  sent := .ready ()
  received := .ready (.dictionary [("NewSessionID", .string id)])
  connected := .failed .transport
  written := .failed .transport
  read := fun _ => .failed .transport
  reserves := true
  uuid := ""

/-- A world in which every wire step stalls. -/
def stalls (_ : ℕ) : Moment where
  sent := .stalled
  received := .stalled
  connected := .stalled
  written := .stalled
  read := fun _ => .stalled
  reserves := true
  uuid := ""

theorem failed_operation_closes_stalled :
    ∃ error' s', (Operation.retrieveDirectoryList ".").perform stalls (fun _ => "")
      (run stalls (fun _ => "") [.invalidateConnection]
        ⟨none, false, 1, [.send (.dictionary
          [("Cmd", .string "CreateSession"), ("Domain", .uint64 3), ("Identifier", .string ""),
            ("Session", .string ""), ("User", .string "mobile")])]⟩) =
      (.failed (.error error'), s') ∧
      s'.wire = [.send (.dictionary
          [("Cmd", .string "CreateSession"), ("Domain", .uint64 3), ("Identifier", .string ""),
            ("Session", .string ""), ("User", .string "mobile")])] :=
  failed_operation_closes stalls (fun _ => "") [] (.createSession .temporary "") .timeout _ rfl
    (fun h => h) (fun h => h) (by exact nofun) [.invalidateConnection] _

/-- An operation that is refused for want of a session leaves the connection to the
caller, who can open one. -/
theorem refused_operation_opens_session :
    ¬ ∀ (pattern : ℕ → Moment) (debug : Option PlistValue → String) (before : List Action)
      (operation : Operation) (error : IdeviceError) (s : FileServiceClient),
      operation.perform pattern debug (run pattern debug before .new) =
        (.failed (.error error), s) → ¬ error.IsDeviceError →
      ∀ (later : List Action) (next : Operation),
        ∃ error' s', next.perform pattern debug (run pattern debug later s) =
          (.failed (.error error'), s') ∧ s'.wire = s.wire := by
  intro h
  obtain ⟨error', s', heq, -⟩ := h (opens "id") (fun _ => "") [] (.retrieveDirectoryList ".")
    (.unexpectedResponse "no file service session; call create_session") .new rfl (fun h => h) []
    (.createSession .temporary "")
  cases heq

end XitForge.CoreDevice.FileService
