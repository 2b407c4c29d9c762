import XitForge.Program
import XitForge.Directory.Journal

/-!
The world of the component: the device, the local directory, the object's own
fields, and an oracle that decides for every step whether it fails, whether the
process stops there, and what a failed or interrupted step left behind. The
default choice is a step that works. A metadata query never invents the answer
106/8, which only a missing object has.
-/
namespace XitForge.Directory

open Program Program.Prog

/-- An `NSError`: its code, and `NativeSubcode` when the service reported it. -/
structure Failure where
  code : ℤ
  native : Option ℤ := none
  deriving DecidableEq, Repr

/-- The commands of AirTraffic that the code compares names with. -/
inductive Command where
  | capabilities
  | syncAllowed
  | ping
  | pong
  | hostInfo
  | requestingSync
  | readyForSync
  | finishedSyncingMetadata
  | assetManifest
  | fileComplete
  | syncFailed
  | syncFinished
  | other (name : Text)
  deriving DecidableEq, Repr

/-- A value of `GrappaSupportInfo`; `none` is one that is no number. -/
abbrev SupportValue := Option ℕ

structure GrappaSupport where
  version : Option SupportValue := none
  deviceType : Option SupportValue := none
  protocolVersion : Option SupportValue := none
  deriving DecidableEq, Repr

/-- A row of the asset manifest's `Book` list. -/
structure ManifestRow where
  assetID : AssetID
  isDownload : Bool
  deriving DecidableEq, Repr

/-- A message of the device: a dictionary of which these entries are read. -/
structure Message where
  name : Option Command
  errorCode : Option ℤ := none
  support : Option GrappaSupport := none
  book : Option (List ManifestRow) := none
  deriving DecidableEq, Repr

structure Choice where
  /-- The process stops at this step. -/
  halt : Bool := false
  /-- A step that fails or is stopped took effect all the same. -/
  effect : Bool := false
  fault : Option Failure := none
  /-- How much of a transfer got through, or how many rounds fit a deadline. -/
  short : Option ℕ := none
  /-- The device leaves a FileComplete it received undone. -/
  ignored : Bool := false
  message : Option Message := none
  /-- What other parties create in the app containers before the step. -/
  appeared : List (AppPath × Entry) := []
  deriving DecidableEq, Repr

/-- What an observer of the run sees, in order. -/
inductive Event where
  /-- A transaction begins: its journal is made with the target as it is now. -/
  | began (token : Token) (target : AppPath) (content : Option Entry)
  | answered (path : Path) (answer : Device.Answer)
  /-- AFC is asked for the names in a directory. -/
  | listed (path : Path)
  | opened
  | received (wanted : Command) (message : Message)
  | fileComplete (asset : AssetID) (destination : Path)
  /-- The device performs a move over what stands at its destination. -/
  | moved (asset : AssetID) (destination : Path) (replaced : Option Entry)
  /-- Another party creates an object of an app, unless one is there. -/
  | appeared (path : AppPath) (entry : Entry)
  /-- A local file was replaced as a whole. -/
  | wrote (name : LocalName) (stored : Stored)
  /-- AFC is asked to unlink what is found there, while the journal and its local
  original are these. -/
  | unlinked (path : Path) (found : Option Node) (journal : Option Journal)
      (snapshot : Option Stored)
  deriving DecidableEq

/-- `completedKnownWrite`. -/
structure CompletedWrite where
  token : Token
  target : AppPath
  operation : Operation
  newDigest : Option Digest
  newVerified : Bool
  committed : Bool
  originalReturned : Bool
  deriving DecidableEq, Repr

/-- The fields of the object; a new process starts with the default ones. -/
structure Session where
  journal : Option Journal := none
  deviceID : Text := []
  afcOpen : Bool := false
  atcMoveAttempted : Bool := false
  directWriteActive : Bool := false
  completedKnownWrite : Option CompletedWrite := none
  deletedFileBackup : Option Token := none
  deletionAbsenceConfirmed : Bool := false
  deriving DecidableEq, Repr

structure World where
  device : Device
  disk : Disk
  session : Session
  /-- `journalURL.lastPathComponent`. -/
  namespaceName : Text
  /-- `tunnelFactory` is set. -/
  tunnelFactory : Bool
  oracle : ℕ → Choice
  /-- The number of steps made, which is also the clock. -/
  pos : ℕ
  /-- The next UUID. -/
  uuids : Token
  /-- What was sent on the AirTraffic stream that is open. -/
  stream : List Command
  trace : List Event

abbrev M := Prog World Failure

def xfatcError (code : ℤ) : Failure := ⟨code, none⟩

/-- A method that returns NO without an error of its own. -/
def silent : Failure := ⟨0, none⟩

def permDenied : Failure := ⟨106, some 10⟩

/-- Only a missing object is answered with 106/8. -/
def refusal (failure : Failure) : Failure :=
  if failure = ⟨106, some 8⟩ then permDenied else failure

namespace World

variable (w : World)

def choice : Choice := w.oracle w.pos

/-- Time passes, and other parties act meanwhile. -/
def tick : World :=
  { w with
    pos := w.pos + 1
    device := w.choice.appeared.foldl Device.appear w.device
    trace := w.trace ++ w.choice.appeared.map fun created => .appeared created.1 created.2 }

def log (event : Event) : World := { w with trace := w.trace ++ [event] }

def withDevice (device : Device) : World := { w with device := device }

def withDisk (disk : Disk) : World := { w with disk := disk }

def withSession (session : Session) : World := { w with session := session }

def withStream (stream : List Command) : World := { w with stream := stream }

end World

/-- A step that reads the world. -/
def query {α : Type} (answer : Choice → World → Except Failure α) : M α := fun w =>
  let c := w.choice
  if c.halt then (.stopped, w.tick)
  else
    match c.fault with
    | some failure => (.failed (refusal failure), w.tick)
    | none =>
      match answer c w.tick with
      | .ok value => (.done value, w.tick)
      | .error failure => (.failed failure, w.tick)

/-- A step that changes the world. One that fails or is stopped may have made
the part of the change that `partly` describes. -/
def actPartly (whole : World → Except Failure World) (partly : Choice → World → World) : M Unit :=
  fun w =>
    let c := w.choice
    let left := if c.effect then partly c w.tick else w.tick
    if c.halt then (.stopped, left)
    else
      match c.fault with
      | some failure => (.failed failure, left)
      | none =>
        match whole w.tick with
        | .ok w' => (.done (), w')
        | .error failure => (.failed failure, w.tick)

/-- A step that changes the world at once or not at all. -/
def act (whole : World → Except Failure World) : M Unit :=
  actPartly whole fun _ w => (whole w).toOption.getD w

def asks {α : Type} (read : World → α) : M α := do return read (← (get : M World))

def require (failure : Failure) (condition : Bool) : M Unit :=
  if condition then pure () else fail failure

def the {α : Type} (failure : Failure) : Option α → M α
  | some value => pure value
  | none => fail failure

/-- A step that is made only under a condition. -/
def when (condition : Bool) (body : M Unit) : M Unit := if condition then body else pure ()

def record (event : Event) : M Unit := modify fun w => w.log event

/-- How many rounds of a waiting loop fit before its deadline. -/
def rounds : M ℕ := query fun c _ => .ok (c.short.getD 8)

/-- The transactions a local file names. -/
def Stored.tokens : Stored → List Token
  | .journal record => [record.token]
  | .deleteReceipt receipt => [receipt.token]
  | .fileReceipt receipt => [receipt.token]
  | _ => []

/-- The transactions the object remembers. -/
def Session.tokens (session : Session) : List Token :=
  (session.journal.map Journal.token).toList ++
    (session.completedKnownWrite.map CompletedWrite.token).toList ++
    session.deletedFileBackup.toList

/-- The transactions that are known to this installation. -/
def World.tokens (w : World) : List Token :=
  w.session.tokens ++ w.disk.entries.flatMap fun file => file.1.token :: file.2.tokens

/-- A UUID that was not handed out and names nothing that is known. -/
def World.unused (w : World) : Token :=
  w.tokens.foldr (fun token next => max next (token + 1)) w.uuids

def freshUUID : M Token := fun w => (.done w.unused, { w with uuids := w.unused + 1 })

section Session

def updateSession (change : Session → Session) : M Unit :=
  modify fun w => w.withSession (change w.session)

def setJournal (journal : Option Journal) : M Unit :=
  updateSession fun session => { session with journal := journal }

def updateJournal (change : Journal → Journal) : M Unit :=
  updateSession fun session => { session with journal := session.journal.map change }

def Journal.updateFile (change : KnownFile → KnownFile) (journal : Journal) : Journal :=
  { journal with knownFile := journal.knownFile.map change }

def updateFile (change : KnownFile → KnownFile) : M Unit :=
  updateJournal (Journal.updateFile change)

def theJournal : M Journal := do the silent (← asks (·.session.journal))

def theFile : M KnownFile := do the silent (← theJournal).knownFile

end Session

section Local

variable [Foundation]

/-- `XFATCSyncURL`. -/
def xfatcSyncURL : M Unit := query fun _ _ => .ok ()

def localExists (name : LocalName) : M Bool := asks fun w => (w.disk.lookup name).isSome

/-- The file, if it is a regular one that can be read. -/
def localRead (name : LocalName) : M Stored := query fun _ w =>
  match w.disk.lookup name with
  | some stored => if stored.isRegular then .ok stored else .error silent
  | none => .error silent

/-- `NSDataWritingAtomic`. -/
def writeAtomic (name : LocalName) (stored : Stored) : M Unit :=
  act fun w => .ok ((w.withDisk (w.disk.insert name stored)).log (.wrote name stored))

/-- `NSDataWritingWithoutOverwriting`, which an interruption can cut short. -/
def writeNew (name : LocalName) (stored : Stored) (cut : ℕ → Stored) : M Unit :=
  actPartly
    (fun w =>
      if (w.disk.lookup name).isSome then .error silent
      else .ok (w.withDisk (w.disk.insert name stored)))
    (fun c w =>
      if (w.disk.lookup name).isSome then w
      else w.withDisk (w.disk.insert name ((c.short.map cut).getD stored)))

def writeNewBytes (name : LocalName) (bytes : Bytes) : M Unit :=
  writeNew name (.bytes bytes) fun n => .bytes (bytes.take n)

def localRemove (name : LocalName) : M Unit :=
  act fun w =>
    if (w.disk.lookup name).isSome then .ok (w.withDisk (w.disk.erase name))
    else .error silent

/-- `activeURL`. -/
def activeName (session : Session) : LocalName :=
  match session.directWriteActive, session.journal with
  | true, some journal => .direct journal.token
  | true, none => .direct 0
  | false, _ => .active

/-- `saveJournal:error:`. -/
def saveJournal : M Unit := do
  let journal ← theJournal
  let name ← asks fun w => activeName w.session
  writeAtomic name (.journal journal)
  when journal.knownFile.isSome do
    xfatcSyncURL
    xfatcSyncURL

end Local

end XitForge.Directory
