import XitForge.Directory.World

/-!
The AFC side of `XFATCDirectory`: metadata, listings, reads in chunks, and the
three ways in which it creates or removes an object of its own.
-/
namespace XitForge.Directory

open Program Program.Prog

/-- `openServiceTunnel:`; the factory may fail. -/
def openServiceTunnel : M Unit := query fun _ _ => .ok ()

/-- `openAFC:`. -/
def openAFC : M Unit := do
  let session ← asks (·.session)
  if session.afcOpen then return ()
  let uuid ← query fun _ w => .ok w.device.uuid
  updateSession fun session => { session with deviceID := uuid }
  require (xfatcError 2100) !uuid.isEmpty
  openServiceTunnel
  act fun w => .ok (w.withSession { w.session with afcOpen := true })

/-- `closeAFC`. -/
def closeAFC : M Unit := updateSession fun session => { session with afcOpen := false }

/-- `afc_get_file_info`. -/
def afcGetFileInfo (path : Path) : M (Option FileInfo) := do
  let answer ← query fun _ w => .ok (w.device.answer path)
  record (.answered path answer)
  match answer with
  | .found info => return some info
  | .missing => return none
  | .denied => fail permDenied

/-- `info:missing:error:`: `none` is a missing object. -/
def info (path : Path) : M (Option FileInfo) := do
  match ← afcGetFileInfo path with
  | none => return none
  | some row =>
    query fun _ _ => .ok ()
    return some row

/-- `names:error:`. -/
def names (path : Path) : M (List Name) := do
  record (.listed path)
  let found ← query fun _ w =>
    match w.device.listDirectory path with
    | some found => .ok found
    | none => .error silent
  require (xfatcError 2102) (found.all fun name => xfatcComponent name.text)
  return found

/-- The reads of `readSnapshot:`, at most 65536 bytes each, until the deadline.
A round that brings nothing ends them, so `fuel` need not exceed the size. -/
def readChunks (path : Path) (size : ℕ) : ℕ → Bytes → M Bytes
  | 0, out => pure out
  | fuel + 1, out =>
    if out.length < size then do
      query fun _ _ => .ok ()
      let wanted := min 65536 (size - out.length)
      let bytes ← query fun c w =>
        match w.device.readFrom path out.length (min wanted (c.short.getD wanted)) with
        | some bytes => .ok bytes
        | none => .error silent
      if bytes.isEmpty then fail (xfatcError 2104)
      else readChunks path size fuel (out ++ bytes)
    else pure out

/-- `readSnapshot:expectedSize:error:`. -/
def readSnapshot (path : Path) (size : ℕ) : M Bytes := do
  require (xfatcError 2103) (decide (size ≤ 128 * 1024 * 1024))
  query fun _ w =>
    match w.device.readFrom path 0 0 with
    | some _ => .ok ()
    | none => .error silent
  let out ← readChunks path size size []
  query fun _ _ => .ok ()
  require (xfatcError 2104) (out.length == size)
  return out

/-- `afc_file_open` for writing, then the writes, then `afc_file_close`. -/
def afcOpenForWriting (path : Path) : M Unit :=
  act fun w =>
    match w.device.openForWriting w.pos path with
    | some device => .ok (w.withDevice device)
    | none => .error silent

def afcFileWrite (path : Path) (bytes : Bytes) : M Unit :=
  actPartly
    (fun w =>
      match w.device.appendBytes w.pos path bytes with
      | some device => .ok (w.withDevice device)
      | none => .error silent)
    (fun c w =>
      match w.device.appendBytes w.pos path (bytes.take (c.short.getD bytes.length)) with
      | some device => w.withDevice device
      | none => w)

def afcFileClose : M Unit := query fun _ _ => .ok ()

/-- One file opened, written with one call and closed. -/
def afcWriteFile (path : Path) (bytes : Bytes) : M Unit := do
  afcOpenForWriting path
  when (!bytes.isEmpty) (afcFileWrite path bytes)
  afcFileClose

def afcMakeDirectory (path : Path) : M Unit :=
  act fun w =>
    match w.device.makeDirectory w.pos path with
    | some device => .ok (w.withDevice device)
    | none => .error silent

/-- The local original of the transaction in memory. -/
def World.snapshot (w : World) : Option Stored :=
  w.session.journal.bind fun journal => w.disk.lookup (.original journal.token)

def World.nodeAt (w : World) (path : Path) : Option Node :=
  (w.device.media.lookup path).map Entry.node

/-- `afc_remove_path`, which unlinks a link itself and an empty directory. -/
def afcRemovePath (path : Path) : M Unit := do
  modify fun w => w.log (.unlinked path (w.nodeAt path) w.session.journal w.snapshot)
  act fun w =>
    match w.device.removePath w.pos path with
    | some device => .ok (w.withDevice device)
    | none => .error silent

section Owned

variable [Foundation]

/-- `removeOwned:expectedKind:error:`. -/
def removeOwned (path : Path) (kind : Kind) : M Unit := do
  match ← info path with
  | none => return ()
  | some row =>
    require (xfatcError 2105) (row.kind == kind)
    saveJournal
    afcRemovePath path
    let left ← info path
    require (xfatcError 2106) left.isNone

/-- The ownership row of the two directories shared with other transactions. -/
def setMkdirOwnership (path : Path) (ownership : Ownership) : M Unit :=
  updateJournal fun journal =>
    if path = [.airlock] then { journal with airlockOwnership := some ownership }
    else { journal with airlockBookOwnership := some ownership }

/-- `makeOwnedDirectory:error:`. -/
def makeOwnedDirectory (path : Path) : M Unit := do
  match ← info path with
  | some row => require silent (row.kind == .directory)
  | none =>
    let sharedRoot := path == [.airlock] || path == [.airlock, .book]
    when sharedRoot (setMkdirOwnership path {})
    saveJournal
    afcMakeDirectory path
    when sharedRoot do
      let created ← the silent (← info path)
      setMkdirOwnership path { createdInfo := some created }
      saveJournal

/-- `writeOwned:path:error:`. -/
def writeOwned (bytes : Bytes) (path : Path) : M Unit := do
  let found ← info path
  require (xfatcError 2108) found.isNone
  saveJournal
  afcWriteFile path bytes

/-- `waitKnownFile:missing:error:`; an error is never a disappearance. -/
def waitRounds (path : Path) (missing : Bool) : ℕ → M Unit
  | 0 => fail (xfatcError 2203)
  | fuel + 1 => do
    let found ← info path
    if found.isNone = missing then return ()
    else waitRounds path missing fuel

def waitKnownFile (path : Path) (missing : Bool) : M Unit := do
  let limit ← rounds
  waitRounds path missing (limit + 1)

/-- `readKnownStage:limit:error:`. -/
def readKnownStage (path : Path) (limit : ℕ) : M Bytes := do
  let row ← the (xfatcError 2204) (← info path)
  require (xfatcError 2204) (row.kind == .regular && decide (row.size ≤ limit))
  let bytes ← readSnapshot path row.size
  let after ← the (xfatcError 2205) (← info path)
  require (xfatcError 2205)
    (after.kind == .regular && after.size == row.size && after.mtimeNS == row.mtimeNS)
  return bytes

/-- The writes of `writeKnownIncoming:`, 65536 bytes each, until the deadline. -/
def writeChunks (path : Path) : ℕ → Bytes → M Unit
  | 0, _ => pure ()
  | fuel + 1, left =>
    if left.isEmpty then pure ()
    else do
      query fun _ _ => .ok ()
      afcFileWrite path (left.take 65536)
      writeChunks path fuel (left.drop 65536)

/-- `writeKnownIncoming:error:`. -/
def writeKnownIncoming (data : Bytes) : M Unit := do
  let path := incomingPath (← theJournal).token
  let found ← info path
  require silent found.isNone
  saveJournal
  afcOpenForWriting path
  writeChunks path data.length data
  afcFileClose
  let observed ← readKnownStage path maxFileBytes
  require (xfatcError 2212) (observed == data)

end Owned

end XitForge.Directory
