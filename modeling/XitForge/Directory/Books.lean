import XitForge.Directory.Afc

/-!
Books is the transport of a transaction: its synchronization files are copied
before a transaction uses them and put back afterwards. A marker with the
transaction's token says whose the state is in between.
-/
namespace XitForge.Directory

open Program Program.Prog Foundation

variable [Foundation]

/-- A method whose NO is an answer to its caller. -/
def succeeds (body : M Unit) : M Bool := do
  match ← attempt body with
  | .ok () => return true
  | .error _ => return false

def Stored.data : Stored → Option Bytes
  | .bytes contents => some contents
  | _ => none

def localBytes (name : LocalName) : M Bytes := do the silent (← localRead name).data

/-- The rows of `snapshotBooks:`, with the sum of the sizes so far. -/
def snapshotTracked (token : Token) : List Path → (index total : ℕ) → M (List TrackedRow)
  | [], _, _ => pure []
  | path :: rest, index, total => do
    match ← info path with
    | none => return .absent :: (← snapshotTracked token rest (index + 1) total)
    | some row =>
      require (xfatcError 2110) (row.kind == .regular)
      let bytes ← readSnapshot path row.size
      let total := total + bytes.length
      require (xfatcError 2111) (decide (total ≤ 256 * 1024 * 1024))
      writeNewBytes (.preimage token index) bytes
      xfatcSyncURL
      xfatcSyncURL
      return .present row (some (sha256 bytes)) ::
        (← snapshotTracked token rest (index + 1) total)

/-- `snapshotBooks:`. -/
def snapshotBooks : M Unit := do
  let root ← info booksPath
  require (xfatcError 2109) (root.all fun row => row.kind == .directory)
  updateJournal fun journal =>
    { journal with booksOriginallyPresent := some root.isSome, booksOriginalInfo := some root }
  let token := (← theJournal).token
  let rows ← snapshotTracked token xfatcTrackedFiles 0 0
  updateJournal fun journal => { journal with trackedPreimage := some rows }
  saveJournal

/-- `writeBooksBytes:path:error:`. -/
def writeBooksBytes (bytes : Bytes) (path : Path) : M Unit := do
  require silent (xfatcTrackedFiles.contains path)
  let found ← info path
  require silent (found.all fun row => row.kind == .regular)
  afcWriteFile path bytes
  let row ← the (xfatcError 2255) (← info path)
  let observed ← readSnapshot path row.size
  require (xfatcError 2255) (observed == bytes)

/-- `booksOwnerMatches:error:`. -/
def booksOwnerMatches (root : Path) : M Unit := do
  let journal ← theJournal
  let path := root ++ [.xitForgeOwner]
  let row ← the silent (← info path)
  require silent (row.kind == .regular && decide (row.size ≤ 4096))
  let bytes ← readSnapshot path row.size
  require silent (propertyList bytes == some journal.ownerRecord)

/-- One tracked file of `preimageMatches:error:`. -/
def preimageRowMatches (token : Token) (index : ℕ) (path : Path) (row : TrackedRow) : M Unit := do
  let observed ← info path
  match row, observed with
  | .absent, none => return ()
  | .present previous _, some now => do
    require silent (now.kind == .regular && now.size == previous.size &&
      now.creation == previous.creation && now.mtimeNS == previous.mtimeNS)
    let before ← localBytes (.preimage token index)
    let current ← readSnapshot path now.size
    require silent (before == current)
  | _, _ => fail silent

def preimageRows (token : Token) (root : Path) : List (Path × TrackedRow) → ℕ → M Unit
  | [], _ => pure ()
  | (tail, row) :: rest, index => do
    preimageRowMatches token index (root ++ tail) row
    preimageRows token root rest (index + 1)

/-- `preimageMatches:error:`. -/
def preimageMatches (root : Path) : M Unit := do
  let journal ← theJournal
  let expected := journal.booksOriginalInfo.getD none
  let row ← the silent (← info root)
  require silent (row.kind == .directory &&
    expected.any fun info => info.creation == row.creation && info.mtimeNS == row.mtimeNS)
  preimageRows journal.token root (trackedTails.zip (journal.trackedPreimage.getD [])) 0

/-- The marker in Books is the one of a transaction that works in place. -/
def resumesBooks (marker : Option FileInfo) (journal : Journal) : M Bool :=
  if marker.isSome && journal.booksInPlace then succeeds (booksOwnerMatches booksPath)
  else pure false

/-- Books is as it was when it was copied, or this transaction already works in it. -/
def booksReady (journal : Journal) (root : Except Failure (Option FileInfo)) (resuming : Bool) :
    M Unit :=
  if journal.booksOriginallyPresent == some true then do
    let row ← the silent (root.toOption.getD none)
    require silent (row.kind == .directory)
    when (!resuming) (preimageMatches booksPath)
  else require silent (root.toOption == some none || resuming)

/-- `beginBooksInPlace:`. -/
def beginBooksInPlace : M Unit := do
  let marker ← info booksMarkerPath
  let journal ← theJournal
  let resuming ← resumesBooks marker journal
  require (xfatcError 2256) (marker.isNone || resuming)
  let root ← attempt (info booksPath)
  booksReady journal root resuming
  updateJournal fun journal => { journal with booksInPlace := true }
  saveJournal
  when (root.toOption == some none) (makeOwnedDirectory booksPath)
  when (!resuming) (writeOwned (plistData journal.ownerRecord) booksMarkerPath)
  let sync ← info booksSyncPath
  require silent (sync.all fun row => row.kind == .directory)
  when sync.isNone do
    updateJournal fun journal => { journal with inPlaceSyncCreated := true }
    saveJournal
    makeOwnedDirectory booksSyncPath

/-- `isolateBooks:`. -/
def isolateBooks : M Unit := do
  when ((← theJournal).booksOriginallyPresent == some true) beginBooksInPlace

/-- `installWorkingBooks:error:`. -/
def installWorkingBooks : M Unit := do
  when (!(← theJournal).booksInPlace) beginBooksInPlace
  booksOwnerMatches booksPath
  let bytes := plistData (xfatcBooksManifest (← theJournal))
  updateJournal fun journal => { journal with inPlaceManifestWriteStarted := true }
  saveJournal
  writeBooksBytes bytes booksManifestPath

/-- The original bytes of a tracked file, checked against its row. -/
def trackedOriginal (token : Token) (index : ℕ) : TrackedRow → M (Option Bytes)
  | .absent => pure none
  | .present row digest => do
    let bytes ← localBytes (.preimage token index)
    require (xfatcError 2258) (bytes.length == row.size &&
      digest.all fun digest => digest == sha256 bytes)
    return some bytes

/-- The bytes of a tracked file that is there now. -/
def trackedCurrent (path : Path) : Option FileInfo → M (Option Bytes)
  | none => pure none
  | some row => do return some (← readSnapshot path row.size)

/-- Bytes of the daemon are kept before they are overwritten. -/
def keepSyncChange (token : Token) : Option Bytes → M Unit
  | none => pure ()
  | some bytes => do
    let uuid ← freshUUID
    writeNewBytes (.syncChange token uuid) bytes
    xfatcSyncURL
    xfatcSyncURL

/-- One tracked file of `restoreBooksInPlace:`. -/
def restoreTracked (token : Token) (index : ℕ) (path : Path) (row : TrackedRow) : M Unit := do
  let original ← trackedOriginal token index row
  let found ← info path
  require silent (found.all fun row => row.kind == .regular)
  let current ← trackedCurrent path found
  if original = current then return ()
  keepSyncChange token current
  saveJournal
  match original with
  | some bytes => writeBooksBytes bytes path
  | none => removeOwned path .regular

def restoreTrackedRows (token : Token) : List (Path × TrackedRow) → ℕ → M Unit
  | [], _ => pure ()
  | (path, row) :: rest, index => do
    restoreTracked token index path row
    restoreTrackedRows token rest (index + 1)

/-- A directory this transaction made is removed if nothing is left in it. -/
def removeIfEmpty (path : Path) : M Unit := do
  let found ← attempt (info path)
  if found.toOption == some none then return ()
  let left ← names path
  when left.isEmpty (removeOwned path .directory)

/-- The marker must be this transaction's, or be gone because nothing was begun
or everything was restored. -/
def restorableBooks (journal : Journal) (marker : Option FileInfo) : M Unit :=
  if marker.isSome then do
    require (xfatcError 2257) (← succeeds (booksOwnerMatches booksPath))
  else require (xfatcError 2257) (!journal.inPlaceManifestWriteStarted || journal.booksRestored)

/-- `restoreBooksInPlace:`. -/
def restoreBooksInPlace : M Unit := do
  let journal ← theJournal
  let marker ← info booksMarkerPath
  restorableBooks journal marker
  when (journal.inPlaceManifestWriteStarted && !journal.booksRestored) do
    restoreTrackedRows journal.token
      (xfatcTrackedFiles.zip (journal.trackedPreimage.getD [])) 0
  updateJournal fun journal => { journal with booksRestored := true }
  -- durable before the marker goes, so no restored library looks foreign later
  saveJournal
  when marker.isSome (removeOwned booksMarkerPath .regular)
  when journal.inPlaceSyncCreated (removeIfEmpty booksSyncPath)
  when (journal.booksOriginallyPresent != some true) (removeIfEmpty booksPath)

/-- `verifyRemoteOwner:`. -/
def verifyRemoteOwner : M Unit := do
  let journal ← theJournal
  let namespaceName ← asks (·.namespaceName)
  require (xfatcError 2219) (journal.knownFile.isNone || journal.namespaceName == namespaceName)
  match ← info (backupPath journal.token) with
  | none => return ()
  | some row =>
    require (xfatcError 2122) (row.kind == .directory)
    match ← info (ownerPath journal.token) with
    | none =>
      let left ← names (backupPath journal.token)
      require (xfatcError 2123) left.isEmpty
    | some owner =>
      require silent (owner.kind == .regular && decide (owner.size ≤ 4096))
      let bytes ← readSnapshot (ownerPath journal.token) owner.size
      require (xfatcError 2124) (propertyList bytes == some journal.ownerRecord)

/-- A manifest is removed if it is the one of this transaction. -/
def cleanManifest (file : Path) : M Unit := do
  match ← info file with
  | none => return ()
  | some row =>
    require silent (row.kind == .regular)
    let observed ← readSnapshot file row.size
    require silent (propertyList observed == some (xfatcBooksManifest (← theJournal)))
    removeOwned file .regular

/-- The directory `Sync` of `cleanExactTemporaryBooks:error:`. -/
def cleanTemporarySync (sync : Path) : M Unit := do
  match ← info sync with
  | none => return ()
  | some row =>
    require silent (row.kind == .directory)
    let left ← names sync
    require silent (left == [] || left == [.booksPlist])
    cleanManifest (sync ++ [.booksPlist])
    removeOwned sync .directory

/-- `cleanExactTemporaryBooks:error:`. -/
def cleanExactTemporaryBooks (root : Path) : M Unit := do
  match ← info root with
  | none => return ()
  | some row =>
    require silent (row.kind == .directory)
    let rootNames ← names root
    if rootNames.isEmpty then removeOwned root .directory
    else
      booksOwnerMatches root
      require silent (rootNames.all fun name => name == .sync || name == .xitForgeOwner)
      cleanTemporarySync (root ++ [.sync])
      removeOwned (root ++ [.xitForgeOwner]) .regular
      removeOwned root .directory

end XitForge.Directory
