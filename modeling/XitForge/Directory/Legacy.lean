import XitForge.Directory.Books
import Mathlib.Data.List.Sort

/-!
Restoring the complete copy of Books that old transactions moved into their
backup directory. The backup is only read; every file is copied to the local
directory first, and the library is rebuilt from there under the marker.
-/
namespace XitForge.Directory

open Program Program.Prog Foundation

variable [Foundation]

def maxLegacyFile : ℕ := 128 * 1024 * 1024

def maxLegacyTotal : ℕ := 256 * 1024 * 1024

/-- `legacyBooksSave:error:`. -/
def legacyBooksSave : M Unit := do
  saveJournal
  xfatcSyncURL
  xfatcSyncURL

def updateLegacy (change : LegacyRecord → LegacyRecord) : M Unit :=
  updateJournal fun journal =>
    { journal with legacyBooksCopy := journal.legacyBooksCopy.map change }

/-- `legacyBooksLocalBytes:record:error:`. -/
def legacyBooksLocalBytes (token : Token) (row : LegacyRow) : M Bytes := do
  let directory ← query fun _ w => .ok (w.disk.lookup (.legacyBooks token))
  require (xfatcError 2262) (directory == some .directory)
  let bytes ← localBytes (.legacyLeaf token row.path)
  require (xfatcError 2262) (bytes.length == row.size && decide (row.size ≤ maxLegacyFile) &&
    row.digest == some (sha256 bytes))
  return bytes

/-- An earlier copy must be the same; without one it is written. -/
def legacyBooksCopyLeaf (token : Token) (row : LegacyRow) (bytes : Bytes) : M Unit := do
  if ← localExists (.legacyLeaf token row.path) then
    let prior ← legacyBooksLocalBytes token row
    require silent (prior == bytes)
  else writeNewBytes (.legacyLeaf token row.path) bytes

/-- The local copy of one file of the backup. -/
def legacyBooksKeep (token : Token) (row : LegacyRow) (bytes : Bytes) : M Unit := do
  legacyBooksCopyLeaf token row bytes
  xfatcSyncURL
  xfatcSyncURL

def sortedNames (found : List Name) : List Name :=
  found.insertionSort fun a b => lexLess b.text a.text = false

/-- `legacyBooksCollectSource:`: the rows below a relative path, each directory
before its contents. Paths of more than 64 parts are refused, so 66 levels do. -/
def legacyBooksCollectSource (token : Token) (root : Path) :
    ℕ → Path → List LegacyRow × ℕ → M (List LegacyRow × ℕ)
  | 0, _, _ => fail (xfatcError 2263)
  | fuel + 1, relative, (entries, total) => do
    require (xfatcError 2263) (legacyBooksRelativePath relative && decide (entries.length < 4096))
    let path := root ++ relative
    let row ← the silent (← info path)
    match row.kind with
    | .regular =>
      require (xfatcError 2263) (decide (row.size ≤ maxLegacyFile) &&
        decide (total + row.size ≤ maxLegacyTotal))
      let bytes ← readSnapshot path row.size
      let after ← info path
      require silent (after == some row)
      let entry : LegacyRow := ⟨relative, .regular, row.size, some (sha256 bytes), row⟩
      legacyBooksKeep token entry bytes
      return (entries ++ [entry], total + row.size)
    | .directory =>
      let found ← names path
      let collected ← (sortedNames found).foldlM
        (fun acc name => legacyBooksCollectSource token root fuel (relative ++ [name]) acc)
        (entries ++ [⟨relative, .directory, 0, none, row⟩], total)
      let after ← info path
      require silent (after == some row)
      return collected
    | _ => fail (xfatcError 2263)

/-- `legacyBooksVerifyTree:`: the relative paths that were seen. -/
def legacyBooksVerifyTree (root : Path) (entries : List LegacyRow) (source ignoreMarker : Bool) :
    ℕ → Path → List Path → M (List Path)
  | 0, _, _ => fail (xfatcError 2264)
  | fuel + 1, relative, seen => do
    let path := root ++ relative
    let row ← the (xfatcError 2264) (entries.find? fun row => row.path == relative)
    let now ← the (xfatcError 2264) (← info path)
    require (xfatcError 2264) (now.kind == row.kind && (!source || now == row.sourceInfo))
    let seen := relative :: seen
    match row.kind with
    | .regular =>
      require silent (now.size == row.size)
      let bytes ← readSnapshot path row.size
      let after ← info path
      require (xfatcError 2264) (row.digest == some (sha256 bytes) && after == some now)
      return seen
    | _ =>
      let found ← names path
      let children := (sortedNames found).filter fun name =>
        !(relative.isEmpty && ignoreMarker && name == .xitForgeOwner)
      let seen ← children.foldlM
        (fun seen name =>
          legacyBooksVerifyTree root entries source ignoreMarker fuel (relative ++ [name]) seen)
        seen
      let after ← info path
      require silent (after == some now)
      return seen

/-- `legacyBooksVerifyRoot:`. -/
def legacyBooksVerifyRoot (root : Path) (entries : List LegacyRow)
    (source complete ignoreMarker : Bool) : M Unit := do
  let seen ← legacyBooksVerifyTree root entries source ignoreMarker 4097 [] []
  require silent (!complete || seen.dedup.length == entries.length)

/-- `legacyBooksTemporaryExact:`. -/
def legacyBooksTemporaryExact : M Unit := do
  booksOwnerMatches booksPath
  let found ← names booksPath
  require silent (found.all fun name => name == .sync || name == .xitForgeOwner)
  match ← info booksSyncPath with
  | none => return ()
  | some sync =>
    require silent (sync.kind == .directory)
    let found ← names booksSyncPath
    require silent (found == [] || found == [.booksPlist])
    if found.isEmpty then return ()
    let row ← the silent (← info booksManifestPath)
    require silent (row.kind == .regular && decide (row.size ≤ 65536))
    let bytes ← readSnapshot booksManifestPath row.size
    require silent (propertyList bytes == some (xfatcBooksManifest (← theJournal)))

/-- The first run: the complete tree is copied before anything is restored. -/
def legacyBooksSnapshot (token : Token) (source : Path) : M Unit := do
  let current ← info booksPath
  when current.isSome do
    require (xfatcError 2265) (← succeeds legacyBooksTemporaryExact)
  let directory ← asks fun w => w.disk.lookup (.legacyBooks token)
  require silent (directory.all fun stored => !stored.isRegular)
  when directory.isNone
    (act fun w => .ok (w.withDisk (w.disk.insert (.legacyBooks token) .directory)))
  xfatcSyncURL
  xfatcSyncURL
  let (collected, _) ← legacyBooksCollectSource token source 66 [] ([], 0)
  let entries := collected.insertionSort fun a b =>
    lexLess (pathText b.path) (pathText a.path) = false
  legacyBooksVerifyRoot source entries true true false
  updateJournal fun journal => { journal with
    legacyBooksCopy := some { entries := entries, treeDigest := legacyBooksTreeDigest entries } }
  legacyBooksSave

/-- A temporary Books whose removal was begun before may be empty by now. -/
def legacyBooksEmptied (record : LegacyRecord) (current : FileInfo) : M Bool := do
  let started := record.temporaryCleanupIntent && current.kind == .directory &&
    record.temporaryRootInfo.any fun info => info.creation == current.creation
  if started then
    match ← attempt (names booksPath) with
    | .ok found => return found.isEmpty
    | .error _ => return false
  else return false

/-- An exact temporary Books is cleared before the copy takes its place. -/
def legacyBooksClear (current : FileInfo) : M Unit := do
  let record ← the silent (← theJournal).legacyBooksCopy
  let exact ← succeeds legacyBooksTemporaryExact
  when (!exact) do
    require (xfatcError 2265) (← legacyBooksEmptied record current)
  updateLegacy fun record =>
    { record with temporaryCleanupIntent := true, temporaryRootInfo := some current }
  legacyBooksSave
  cleanExactTemporaryBooks booksPath
  let left ← info booksPath
  require silent left.isNone

/-- A new root for the copy, known by its creation date. -/
def legacyBooksCreateRoot : M FileInfo := do
  updateLegacy fun record => { record with rootCreateIntent := true }
  legacyBooksSave
  makeOwnedDirectory booksPath
  let current ← the silent (← info booksPath)
  require silent (current.kind == .directory)
  updateLegacy fun record => { record with rootInfo := some current }
  legacyBooksSave
  return current

/-- The marker goes into an empty root before the first file. -/
def legacyBooksMark : M Unit := do
  let found ← names booksPath
  require silent found.isEmpty
  updateLegacy fun record => { record with markerWriteIntent := true }
  let owner := plistData (← theJournal).ownerRecord
  legacyBooksSave
  writeOwned owner booksMarkerPath
  booksOwnerMatches booksPath
  let marker ← info booksMarkerPath
  require silent marker.isSome

/-- One missing entry of the copy. -/
def legacyBooksRestoreRow (token : Token) (row : LegacyRow) : M Unit := do
  if row.path.isEmpty then return ()
  let path := booksPath ++ row.path
  let found ← info path
  if found.isSome then return ()
  else if row.kind == .directory then makeOwnedDirectory path
  else
    let bytes ← legacyBooksLocalBytes token row
    writeOwned bytes path
    let written ← the silent (← info path)
    require silent (written.kind == .regular && written.size == row.size)
    let observed ← readSnapshot path row.size
    require silent (observed == bytes)

/-- The root the copy goes into: the one made for it, or a new one. -/
def legacyBooksRoot (restored : Bool) (record : LegacyRecord) : Option FileInfo → M FileInfo
  | none => do
    require (xfatcError 2265) !restored
    legacyBooksCreateRoot
  | some found =>
    if !restored && record.rootInfo.isNone then do
      legacyBooksClear found
      legacyBooksCreateRoot
    else pure found

/-- The marker of the copy, written if there is none; whether there is one. -/
def legacyBooksMarked (restored : Bool) : M Bool := do
  let marker ← info booksMarkerPath
  when marker.isSome (booksOwnerMatches booksPath)
  if marker.isNone && !restored then
    legacyBooksMark
    return true
  else return marker.isSome

/-- `restoreLegacyBooksCopy:`. -/
def restoreLegacyBooksCopy : M Unit := do
  let journal ← theJournal
  require silent (journal.booksOriginallyPresent == some true && !journal.booksInPlace)
  verifyRemoteOwner
  let token := journal.token
  let source := backupPath token ++ [.books]
  let sourceInfo ← the silent (← info source)
  require silent (sourceInfo.kind == .directory)
  when journal.legacyBooksCopy.isNone (legacyBooksSnapshot token source)
  let journal ← theJournal
  require (xfatcError 2262) (validLegacyBooksCopyJournal journal)
  let record ← the silent journal.legacyBooksCopy
  each (fun row => when (row.kind == .regular) do
    let _ ← legacyBooksLocalBytes token row) record.entries
  legacyBooksVerifyRoot source record.entries true true false
  let current ← info booksPath
  let restored := journal.legacyCopyRestored == some true
  let current ← legacyBooksRoot restored record current
  let rootInfo := ((← theJournal).legacyBooksCopy.bind LegacyRecord.rootInfo)
  require (xfatcError 2265) (current.kind == .directory &&
    rootInfo.any fun info => info.creation == current.creation)
  let marked ← legacyBooksMarked restored
  legacyBooksVerifyRoot booksPath record.entries false restored marked
  when (!restored) (each (legacyBooksRestoreRow token) record.entries)
  legacyBooksVerifyRoot source record.entries true true false
  legacyBooksVerifyRoot booksPath record.entries false true marked
  updateLegacy fun record => { record with completed := true }
  updateJournal fun journal =>
    { journal with legacyCopyRestored := some true, booksRestored := true }
  legacyBooksSave
  when marked (removeOwned booksMarkerPath .regular)
  legacyBooksVerifyRoot source record.entries true true false
  legacyBooksVerifyRoot booksPath record.entries false true false

end XitForge.Directory
