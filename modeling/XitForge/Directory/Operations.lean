import XitForge.Directory.Finish

/-!
The public methods. Each transaction prepares its link to the app directory,
moves the file, and ends in the recovery that also closes interrupted ones. The
two direct methods of a panel rule keep no original and no pending recovery.
-/
namespace XitForge.Directory

open Program Program.Prog Foundation

variable [Foundation]

/-- The code a method reports when nothing below it named an error. -/
def Failure.named (code : ℤ) (failure : Failure) : Failure :=
  if failure.code = 0 then { failure with code := code } else failure

/-- The new names are checked before anything is written. -/
def reserveNames (code : ℤ) (token : Token) : M Unit :=
  each (fun path => do
    let found ← info path
    require (xfatcError code) found.isNone)
    [sourcePath token, linkPath token, backupPath token]

/-- The backup directory with its marker, and the manifest ready to be installed. -/
def makeBackup : M Unit := do
  let journal ← theJournal
  let token := journal.token
  let owner := plistData journal.ownerRecord
  makeOwnedDirectory (backupPath token)
  writeOwned owner (ownerPath token)
  makeOwnedDirectory (workingPath token)
  writeOwned owner (workingPath token ++ [.xitForgeOwner])
  makeOwnedDirectory (workingPath token ++ [.sync])
  writeOwned (plistData (xfatcBooksManifest journal)) (workingPath token ++ [.sync, .booksPlist])

/-- Books is as it was copied, or is still missing. -/
def booksUnchanged : M Unit := do
  if (← theJournal).booksOriginallyPresent == some true then preimageMatches booksPath
  else
    let found ← info booksPath
    require (xfatcError 2144) found.isNone

/-- Books is checked before the intent to use it is durable. -/
def beginIsolation : M Unit := do
  booksUnchanged
  updateJournal fun journal => { journal with booksIsolationStarted := true }
  saveJournal
  isolateBooks

/-- The generated link reaches Media inside the archive. -/
def stageLink (code : ℤ) : M Unit := do
  let archive ← the (xfatcError code)
    (xfATCBuildDirectoryZip (← theJournal).tail (plistData .zipMetadata))
  stageZip archive
  makeOwnedDirectory [.airlock]
  makeOwnedDirectory [.airlock, .book]

/-- From the copy of Books to the link in its place. -/
def openTransaction : M Unit := do
  snapshotBooks
  makeBackup
  beginIsolation
  stageLink 2136
  installWorkingBooks
  runATC

def newKnownFile (operation : Operation) (target : AppPath) : KnownFile :=
  let file : KnownFile := { operation := operation, target := target }
  match operation with
  | .delete =>
    { file with targetAbsenceConfirmed := some false, deleteReceiptWritten := some false }
  | _ => file

def newJournal (w : World) (token : Token) (tail : AppPath) : Journal where
  token := token
  namespaceName := w.namespaceName
  rsdUUID := w.session.deviceID
  tail := tail

/-- `createDirectoryAtURL:` of `journalURL`. -/
def createJournalDirectory : M Unit := query fun _ _ => .ok ()

/-- `prepareKnownFile:operation:error:`. -/
def prepareKnownFile (target : AppPath) (operation : Operation) : M Unit := do
  markMoveAttempted false
  recoverPendingTransaction
  openAFC
  createJournalDirectory
  recoverRegisteredBooksMarker
  let token ← freshUUID
  reserveNames 2134 token
  let file := newKnownFile operation target
  let w ← get
  setJournal (some
    { newJournal w token target.dropLast with
      knownFile := some file
      fileManifest := some (knownManifestForBatch token file false) })
  record (.began token target (w.device.app.lookup target))
  openTransaction

/-- The checks on the path that the methods for a file share. -/
def knownFileTarget (code : ℤ) (path : Text) : M AppPath := do
  let target ← the (xfatcError code) (xfatcPath path)
  require (xfatcError code) (xfatcKnownFilePath target && decide (utf8Length target ≤ 4096))
  return target

/-- The original is read where it was moved to, and goes back whether or not it
could be kept. -/
def readMovedOriginal (maximumBytes : ℕ) : M Bytes := do
  observeKnownOriginal
  let token := (← theJournal).token
  let kept ← attempt (do
    let data ← readKnownStage (originalPath token) maximumBytes
    persistKnownOriginal data
    return data)
  returnKnownOriginal true
  rethrow kept

/-- `readAbsoluteFile:maximumBytes:error:`. -/
def readAbsoluteFile (path : Text) (maximumBytes : ℕ) : M Bytes := do
  let target ← knownFileTarget 2213 path
  require (xfatcError 2213) (maximumBytes != 0 && decide (maximumBytes ≤ maxFileBytes))
  let data ← attempt (do
    prepareKnownFile target .read
    readMovedOriginal maximumBytes)
  let journal ← asks (·.session.journal)
  match ← attempt finishKnownFile, data with
  | .error failure, _ => fail (failure.named 2210)
  | .ok (), .error failure => fail (failure.named 2214)
  | .ok (), .ok bytes =>
    match journal with
    | some journal =>
      let _ ← attempt (localRemove (.original journal.token))
      return bytes
    | none => return bytes

/-- `completedWriteMatchesToken:target:digest:`. -/
def completedWriteMatchesToken (completed : Option CompletedWrite) (token : Option Token)
    (target : AppPath) (digest : Digest) : Bool :=
  completed.any fun result =>
    token == some result.token && result.target == target && result.newDigest == some digest &&
      result.newVerified && result.committed && !result.originalReturned &&
      (result.operation == .replace || result.operation == .create)

/-- A file that is there is moved to the backup before the new one takes its place. -/
def replaceExisting (data : Bytes) : M Unit := do
  observeKnownOriginal
  let token := (← theJournal).token
  let original ← readKnownStage (originalPath token) maxFileBytes
  persistKnownOriginal original
  updateFile fun file => { file with newDigest := some (sha256 data), newSize := some data.length }
  saveJournal
  writeKnownIncoming data
  placePreparedReplacementData data

/-- A missing file is created; a refused look is not absence. -/
def replacePrepared (data : Bytes) : M Unit := do
  if ← succeeds requireProbeDestinationAbsent then
    updateFile fun file => { file with operation := .create }
    saveJournal
    createPreparedFileWithData data
  else replaceExisting data

/-- The replacement up to its end, with the token of the transaction if it was
prepared. -/
def replaceTransaction (target : AppPath) (data : Bytes) :
    M (Option Token × Except Failure Unit) := do
  match ← attempt (prepareKnownFile target .replace) with
  | .error failure => return (none, .error failure)
  | .ok () =>
    let journal ← asks (·.session.journal)
    let result ← attempt (replacePrepared data)
    return (journal.map Journal.token, result)

/-- `replaceAbsoluteFile:data:error:`. -/
def replaceAbsoluteFile (path : Text) (data : Bytes) : M Unit := do
  let target ← knownFileTarget 2213 path
  require (xfatcError 2213) (decide (data.length ≤ maxFileBytes))
  updateSession fun session => { session with completedKnownWrite := none }
  let (token, result) ← replaceTransaction target data
  match ← attempt finishKnownFile, result with
  | .error failure, _ => fail (failure.named 2210)
  | .ok (), .ok () => return ()
  | .ok (), .error failure =>
    let completed ← asks (·.session.completedKnownWrite)
    if completedWriteMatchesToken completed token target (sha256 data) then return ()
    else fail (failure.named 2216)

/-- `createTestAbsoluteFile:error:`. -/
def createTestAbsoluteFile (path : Text) : M Unit := do
  let target ← knownFileTarget 2241 path
  let marker ← the (xfatcError 2241) (xfProbeContents target)
  let result ← attempt (do
    prepareKnownFile target .createProbe
    requireProbeDestinationAbsent
    placeNewFile marker maxProbeBytes)
  match ← attempt finishKnownFile, result with
  | .error failure, _ => fail (failure.named 2210)
  | .ok (), .error failure => fail (failure.named 2245)
  | .ok (), .ok () => return ()

def clearDeletedBackup : M Unit :=
  updateSession fun session =>
    { session with deletedFileBackup := none, deletionAbsenceConfirmed := false }

/-- From the move of the file to the durable commit of its deletion; whether its
absence was confirmed. -/
def commitDeletion (expected : Option Bytes) : M Bool := do
  observeKnownOriginal
  let token := (← theJournal).token
  let original ← readKnownStage (originalPath token) maxFileBytes
  persistKnownOriginal original
  require (xfatcError 2242) (expected.all fun expected => original == expected)
  let absence ← knownTargetAbsenceAfterMove
  let incoming ← info (incomingPath token)
  require silent incoming.isNone
  let verify ← info (verifyPath token)
  require silent verify.isNone
  -- the staged original is read again after the durable copy and the probes
  let fresh ← readKnownStage (originalPath token) maxFileBytes
  let file ← theFile
  require (xfatcError 2229) (fresh.length == file.originalSize.getD 0 &&
    file.originalDigest == some (sha256 fresh))
  require (xfatcError 2226)
    (xfatcClassifyFileRecovery
      { operation := .delete
        original := .present
        incoming := .missing
        verify := .missing
        target := if absence then .missing else .unknown
        originalCaptured := true
        committed := true } = .deleteCommitted)
  let now ← asks (·.pos)
  updateFile fun file =>
    { file with targetAbsenceConfirmed := some absence, deletedAt := some now, committed := true }
  saveJournal
  updateSession fun session =>
    { session with deletedFileBackup := some token, deletionAbsenceConfirmed := absence }
  return absence

inductive Deletion where
  | alreadyAbsent
  | committed (token : Token) (digest : Option Digest) (size : Option ℕ) (absence : Bool)
  deriving DecidableEq, Repr

/-- A probe that is confirmed to be gone needs no deletion. -/
def probeAbsent (expected : Option Bytes) : M Bool := do
  if expected.isSome then
    match ← attempt knownTargetAbsenceAfterMove with
    | .ok confirmed => return confirmed
    | .error _ => return false
  else return false

/-- What `deleteAbsoluteFile:expectedProbe:` does before it finishes. -/
def deletePrepared (target : AppPath) (expected : Option Bytes) : M Deletion := do
  prepareKnownFile target .delete
  clearDeletedBackup
  if ← probeAbsent expected then return .alreadyAbsent
  else
    let absence ← commitDeletion expected
    let journal ← theJournal
    let file ← theFile
    return .committed journal.token file.originalDigest file.originalSize absence

/-- The backup is reported only if it is that of this deletion and still valid. -/
def reportDeletion (result : Except Failure Deletion) (finished : Except Failure Unit) : M Unit := do
  match result with
  | .ok .alreadyAbsent =>
    updateSession fun session =>
      { session with deletionAbsenceConfirmed := finished.toBool }
    rethrow finished
  | .ok (.committed token digest size absence) =>
    let verified ← succeeds (do let _ ← validatedLocalOriginal token digest size)
    updateSession fun session =>
      { session with
        deletedFileBackup := if verified then some token else none
        deletionAbsenceConfirmed := verified && absence }
    match finished with
    | .error failure => fail (failure.named 2210)
    | .ok () => require (xfatcError 2230) verified
  | .error failure =>
    clearDeletedBackup
    match finished with
    | .error recovery => fail (recovery.named 2210)
    | .ok () => fail (failure.named 2227)

/-- `deleteAbsoluteFile:expectedProbe:error:`. -/
def deleteAbsoluteFileExpecting (path : Text) (expected : Option Bytes) : M Unit := do
  clearDeletedBackup
  let target ← knownFileTarget 2213 path
  let result ← attempt (deletePrepared target expected)
  let finished ← attempt finishKnownFile
  reportDeletion result finished

/-- `deleteAbsoluteFile:error:`. -/
def deleteAbsoluteFile (path : Text) : M Unit := deleteAbsoluteFileExpecting path none

/-- `deleteTestAbsoluteFile:error:`. -/
def deleteTestAbsoluteFile (path : Text) : M Unit := do
  let marker ← the (xfatcError 2241) (xfProbeContents (path.splitOn '/'))
  deleteAbsoluteFileExpecting path (some marker)

/-- `prepareDirectWrite:error:`. -/
def prepareDirectWrite (target : AppPath) : M Unit := do
  markMoveAttempted false
  openAFC
  createJournalDirectory
  let token ← freshUUID
  reserveNames 2260 token
  let w ← get
  setJournal (some
    { newJournal w token target.dropLast with
      directWrite := true
      knownFile := some { operation := .directWrite, target := target }
      fileManifest := some [.stagedLink token, .media (incomingPath token)] })
  saveJournal
  makeOwnedDirectory (backupPath token)
  writeOwned (plistData (← theJournal).ownerRecord) (ownerPath token)
  stageLink 2261

/-- What a direct method found in place of its manifest. -/
structure DirectManifest where
  published : Bytes
  previous : Option Bytes
  deriving DecidableEq, Repr

/-- Books and its directory Sync, made if they are missing. -/
def directBooks : M Unit :=
  each (fun directory => do
    match ← info directory with
    | some row => require silent (row.kind == .directory)
    | none => makeOwnedDirectory directory) [booksPath, booksSyncPath]

/-- The manifest that is there, if it is one that can be put back. -/
def directPreviousManifest : M (Option Bytes) := do
  match ← info booksManifestPath with
  | none => return none
  | some row =>
    require silent (row.kind == .regular)
    require (xfatcError 2262) (decide (row.size ≤ maxFileBytes))
    return some (← readSnapshot booksManifestPath row.size)

/-- What both direct methods do up to the point where they touch the manifest. -/
def directTransport : M DirectManifest := do
  directBooks
  let previous ← directPreviousManifest
  return ⟨plistData (xfatcBooksManifest (← theJournal)), previous⟩

/-- The manifest of a direct method is taken back if it is still there. -/
def releaseManifest (manifest : DirectManifest) : M Unit := do
  let found ← attempt (info booksManifestPath)
  match found.toOption.getD none with
  | none => return ()
  | some row =>
    if row.kind == .regular && decide (row.size ≤ maxFileBytes) then
      match ← attempt (readSnapshot booksManifestPath row.size) with
      | .error _ => return ()
      | .ok current =>
        if current == manifest.published then
          let _ ← attempt (match manifest.previous with
            | none => removeOwned booksManifestPath .regular
            | some previous => writeBooksBytes previous booksManifestPath)
    else return ()

/-- What was generated under the token of a direct method. -/
def cleanDirect (applied : Bool) : M Unit := do
  let token := (← theJournal).token
  if ← succeeds verifyRemoteOwner then
    let _ ← attempt cleanGeneratedStage
    when applied do
      let _ ← attempt (removeOwned (ownerPath token) .regular)
      let _ ← attempt (removeOwned (backupPath token) .directory)

/-- The journal in memory is the one a direct method made. -/
def madeDirectJournal (previous : Option Journal) : M Bool := do
  let journal ← asks (·.session.journal)
  return journal != previous && journal.any Journal.directWrite

def leaveDirect (previous : Option Journal) : M Unit := do
  closeAFC
  updateSession fun session =>
    { session with directWriteActive := false, journal := previous }

/-- The transfer of `writeDownloadedAbsoluteFile:`, once the manifest is known. -/
def directWriteTransfer (manifest : DirectManifest) : M Unit := do
  writeBooksBytes manifest.published booksManifestPath
  runATC
  verifyKnownTargetLink
  let token := (← theJournal).token
  updateFile fun file => { file with incomingPlaceIntent := true }
  saveJournal
  let destination ← knownFileDestination
  runKnownFilePairs [⟨.media (incomingPath token), destination⟩]
  waitKnownFile (incomingPath token) true
  updateFile fun file => { file with committed := true }
  let _ ← attempt saveJournal

/-- The transfer of a direct method, after which its manifest is taken back. -/
def directly (manifest : Except Failure DirectManifest) (transfer : DirectManifest → M Unit) :
    M (Except Failure Unit) := do
  match manifest with
  | .error failure => return .error failure
  | .ok manifest =>
    let result ← attempt (transfer manifest)
    releaseManifest manifest
    return result

/-- `writeDownloadedAbsoluteFile:data:error:`. -/
def writeDownloadedAbsoluteFile (path : Text) (data : Bytes) : M Unit := do
  let target ← knownFileTarget 2213 path
  require (xfatcError 2213) (decide (data.length ≤ maxFileBytes))
  let previous ← asks (·.session.journal)
  updateSession fun session =>
    { session with directWriteActive := true, completedKnownWrite := none }
  let manifest ← attempt (do
    prepareDirectWrite target
    updateFile fun file =>
      { file with newDigest := some (sha256 data), newSize := some data.length }
    writeKnownIncoming data
    directTransport)
  let applied ← directly manifest directWriteTransfer
  when (← madeDirectJournal previous) (cleanDirect applied.toBool)
  leaveDirect previous
  match applied with
  | .error failure => fail (failure.named 2263)
  | .ok () => return ()

/-- The file goes through a slot of the new token and is unlinked there. -/
def directRemove : M Unit := do
  let token := (← theJournal).token
  let file ← theFile
  let incoming ← info (incomingPath token)
  require silent incoming.isNone
  saveJournal
  runKnownFilePairs [⟨.protectedSource file.target, incomingPath token⟩]
  waitKnownFile (incomingPath token) false
  let row ← the (xfatcError 2265) (← info (incomingPath token))
  require (xfatcError 2265) (row.kind == .regular)
  removeOwned (incomingPath token) .regular

/-- The removal of `deleteConfiguredAbsoluteFile:`, once the manifest is known. -/
def directDeleteTransfer (manifest : DirectManifest) : M Unit := do
  writeBooksBytes manifest.published booksManifestPath
  runATC
  verifyKnownTargetLink
  let destination ← knownFileDestination
  match ← attempt (info destination) with
  | .ok none => updateSession fun session => { session with deletionAbsenceConfirmed := true }
  | .ok (some row) =>
    require (xfatcError 2265) (row.kind == .regular)
    directRemove
  | .error failure =>
    require (failure.named 2266) (isPermDenied failure)
    directRemove

/-- `deleteConfiguredAbsoluteFile:error:`. -/
def deleteConfiguredAbsoluteFile (path : Text) : M Unit := do
  let target ← knownFileTarget 2264 path
  let previous ← asks (·.session.journal)
  updateSession fun session => { session with directWriteActive := true }
  clearDeletedBackup
  let manifest ← attempt (do
    prepareDirectWrite target
    updateFile fun file => { file with operation := .directDelete }
    updateJournal fun journal =>
      { journal with
        fileManifest := some [.stagedLink journal.token, .protectedSource target] }
    directTransport)
  let deleted ← directly manifest directDeleteTransfer
  when (← madeDirectJournal previous) do
    cleanDirect deleted.toBool
    updateFile fun file => { file with committed := deleted.toBool }
    let _ ← attempt saveJournal
  leaveDirect previous
  match deleted with
  | .error failure => fail (failure.named 2267)
  | .ok () => return ()

/-- A row of a listing. -/
structure ListedEntry where
  name : Name
  isDirectory : Bool
  typeKnown : Bool
  deriving DecidableEq, Repr

def listEntry (link : Path) (name : Name) : M ListedEntry := do
  let kind := match ← attempt (afcGetFileInfo (link ++ [name])) with
    | .ok (some row) => some row.kind
    | _ => none
  return ⟨name, kind == some .directory, kind == some .directory || kind == some .regular⟩

def listEntries (link : Path) : List Name → M (List ListedEntry)
  | [] => pure []
  | name :: rest => do
    let row ← listEntry link name
    return row :: (← listEntries link rest)

/-- What `listAbsoluteDirectory:` does between its journal and its end. -/
def listPrepared (token : Token) : M (List ListedEntry) := do
  openTransaction
  let found ← names (linkPath token)
  listEntries (linkPath token) found

/-- `listAbsoluteDirectory:error:`. -/
def listAbsoluteDirectory (path : Text) : M (List ListedEntry) := do
  let target ← the (xfatcError 2133) (xfatcPath path)
  recoverPendingTransaction
  openAFC
  let token ← attempt (do
    createJournalDirectory
    recoverRegisteredBooksMarker
    let token ← freshUUID
    reserveNames 2134 token
    return token)
  match token with
  | .error failure =>
    closeAFC
    fail failure
  | .ok token =>
    let w ← get
    setJournal (some (newJournal w token target))
    let rows ← attempt (listPrepared token)
    closeAFC
    when (← localExists (← asks fun w => activeName w.session)) do
      require (xfatcError 2137) (← succeeds recoverPendingTransaction)
    match rows with
    | .ok rows => return rows
    | .error failure => fail (failure.named 2138)

end XitForge.Directory
