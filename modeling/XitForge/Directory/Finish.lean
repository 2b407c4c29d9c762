import XitForge.Directory.Recovery

/-!
The end of a transaction: the app file is recovered, Books is restored, and what
the transaction generated is removed object by object. `active.plist` goes last.
-/
namespace XitForge.Directory

open Program Program.Prog Foundation

variable [Foundation]

/-- `restoreBooks:`. -/
def restoreBooks : M Unit := do
  let journal ← theJournal
  if journal.booksInPlace then restoreBooksInPlace
  else
    let backup ← info (backupPath journal.token ++ [.books])
    let current ← info booksPath
    let original := journal.booksOriginallyPresent == some true
    if journal.legacyBooksCopy.isSome ||
        (original && backup.isSome && journal.booksIsolationStarted) then
      restoreLegacyBooksCopy
    else if !journal.booksIsolationStarted then
      require (xfatcError 2141) backup.isNone
      updateJournal fun journal => { journal with booksRestored := true }
      saveJournal
    else if original && backup.isNone then
      require (xfatcError 2125) (current.any fun row => row.kind == .directory)
      require (xfatcError 2125) (← succeeds (preimageMatches booksPath))
      updateJournal fun journal => { journal with booksRestored := true }
      saveJournal
    else if journal.booksRestored then
      require (xfatcError 2126) !original
      require (xfatcError 2127) current.isNone
    else
      require (xfatcError 2130) (!original && backup.isNone)
      when current.isSome (cleanExactTemporaryBooks booksPath)
      updateJournal fun journal => { journal with booksRestored := true }
      saveJournal

/-- `validateGeneratedTree:allowed:error:`; every level is an allowed path. -/
def validateGeneratedTree (allowed : List (Path × Kind)) : ℕ → Path → M Unit
  | 0, _ => fail silent
  | fuel + 1, path => do
    match ← info path with
    | none => return ()
    | some row =>
      require silent (row.kind == .directory && allowed.lookup path == some .directory)
      let found ← names path
      each (fun name => do
        let child := path ++ [name]
        let kind ← the silent (allowed.lookup child)
        let stat ← the silent (← info child)
        require silent (stat.kind == kind)
        when (stat.kind == .directory) (validateGeneratedTree allowed fuel child)
        require silent (stat.kind != .other)) found

/-- `length` of an `NSString`. -/
def utf16Length (text : Text) : ℕ := (text.map fun c => if c.toNat < 65536 then 1 else 2).sum

/-- The order in which the directories are removed: longer paths first. -/
def removedBefore (a b : Path) : Prop :=
  utf16Length (pathText b) < utf16Length (pathText a) ∨
    (utf16Length (pathText b) = utf16Length (pathText a) ∧
      lexLess (pathText a) (pathText b) = false)

instance (a b : Path) : Decidable (removedBefore a b) := by
  unfold removedBefore
  infer_instance

/-- A generated link is unlinked itself, if it still has the expected target. -/
def removeGeneratedLink (tail : AppPath) (link : Path) : M Unit := do
  match ← info link with
  | none => return ()
  | some row =>
    require silent (isExpectedLink tail row)
    removeOwned link .link

def stageDirectories (token : Token) (tail : AppPath) : List Path :=
  (xfatcDirectories tail).map (sourcePath token ++ ·)

def zipMetadataPath (token : Token) : Path := sourcePath token ++ [.metaInf, .zipMetadata]

def payloadPath (token : Token) : Path := sourcePath token ++ [.payload]

/-- The objects the source directory may hold. -/
def stageAllowed (journal : Journal) : List (Path × Kind) :=
  [(sourcePath journal.token, .directory), (zipMetadataPath journal.token, .regular),
      (stagedLinkPath journal.token, .link)] ++
    (if journal.archiveProfile then [(payloadPath journal.token, .regular)] else []) ++
    (stageDirectories journal.token journal.tail).map fun path => (path, .directory)

/-- The metadata of the archive, if it is what was written. -/
def removeZipMetadata (token : Token) : M Unit := do
  match ← info (zipMetadataPath token) with
  | none => return ()
  | some row =>
    require silent (row.kind == .regular)
    let actual ← readSnapshot (zipMetadataPath token) row.size
    require silent (propertyList actual == some .zipMetadata)
    removeOwned (zipMetadataPath token) .regular

/-- The last file of the archive, if it is what was written. -/
def removePayload (token : Token) : M Unit := do
  match ← info (payloadPath token) with
  | none => return ()
  | some row =>
    require silent (row.kind == .regular && row.size == directoryMarker.length)
    let actual ← readSnapshot (payloadPath token) directoryMarker.length
    require silent (actual == directoryMarker)
    removeOwned (payloadPath token) .regular

/-- `cleanGeneratedStage:`. -/
def cleanGeneratedStage : M Unit := do
  let journal ← theJournal
  let token := journal.token
  let allowed := stageAllowed journal
  validateGeneratedTree allowed (allowed.length + 1) (sourcePath token)
  removeGeneratedLink journal.tail (linkPath token)
  removeGeneratedLink journal.tail (stagedLinkPath token)
  removeZipMetadata token
  when journal.archiveProfile (removePayload token)
  each (fun path => removeOwned path .directory)
    ((stageDirectories token journal.tail).insertionSort removedBefore)
  removeOwned (sourcePath token) .directory

/-- One of the shared directories: gone, or still there with another use. -/
def cleanSharedDirectory (path : Path) (ownership : Option Ownership) : M Bool := do
  match ownership with
  | none => return true
  | some row =>
    match ← attempt (info path) with
    | .ok none => return true
    | .error _ => return false
    | .ok (some current) =>
      if row.createdInfo.any (fun created => created.creation == current.creation) &&
          current.kind == .directory then
        match ← attempt (names path) with
        | .ok [] => succeeds (removeOwned path .directory)
        | _ => return false
      else return false

/-- `cleanCreatedAirlock:`. -/
def cleanCreatedAirlock : M Bool := do
  let journal ← theJournal
  let book ← cleanSharedDirectory [.airlock, .book] journal.airlockBookOwnership
  let airlock ← cleanSharedDirectory [.airlock] journal.airlockOwnership
  return book && airlock

/-- The backup directory goes when only its owner marker is left. -/
def removeBackup (token : Token) : M Bool := do
  match ← attempt (info (backupPath token)) with
  | .ok none => return true
  | .error _ => return false
  | .ok (some _) =>
    match ← attempt (names (backupPath token)) with
    | .error _ => return false
    | .ok left =>
      if left == [] || left == [.ownerPlist] then
        succeeds (do
          removeOwned (ownerPath token) .regular
          removeOwned (backupPath token) .directory)
      else return false

/-- The journal of a transaction whose cleanup is incomplete stays readable. -/
def retainJournal : M Unit := do
  saveJournal
  let journal ← theJournal
  when (← localExists (.retained journal.token)) do
    let prior ← localRead (.retained journal.token)
    let w ← get
    require (xfatcError 2142) (match prior with
      | .journal record => validJournal w.namespaceName w.disk record &&
          record.token == journal.token && record.booksRestored
      | _ => false)
  writeAtomic (.retained journal.token) (.journal journal)

def fileReceipt (journal : Journal) (file : KnownFile) : FileReceipt where
  token := journal.token
  namespaceName := journal.namespaceName
  target := file.target
  originalDigest := file.originalDigest
  originalSize := file.originalSize
  committed := file.committed
  originalReturned := file.originalReturned

def completedWrite (token : Token) (file : KnownFile) : CompletedWrite where
  token := token
  target := file.target
  operation := file.operation
  newDigest := file.newDigest
  newVerified := file.newVerified
  committed := file.committed
  originalReturned := file.originalReturned

/-- The local copies of the tracked files, once nothing needs them any more. -/
def removePreimages (token : Token) : List TrackedRow → ℕ → M Unit
  | [], _ => pure ()
  | .absent :: rest, index => removePreimages token rest (index + 1)
  | .present _ _ :: rest, index => do
    let _ ← attempt (localRemove (.preimage token index))
    removePreimages token rest (index + 1)

/-- What `finishRecovery:` removes; whether everything could be. -/
def cleanUp (committedDelete : Bool) : M Bool := do
  let token := (← theJournal).token
  let stageClean ← succeeds cleanGeneratedStage
  let booksClean ← succeeds (cleanExactTemporaryBooks (temporaryPath token))
  let workingClean ← succeeds (cleanExactTemporaryBooks (workingPath token))
  let airlockClean ← cleanCreatedAirlock
  if stageClean && booksClean && workingClean && airlockClean then
    if committedDelete then return true else removeBackup token
  else return false

/-- A replacement leaves a receipt of the original it captured. -/
def writeFileReceipt (journal : Journal) : M Unit := do
  match journal.knownFile with
  | some file =>
    when (file.operation == .replace && file.originalCaptured) do
      writeAtomic (.fileReceipt journal.token) (.fileReceipt (fileReceipt journal file))
      xfatcSyncURL
      xfatcSyncURL
  | none => return ()

/-- The local side of the end of a transaction. -/
def closeTransaction (committedDelete cleanupComplete : Bool) : M Unit := do
  updateJournal fun journal =>
    { journal with
      deleteBackupRetained := committedDelete || journal.deleteBackupRetained
      cleanupComplete := cleanupComplete }
  when (!cleanupComplete) retainJournal
  let journal ← theJournal
  writeFileReceipt journal
  localRemove (← asks fun w => activeName w.session)
  when committedDelete xfatcSyncURL
  when cleanupComplete (removePreimages journal.token (journal.trackedPreimage.getD []) 0)
  updateSession fun session =>
    { session with
      completedKnownWrite :=
        (journal.knownFile.map (completedWrite journal.token)).or session.completedKnownWrite
      journal := none }

/-- `finishRecovery:`. -/
def finishRecovery : M Unit := do
  verifyRemoteOwner
  recoverKnownFile false
  let committedDelete := (← theJournal).knownFile.any fun file =>
    file.operation == .delete && file.committed
  restoreBooks
  let cleanupComplete ← cleanUp committedDelete
  closeTransaction committedDelete cleanupComplete

/-- `recoverRegisteredBooksMarker:`. -/
def recoverRegisteredBooksMarker : M Unit := do
  match ← info booksMarkerPath with
  | none => return ()
  | some row =>
    require (xfatcError 2256) (row.kind == .regular && decide (row.size ≤ 4096))
    let bytes ← readSnapshot booksMarkerPath row.size
    match propertyList bytes with
    | some (.owner token namespaceName) =>
      let here ← asks (·.namespaceName)
      require (xfatcError 2256) (namespaceName == here)
      require (xfatcError 2256) !(← localExists .active)
      let stored ← asks fun w => w.disk.lookup (.retained token)
      require (xfatcError 2259) (stored.any fun stored =>
        stored.isRegular && decide (localSize stored ≤ 8 * 1024 * 1024))
      match ← localRead (.retained token) with
      | .journal record =>
        let w ← get
        require (xfatcError 2259) (record.token == token && record.namespaceName == namespaceName &&
          validJournal w.namespaceName w.disk record)
        setJournal (some record)
        booksOwnerMatches booksPath
        verifyRemoteOwner
        saveJournal
        xfatcSyncURL
        xfatcSyncURL
        finishRecovery
      | _ => fail (xfatcError 2259)
    | _ => fail (xfatcError 2256)

/-- `recoverPendingTransaction:`. -/
def recoverPendingTransaction : M Unit := do
  let name ← asks fun w => activeName w.session
  if !(← localExists name) then loadLatestDeletedBackup
  else
    let stored ← localRead name
    let w ← get
    match stored with
    | .journal record =>
      require (xfatcError 2132) (validJournal w.namespaceName w.disk record)
      setJournal (some record)
      openAFC
      let result ← attempt finishRecovery
      closeAFC
      rethrow result
    | _ => fail (xfatcError 2132)

/-- `recoverPendingKnownFileAtPath:error:`. -/
def recoverPendingKnownFileAtPath (path : Text) : M Unit := do
  let target ← the (xfatcError 2213) (xfatcPath path)
  let stored ← localRead (← asks fun w => activeName w.session)
  let w ← get
  match stored with
  | .journal record =>
    require (xfatcError 2217) (validJournal w.namespaceName w.disk record &&
      (record.knownFile.any fun file => file.target == target))
    setJournal (some record)
    let result ← attempt (do
      openAFC
      verifyRemoteOwner
      require (xfatcError 2222) !(record.knownFile.any fun file => file.committed)
      recoverKnownFile true)
    closeAFC
    rethrow result
    recoverPendingTransaction
  | _ => fail (xfatcError 2217)

/-- `finishKnownFileWithError:`. -/
def finishKnownFile : M Unit := do
  closeAFC
  when (← localExists (← asks fun w => activeName w.session)) recoverPendingTransaction

end XitForge.Directory
