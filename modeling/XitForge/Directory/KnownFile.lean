import XitForge.Directory.AirTraffic

/-!
The moves of one app file. Each step writes its intent to the journal, lets
AirTraffic move the file, and takes the absence or presence of the source or the
destination in the backup directory for the result.
-/
namespace XitForge.Directory

open Program Program.Prog Foundation

variable [Foundation]

/-- A copy that is there must be the same; it is never replaced. -/
def copyKnownOriginal (token : Token) (data : Bytes) : M Unit := do
  if ← localExists (.original token) then
    let prior ← the (xfatcError 2206) (← localRead (.original token)).data
    require (xfatcError 2206) (prior == data)
  else writeNewBytes (.original token) data

/-- `persistKnownOriginal:error:`. -/
def persistKnownOriginal (data : Bytes) : M Unit := do
  copyKnownOriginal (← theJournal).token data
  xfatcSyncURL
  xfatcSyncURL
  updateFile fun file =>
    { file with
      originalDigest := some (sha256 data), originalSize := some data.length
      originalCaptured := true }
  saveJournal

/-- `returnKnownOriginal:requireDestinationAbsent:`. -/
def returnKnownOriginal (requireDestinationAbsent : Bool) : M Unit := do
  let token := (← theJournal).token
  let destination ← knownFileDestination
  when requireDestinationAbsent do
    let found ← info destination
    require (xfatcError 2225) found.isNone
  updateFile fun file => { file with returnOriginalIntent := true }
  saveJournal
  runKnownFilePairs [⟨.media (originalPath token), destination⟩]
  waitKnownFile (originalPath token) true
  updateFile fun file => { file with originalReturned := true }
  saveJournal

/-- `returnKnownReplacement:`. -/
def returnKnownReplacement : M Unit := do
  let token := (← theJournal).token
  require silent (← theFile).newVerified
  let destination ← knownFileDestination
  updateFile fun file => { file with returnNewIntent := true }
  saveJournal
  runKnownFilePairs [⟨.media (verifyPath token), destination⟩]
  waitKnownFile (verifyPath token) true
  updateFile fun file => { file with committed := true }
  saveJournal

def isPermDenied (failure : Failure) : Bool := failure.code == 106 && failure.native == some 10

/-- A refused look at the target is neither absence nor a failure. -/
def preflight : Except Failure (Option FileInfo) → M Unit
  | .ok found => require (xfatcError 2221) (found.any fun row => row.kind == .regular)
  | .error failure => require failure (isPermDenied failure)

/-- `observeKnownOriginal:`. The file is moved and looked at in the backup. -/
def observeKnownOriginal : M Unit := do
  let token := (← theJournal).token
  let file ← theFile
  let destination ← knownFileDestination
  let found ← attempt (info destination)
  preflight found
  updateFile fun file => { file with originalMoveIntent := true }
  saveJournal
  runKnownFilePairs [⟨.protectedSource file.target, originalPath token⟩]
  waitKnownFile (originalPath token) false
  let found ← info (originalPath token)
  require silent found.isSome
  updateFile fun file => { file with originalObserved := true }
  saveJournal

/-- `publishKnownManifestForBatch:error:`. -/
def publishKnownManifestForBatch (batch : Bool) : M Unit := do
  verifyRemoteOwner
  booksOwnerMatches booksPath
  let row ← the silent (← info booksManifestPath)
  require silent (row.kind == .regular && decide (row.size ≤ 65536))
  let before ← readSnapshot booksManifestPath row.size
  let token := (← theJournal).token
  let file ← theFile
  let previous := propertyList before
  let full := knownManifestForBatch token file false
  let grouped := knownManifestForBatch token file true
  require (xfatcError 2250)
    (previous == some (.manifest full) || previous == some (.manifest grouped))
  let manifest := if batch then grouped else full
  let bytes := plistData (.manifest manifest)
  updateFile fun file => { file with batchPlacement := batch }
  updateJournal fun journal => { journal with fileManifest := some manifest }
  saveJournal
  afcWriteFile booksManifestPath bytes
  let row ← the silent (← info booksManifestPath)
  require silent (row.size == bytes.length)
  let observed ← readSnapshot booksManifestPath bytes.length
  require (xfatcError 2251) (observed == bytes)

/-- `restoreBatchLinkForAutomaticRecovery:`. -/
def restoreBatchLinkForAutomaticRecovery : M Unit := do
  let journal ← theJournal
  if !(← theFile).batchLinkReset then return ()
  else match ← info (linkPath journal.token) with
  | some external => require (xfatcError 2226) (isExpectedLink journal.tail external)
  | none =>
    let staged ← info (stagedLinkPath journal.token)
    require (xfatcError 2226) (staged.any (isExpectedLink journal.tail))
    runATC
    verifyKnownTargetLink

/-- `discardKnownIncomingForAutomaticRecovery:`. -/
def discardKnownIncomingForAutomaticRecovery : M Unit := do
  let token := (← theJournal).token
  let file ← theFile
  match ← info (incomingPath token) with
  | none => return ()
  | some row =>
    require (xfatcError 2227) (row.kind == .regular && file.newDigest.isSome)
    let bytes ← readKnownStage (incomingPath token) maxFileBytes
    require (xfatcError 2227) (file.newDigest == some (sha256 bytes))
    removeOwned (incomingPath token) .regular
    updateFile fun file => { file with incomingPlaceIntent := false }
    saveJournal

/-- The bytes have the recorded size and digest of the replacement. -/
def matchesNew (file : KnownFile) (bytes : Bytes) : Bool :=
  file.newSize.getD 0 == bytes.length && file.newDigest == some (sha256 bytes)

/-- The target read back is not the replacement: it stays where it was found, or
goes back if nothing is there, and the operation has failed. -/
def keepUnexpectedReadBack (token : Token) (target : AppPath) : M Unit := do
  updateFile fun file => { file with readBackMismatch := true }
  saveJournal
  let authorized ← succeeds (do
    requireProbeDestinationAbsent
    saveJournal)
  when authorized do
    let _ ← attempt (runKnownFilePairs [⟨.media (verifyPath token), throughLink token target⟩])
    let _ ← attempt (waitKnownFile (verifyPath token) true)
  fail (xfatcError 2261)

/-- `readBackInterruptedReplacement:`. -/
def readBackInterruptedReplacement : M Unit := do
  let token := (← theJournal).token
  let file ← theFile
  let kept ← validatedLocalOriginal token file.originalDigest file.originalSize
  let remote ← readKnownStage (originalPath token) maxFileBytes
  require silent (kept == remote)
  verifyKnownTargetLink
  let incoming ← info (incomingPath token)
  require silent incoming.isNone
  let verify ← info (verifyPath token)
  require silent verify.isNone
  publishKnownManifestForBatch false
  updateFile fun file => { file with verifyMoveIntent := true }
  saveJournal
  runKnownFilePairs [⟨.protectedSource file.target, verifyPath token⟩]
  waitKnownFile (verifyPath token) false
  let bytes ← readKnownStage (verifyPath token) maxFileBytes
  if !matchesNew file bytes then keepUnexpectedReadBack token file.target
  else
    updateFile fun file => { file with newVerified := true }
    saveJournal
    returnKnownReplacement

/-- `placePreparedReplacementData:error:`. -/
def placePreparedReplacementData (data : Bytes) : M Unit := do
  let token := (← theJournal).token
  let file ← theFile
  verifyKnownTargetLink
  let verify ← info (verifyPath token)
  require (xfatcError 2260) verify.isNone
  let staged ← readKnownStage (incomingPath token) maxFileBytes
  require silent (staged == data && file.newDigest == some (sha256 staged))
  publishKnownManifestForBatch false
  updateFile fun file => { file with incomingPlaceIntent := true, verifyMoveIntent := true }
  saveJournal
  runKnownFilePairs
    [⟨.media (incomingPath token), throughLink token file.target⟩,
      ⟨.protectedSource file.target, verifyPath token⟩]
  waitKnownFile (incomingPath token) true
  waitKnownFile (verifyPath token) false
  let observed ← readKnownStage (verifyPath token) maxFileBytes
  require (xfatcError 2215) (observed == data)
  updateFile fun file => { file with newVerified := true }
  saveJournal
  returnKnownReplacement

/-- The new file is staged, placed at the absent target, taken back, compared
and returned: `createPreparedFileWithData:` and the probe of `createTestAbsoluteFile:`. -/
def placeNewFile (data : Bytes) (limit : ℕ) : M Unit := do
  let token := (← theJournal).token
  let target := (← theFile).target
  updateFile fun file => { file with newDigest := some (sha256 data), newSize := some data.length }
  saveJournal
  writeKnownIncoming data
  updateFile fun file => { file with incomingPlaceIntent := true }
  saveJournal
  runKnownFilePairs [⟨.media (incomingPath token), throughLink token target⟩]
  waitKnownFile (incomingPath token) true
  updateFile fun file => { file with verifyMoveIntent := true }
  saveJournal
  runKnownFilePairs [⟨.protectedSource target, verifyPath token⟩]
  waitKnownFile (verifyPath token) false
  let observed ← readKnownStage (verifyPath token) limit
  require (xfatcError 2244) (observed == data)
  updateFile fun file => { file with newVerified := true }
  saveJournal
  returnKnownReplacement

/-- `createPreparedFileWithData:error:`. -/
def createPreparedFileWithData (data : Bytes) : M Unit := placeNewFile data maxFileBytes

/-- `knownTargetAbsenceAfterMove:error:`: whether absence was confirmed. -/
def knownTargetAbsenceAfterMove : M Bool := do
  verifyKnownTargetLink
  let destination ← knownFileDestination
  match ← attempt (afcGetFileInfo destination) with
  | .ok none =>
    verifyKnownTargetLink
    return true
  | .ok (some _) => fail (xfatcError 2225)
  | .error failure =>
    require failure (isPermDenied failure)
    verifyKnownTargetLink
    return false

/-- The receipt `publishDeleteReceipt:` makes of the journal. -/
def deleteReceipt (journal : Journal) (file : KnownFile) : DeleteReceipt where
  token := journal.token
  namespaceName := journal.namespaceName
  target := file.target
  originalDigest := file.originalDigest.getD []
  originalSize := file.originalSize.getD 0
  targetAbsenceConfirmed := file.targetAbsenceConfirmed.getD false
  deletedAt := file.deletedAt.getD 0

/-- A receipt that is there must be the same; it is never replaced. -/
def writeDeleteReceipt (receipt : DeleteReceipt) : M Unit := do
  if ← localExists (.deleted receipt.token) then
    let prior ← localRead (.deleted receipt.token)
    require silent (decide (localSize prior ≤ 32768))
    require (xfatcError 2223) (prior == .deleteReceipt receipt)
  else writeNew (.deleted receipt.token) (.deleteReceipt receipt) fun _ => .bytes []

/-- `publishDeleteReceipt:`. -/
def publishDeleteReceipt : M Unit := do
  let journal ← theJournal
  let file ← theFile
  let w ← get
  require (xfatcError 2222) (file.operation == .delete && file.committed &&
    validJournal w.namespaceName w.disk journal)
  let _ ← validatedLocalOriginal journal.token file.originalDigest file.originalSize
  let receipt := deleteReceipt journal file
  require silent (validDeleteReceipt w.namespaceName journal.token receipt)
  writeDeleteReceipt receipt
  xfatcSyncURL
  xfatcSyncURL
  updateSession fun session =>
    { session with
      deletedFileBackup := some journal.token
      deletionAbsenceConfirmed := file.targetAbsenceConfirmed == some true }
  updateFile fun file => { file with deleteReceiptWritten := some true }
  saveJournal

def newerReceipt (latest : Option DeleteReceipt) (receipt : DeleteReceipt) : Option DeleteReceipt :=
  match latest with
  | none => some receipt
  | some prior => if prior.deletedAt < receipt.deletedAt then some receipt else latest

def deletedTokens (disk : Disk) : List Token :=
  disk.keys.filterMap fun name => match name with
    | .deleted token => some token
    | _ => none

/-- `loadLatestDeletedBackup`; a receipt that cannot be read is passed over. -/
def loadLatestDeletedBackup : M Unit := do
  updateSession fun session =>
    { session with deletedFileBackup := none, deletionAbsenceConfirmed := false }
  let w ← get
  let latest ← (deletedTokens w.disk).foldlM
    (fun latest token => do
      match ← attempt (localRead (.deleted token)) with
      | .ok (.deleteReceipt receipt) =>
        if decide (localSize (.deleteReceipt receipt) ≤ 32768) &&
            validDeleteReceipt w.namespaceName token receipt then
          return newerReceipt latest receipt
        else return latest
      | _ => return latest)
    none
  match latest with
  | none => return ()
  | some receipt =>
    if ← succeeds (do let _ ← validatedLocalOriginal receipt.token (some receipt.originalDigest)
                        (some receipt.originalSize)) then
      updateSession fun session =>
        { session with
          deletedFileBackup := some receipt.token
          deletionAbsenceConfirmed := receipt.targetAbsenceConfirmed }

end XitForge.Directory
