import XitForge.Directory.KnownFile

/-!
`recoverKnownFile:`, shared by automatic recovery and the explicit restore. It
looks at the three file slots of the backup once and goes through its cases in a
fixed order; a case that moves a file goes on with the slots it left.
-/
namespace XitForge.Directory

open Program Program.Prog Foundation

variable [Foundation]

inductive XFATCFilePresence where
  | unknown
  | missing
  | present
  deriving DecidableEq, Repr

inductive XFATCFileRecoveryOperation where
  | read
  | replace
  | delete
  deriving DecidableEq, Repr

structure XFATCFileRecoveryObservation where
  operation : XFATCFileRecoveryOperation
  original : XFATCFilePresence
  incoming : XFATCFilePresence
  verify : XFATCFilePresence
  target : XFATCFilePresence
  originalCaptured : Bool := false
  replacementVerified : Bool := false
  returnOriginalIntent : Bool := false
  placementIntent : Bool := false
  returnReplacementIntent : Bool := false
  committed : Bool := false
  deriving DecidableEq, Repr

inductive XFATCFileRecoveryDecision where
  | pending
  | readReturnConfirmed
  | writeCommitted
  | originalRestoreCandidate
  | deleteCommitted
  deriving DecidableEq, Repr

/-- `XFATCClassifyFileRecovery`. -/
def xfatcClassifyFileRecovery (state : XFATCFileRecoveryObservation) : XFATCFileRecoveryDecision :=
  if state.original = .unknown ∨ state.incoming = .unknown ∨ state.verify = .unknown ∨
      !state.originalCaptured then .pending
  else
    match state.operation with
    | .delete =>
      if state.committed ∧ state.original = .present ∧ state.incoming = .missing ∧
          state.verify = .missing ∧ state.target ≠ .present ∧ !state.returnOriginalIntent ∧
          !state.placementIntent ∧ !state.returnReplacementIntent ∧ !state.replacementVerified then
        .deleteCommitted
      else .pending
    | .read =>
      if state.incoming ≠ .missing ∨ state.verify ≠ .missing ∨ state.placementIntent ∨
          state.returnReplacementIntent ∨ state.replacementVerified ∨ state.committed then .pending
      else if state.original = .missing ∧ state.returnOriginalIntent ∧ state.target ≠ .missing then
        .readReturnConfirmed
      else if state.original = .present ∧ state.target = .missing then .originalRestoreCandidate
      else .pending
    | .replace =>
      if state.returnOriginalIntent then .pending
      else if state.committed ∧ state.placementIntent ∧ state.replacementVerified ∧
          state.returnReplacementIntent ∧ state.incoming = .missing ∧ state.verify = .missing ∧
          state.target ≠ .missing then .writeCommitted
      else if !state.committed ∧ !state.placementIntent ∧ !state.returnReplacementIntent ∧
          !state.replacementVerified ∧ state.original = .present ∧ state.verify = .missing ∧
          state.target = .missing then .originalRestoreCandidate
      else .pending

/-- `knownFilePending:`. -/
def knownFilePending : Failure := xfatcError 2210

def maxProbeBytes : ℕ := 1024

/-- The branch of `recoverKnownFile:` for a journal of a creation. -/
def recoverCreate : M Unit := do
  let journal ← theJournal
  let token := journal.token
  let file ← theFile
  require silent (validKnownFileJournal journal)
  if file.committed then return ()
  if (← info (verifyPath token)).isSome then
    let bytes ← readKnownStage (verifyPath token) maxFileBytes
    require silent (file.newDigest == some (sha256 bytes))
    updateFile fun file => { file with newVerified := true }
    saveJournal
    returnKnownReplacement
  else if file.newVerified && file.returnNewIntent then
    let incoming ← info (incomingPath token)
    require silent incoming.isNone
    updateFile fun file => { file with committed := true }
    saveJournal
  else if file.incomingPlaceIntent then fail knownFilePending
  else if (← info (incomingPath token)).isSome then
    let bytes ← readKnownStage (incomingPath token) maxFileBytes
    require silent (file.newDigest == some (sha256 bytes))
    removeOwned (incomingPath token) .regular

/-- A staged copy of the probe is removed; other bytes are kept. -/
def discardProbeStage (expected : Option Bytes) (path : Path) : M Unit := do
  match ← info path with
  | none => return ()
  | some _ =>
    match ← attempt (readKnownStage path maxProbeBytes) with
    | .ok bytes => if some bytes = expected then removeOwned path .regular
    | .error _ => return ()

/-- The branch of `recoverKnownFile:` for a journal of a creation probe. -/
def recoverCreateProbe : M Unit := do
  let journal ← theJournal
  let file ← theFile
  require silent (validKnownFileJournal journal)
  let original ← info (originalPath journal.token)
  require (xfatcError 2240) original.isNone
  let expected := xfProbeContents file.target
  discardProbeStage expected (incomingPath journal.token)
  discardProbeStage expected (verifyPath journal.token)

/-- What `recoverKnownFile:` saw in the three slots. -/
structure Slots where
  original : Option FileInfo
  incoming : Option FileInfo
  verify : Option FileInfo
  deriving DecidableEq, Repr

def Slots.taken (slots : Slots) : Slots := { slots with incoming := none, verify := none }

/-- The replacement was placed and may not have been read back. -/
def resumeReadBack (explicitRestore : Bool) (slots : Slots) : M Slots := do
  let file ← theFile
  if !explicitRestore && file.operation == .replace && file.incomingPlaceIntent &&
      file.originalCaptured && !file.committed && !file.originalReturned && !file.newVerified &&
      !file.returnNewIntent && slots.incoming.isNone && slots.verify.isNone &&
      slots.original.isSome then
    restoreBatchLinkForAutomaticRecovery
    readBackInterruptedReplacement
    return slots.taken
  else return slots

/-- The replacement is still staged. -/
def resumePlacement (explicitRestore : Bool) (slots : Slots) : M Slots := do
  let token := (← theJournal).token
  let file ← theFile
  if !explicitRestore && file.operation == .replace && file.incomingPlaceIntent &&
      file.originalCaptured && !file.committed && !file.originalReturned &&
      slots.incoming.isSome && slots.verify.isNone && slots.original.isSome then
    let kept ← validatedLocalOriginal token file.originalDigest file.originalSize
    let remote ← readKnownStage (originalPath token) maxFileBytes
    let payload ← readKnownStage (incomingPath token) maxFileBytes
    require silent (kept == remote && matchesNew file payload)
    restoreBatchLinkForAutomaticRecovery
    placePreparedReplacementData payload
    return slots.taken
  else return slots

/-- The replacement was read back: this case has no guard for an explicit restore. -/
def resumeReturn (slots : Slots) : M Slots := do
  let token := (← theJournal).token
  let file ← theFile
  if file.operation == .replace && !file.committed && file.incomingPlaceIntent &&
      file.originalCaptured && slots.verify.isSome && slots.incoming.isNone then
    let bytes ← readKnownStage (verifyPath token) maxFileBytes
    require silent (matchesNew file bytes)
    updateFile fun file => { file with newVerified := true }
    saveJournal
    restoreBatchLinkForAutomaticRecovery
    publishKnownManifestForBatch false
    returnKnownReplacement
    return { slots with verify := none }
  else return slots

/-- A refused look leaves the target unknown, which is never taken for absence. -/
def observeTarget : M XFATCFilePresence := do
  restoreBatchLinkForAutomaticRecovery
  verifyKnownTargetLink
  let destination ← knownFileDestination
  match ← attempt (info destination) with
  | .ok none => return .missing
  | .ok (some _) => return .present
  | .error failure =>
    require failure (isPermDenied failure)
    return .unknown

/-- The staged replacement is discarded, if there is one. -/
def discardStaged (slots : Slots) : M Bool :=
  if slots.incoming.isSome then succeeds discardKnownIncomingForAutomaticRecovery else pure true

/-- The checks that let the original go back on its own; the staged replacement
is discarded first. -/
def safeOriginalReturn (slots : Slots) (target : XFATCFilePresence) : M Bool := do
  let token := (← theJournal).token
  let file ← theFile
  if (file.operation == .read || file.operation == .replace) && file.originalCaptured &&
      file.originalMoveIntent && !file.originalReturned &&
      slots.original.any (fun row => row.kind == .regular) && slots.verify.isNone &&
      target == .missing && !file.newVerified && !file.returnNewIntent && !file.committed then
    match ← attempt (readKnownStage (originalPath token) maxFileBytes) with
    | .error _ => return false
    | .ok bytes =>
      if file.originalDigest != some (sha256 bytes) then return false
      else if ← discardStaged slots then succeeds restoreBatchLinkForAutomaticRecovery
      else return false
  else return false

def presenceOf (row : Option FileInfo) : XFATCFilePresence :=
  if row.isNone then .missing else .unknown

/-- The bytes of the original in the backup, if they can be read. -/
def stagedOriginal (token : Token) (slots : Slots) : M (Option Bytes) := do
  if slots.original.isSome then
    return (← attempt (readKnownStage (originalPath token) maxFileBytes)).toOption
  else return none

/-- A committed deletion keeps both originals; only its receipt is completed. -/
def recoverCommittedDelete (slots : Slots) : M Unit := do
  let token := (← theJournal).token
  let file ← theFile
  let kept ← attempt (validatedLocalOriginal token file.originalDigest file.originalSize)
  let remote ← stagedOriginal token slots
  let validated := remote.any fun bytes => file.originalDigest == some (sha256 bytes)
  require knownFilePending
    (xfatcClassifyFileRecovery
      { operation := .delete
        original := if validated then .present else .unknown
        incoming := presenceOf slots.incoming
        verify := presenceOf slots.verify
        target := .unknown
        originalCaptured := kept.toOption.isSome
        committed := true } = .deleteCommitted)
  publishDeleteReceipt

/-- A committed replacement: the original in the backup goes once the local copy
was compared with its digest. -/
def recoverCommittedReplacement (slots : Slots) (target : XFATCFilePresence) : M Unit := do
  let token := (← theJournal).token
  let file ← theFile
  require silent file.originalCaptured
  let digest ← the silent file.originalDigest
  let kept ← localBytes (.original token)
  require silent (kept.length == file.originalSize.getD 0 && sha256 kept == digest)
  when slots.original.isSome do
    let bytes ← readKnownStage (originalPath token) maxFileBytes
    require silent (sha256 bytes == digest)
  require knownFilePending
    (xfatcClassifyFileRecovery
      { operation := .replace
        original := if slots.original.isNone then .missing else .present
        incoming := presenceOf slots.incoming
        verify := presenceOf slots.verify
        target := target
        originalCaptured := true
        replacementVerified := file.newVerified
        placementIntent := file.incomingPlaceIntent
        returnReplacementIntent := file.returnNewIntent
        committed := true } = .writeCommitted)
  when slots.original.isSome (removeOwned (originalPath token) .regular)

/-- A captured original must still have its digest; another one is observed now. -/
def checkOriginal : M Unit := do
  let token := (← theJournal).token
  let file ← theFile
  if file.originalCaptured then
    let bytes ← readKnownStage (originalPath token) maxFileBytes
    require silent (file.originalDigest == some (sha256 bytes))
  else
    updateFile fun file => { file with originalObserved := true }
    saveJournal

/-- The original goes back on request, over whatever is at the target. -/
def restoreExplicitly (original : FileInfo) : M Unit := do
  require silent (original.kind != .other)
  checkOriginal
  returnKnownOriginal false

/-- The cases after the target was looked at. -/
def recoverReturned (explicitRestore : Bool) (slots : Slots) (target : XFATCFilePresence) :
    M Unit := do
  let file ← theFile
  if file.originalReturned && slots.original.isNone then
    require knownFilePending (!(file.operation == .read && file.originalCaptured) ||
      xfatcClassifyFileRecovery
        { operation := .read
          original := .missing
          incoming := presenceOf slots.incoming
          verify := presenceOf slots.verify
          target := target
          originalCaptured := true
          returnOriginalIntent := true } = .readReturnConfirmed)
  else if file.returnOriginalIntent && file.originalObserved && slots.original.isNone then
    updateFile fun file => { file with originalReturned := true }
    saveJournal
  else
    when (file.newVerified && file.returnNewIntent && slots.verify.isNone &&
        slots.incoming.isNone) do
      updateFile fun file => { file with committed := true }
      saveJournal
    if (← theFile).committed then recoverCommittedReplacement slots target
    else
      match explicitRestore, slots.original with
      | true, some original => restoreExplicitly original
      | _, _ => fail knownFilePending

/-- `recoverKnownFile:` for a journal of a read, a replacement or a deletion. -/
def recoverMoved (explicitRestore : Bool) : M Unit := do
  let journal ← theJournal
  let token := journal.token
  let file ← theFile
  if !file.originalMoveIntent then return ()
  require silent (validKnownFileJournal journal)
  require knownFilePending (explicitRestore || !file.readBackMismatch)
  let committedDelete := file.operation == .delete && file.committed
  require (xfatcError 2224) !(committedDelete && explicitRestore)
  let original ← info (originalPath token)
  let verify ← info (verifyPath token)
  let incoming ← info (incomingPath token)
  let slots ← resumeReadBack explicitRestore ⟨original, incoming, verify⟩
  let slots ← resumePlacement explicitRestore slots
  let slots ← resumeReturn slots
  if file.operation == .delete then
    if committedDelete then recoverCommittedDelete slots
    else recoverReturned explicitRestore slots .unknown
  else
    let target ← observeTarget
    if ← safeOriginalReturn slots target then returnKnownOriginal true
    else recoverReturned explicitRestore slots target

/-- `recoverKnownFile:error:`. -/
def recoverKnownFile (explicitRestore : Bool) : M Unit := do
  match (← theJournal).knownFile with
  | none => return ()
  | some file =>
    match file.operation with
    | .create => recoverCreate
    | .createProbe => recoverCreateProbe
    | _ => recoverMoved explicitRestore

end XitForge.Directory
