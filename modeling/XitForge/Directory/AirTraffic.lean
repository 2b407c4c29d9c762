import XitForge.Directory.Legacy

/-!
StreamingZip and AirTraffic. A session waits for SyncAllowed, ReadyForSync and
the asset manifest, each time answering pings and refusing what ends the
synchronization, and only then completes files. Preparation is repeated after a
transport failure as long as no FileComplete was attempted.
-/
namespace XitForge.Directory

open Program Program.Prog Foundation

variable [Foundation]

inductive WaitDecision where
  | continue
  | accept
  | pong
  | rejectSync
  | rejectEnd
  deriving DecidableEq, Repr

/-- `XFATCDecisionForMessage`. -/
def xfatcDecisionForMessage (wanted : Command) (command : Option Command) (errorCode : Option ℤ) :
    WaitDecision :=
  match command with
  | none => .continue
  | some command =>
    if command = .ping then .pong
    else if command = .syncFailed then
      if errorCode = some 4 ∧ wanted ≠ .assetManifest then .continue else .rejectSync
    else if command = .syncFinished then .rejectEnd
    else if wanted = command then .accept
    else .continue

/-- `XFATCPreparationTransportFailure`. -/
def xfatcPreparationTransportFailure (nativeError : Bool) (code subcode : ℤ) : Bool :=
  nativeError && (code == 1 || (code == 109 && subcode == 0))

/-- `XFATCShouldRetryPreparation`. -/
def xfatcShouldRetryPreparation (completedAttempts : ℕ)
    (freshTunnelAvailable transportFailure fileMoveAttempted : Bool) : Bool :=
  decide (0 < completedAttempts) && decide (completedAttempts < 3) && freshTunnelAvailable &&
    transportFailure && !fileMoveAttempted

/-- `XFProbeAFCConfirmsAbsence`. -/
def xfProbeAFCConfirmsAbsence (returnedError : Bool) (code subcode : ℤ)
    (linkValidBefore linkValidAfter : Bool) : Bool :=
  returnedError && code == 106 && subcode == 8 && linkValidBefore && linkValidAfter

/-- The rows a device that works lists for the published manifest. -/
def World.publishedRows (w : World) : Option (List ManifestRow) :=
  match w.device.lookup booksManifestPath with
  | some ⟨.file bytes, _, _⟩ =>
    match propertyList bytes with
    | some (.manifest rows) => some (rows.map fun row => ⟨row, true⟩)
    | some (.stringManifest token) => some [⟨.stagedLink token, true⟩]
    | _ => none
  | _ => none

/-- The next message of a device that works, from what it was sent last. -/
def World.nextMessage (w : World) : Option Message :=
  match w.stream.getLast? with
  | none => some { name := some .syncAllowed }
  | some .requestingSync => some { name := some .readyForSync }
  | some .finishedSyncingMetadata =>
    some { name := some .assetManifest, book := w.publishedRows }
  | _ => none

/-- A step that only passes time; its result is not looked at. -/
def pause : M Unit := do
  let _ ← attempt (query fun _ _ => .ok () : M Unit)

def rethrow {α : Type} : Except Failure α → M α
  | .ok value => pure value
  | .error failure => fail failure

def connectATC : M Unit :=
  act fun w => .ok ((w.withStream []).log .opened)

/-- `sendDictionary:` of every message but a FileComplete. -/
def send (command : Command) : M Unit :=
  act fun w => .ok (w.withStream (w.stream ++ [command]))

/-- `sendDictionary:` of a FileComplete, which the device performs or not. -/
def sendFileComplete (asset : AssetID) (destination : Path) : M Unit := fun w =>
  let c := w.choice
  let sent := w.tick.log (.fileComplete asset destination)
  let moved := (sent.withDevice (sent.device.move sent.pos asset destination)).log
    (.moved asset destination (sent.device.lookup destination))
  if c.halt then (.stopped, if c.effect then moved else sent)
  else
    match c.fault with
    | some failure => (.failed failure, if c.effect then moved else sent)
    | none => (.done (), if c.ignored then sent else moved)

/-- `receiveDictionary:` while waiting for a command. -/
def receive (wanted : Command) : M Message := do
  let message ← query fun c w =>
    match c.message.or w.nextMessage with
    | some message => .ok message
    | none => .error ⟨109, some 0⟩
  record (.received wanted message)
  return message

/-- The support of a capabilities message is kept. -/
def seenSupport (message : Message) (support : Option GrappaSupport) : Option GrappaSupport :=
  if message.name = some .capabilities then message.support.or support else support

/-- The rounds of `waitFor:` until its deadline, with the support seen so far. -/
def waitMessages (wanted : Command) :
    ℕ → Option GrappaSupport → M (Message × Option GrappaSupport)
  | 0, _ => fail (xfatcError 2118)
  | fuel + 1, support => do
    let message ← receive wanted
    match xfatcDecisionForMessage wanted message.name message.errorCode with
    | .pong =>
      send .pong
      waitMessages wanted fuel (seenSupport message support)
    | .accept => return (message, seenSupport message support)
    | .rejectSync => fail (xfatcError 2116)
    | .rejectEnd => fail (xfatcError 2117)
    | .continue => waitMessages wanted fuel (seenSupport message support)

/-- `waitFor:stream:seconds:support:error:`. -/
def waitFor (wanted : Command) : M (Message × Option GrappaSupport) := do
  let limit ← rounds
  waitMessages wanted (limit + 1) none

def supportValid (support : GrappaSupport) : Bool :=
  [support.version, support.deviceType, support.protocolVersion].all fun value =>
    value.all fun number => number.any fun n => decide (n < 2 ^ 32)

/-- From SyncAllowed to the asset manifest, which a session goes through before
any file is completed. `XFGetGrappaToken` may fail. -/
def prepareSession : M Message := do
  let (_, support) ← waitFor .syncAllowed
  require (xfatcError 2140) (support.all supportValid)
  query fun _ _ => .ok ()
  send .hostInfo
  send .requestingSync
  let _ ← waitFor .readyForSync
  send .finishedSyncingMetadata
  let (message, _) ← waitFor .assetManifest
  return message

/-- The manifest lists an asset that is to be downloaded. -/
def Message.authorizes (message : Message) (asset : AssetID) : Bool :=
  message.book.any fun rows => rows.any fun row => row.assetID == asset && row.isDownload

def markMoveAttempted (attempted : Bool) : M Unit :=
  updateSession fun session => { session with atcMoveAttempted := attempted }

/-- A link of this transaction: a symbolic link with the expected target. -/
def isExpectedLink (tail : AppPath) (row : FileInfo) : Bool :=
  row.kind == .link && row.linkTarget == some (.relocated tail)

/-- `retryATCPreparation:error:`, with the attempts that are left. -/
def retryAttempts (operation : M Unit) : ℕ → M Unit
  | 0 => fail (xfatcError 2118)
  | left + 1 => do
    markMoveAttempted false
    match ← attempt operation with
    | .ok () => return ()
    | .error failure =>
      let w ← get
      let transport := xfatcPreparationTransportFailure failure.native.isSome failure.code
        (failure.native.getD 0)
      if xfatcShouldRetryPreparation (3 - left) w.tunnelFactory transport
          w.session.atcMoveAttempted then
        pause
        retryAttempts operation left
      else
        fail { failure with code := if failure.code = 0 then 2118 else failure.code }

def retryATCPreparation (operation : M Unit) : M Unit := retryAttempts operation 3

/-- The generated link appears at its place within the deadline. -/
def verifyLinkRounds (token : Token) (tail : AppPath) : ℕ → M Unit
  | 0 => fail (xfatcError 2121)
  | fuel + 1 => do
    match ← info (linkPath token) with
    | some row =>
      if isExpectedLink tail row then return ()
      else verifyLinkRounds token tail fuel
    | none => verifyLinkRounds token tail fuel

/-- The session of `runATCOnce:`, from its first message to the FileComplete. -/
def linkSession (journal : Journal) : M Unit := do
  let message ← prepareSession
  require (xfatcError 2120) (message.authorizes (.stagedLink journal.token))
  saveJournal
  markMoveAttempted true
  sendFileComplete (.stagedLink journal.token) (linkPath journal.token)

/-- `runATCOnce:`. -/
def runATCOnce : M Unit := do
  let journal ← theJournal
  openServiceTunnel
  connectATC
  let result ← attempt (linkSession journal)
  pause
  rethrow result
  let limit ← rounds
  verifyLinkRounds journal.token journal.tail (limit + 1)

/-- `runATC:`. -/
def runATC : M Unit := retryATCPreparation runATCOnce

/-- `stageZip:error:`. -/
def stageZip (archive : Archive) : M Unit := do
  let journal ← theJournal
  let source := sourcePath journal.token
  let entries : Archive := ⟨[], .directory 0⟩ :: archive
  openServiceTunnel
  query fun _ _ => .ok ()
  let result ← attempt (do
    saveJournal
    query fun _ _ => .ok ()
    actPartly (fun w => .ok (w.withDevice (w.device.extract w.pos source entries)))
      (fun c w => w.withDevice
        (w.device.extract w.pos source (entries.take (c.short.getD entries.length))))
    query fun _ _ => .ok () : M Unit)
  pause
  rethrow result
  let row ← the (xfatcError 2150) (← info (stagedLinkPath journal.token))
  require (xfatcError 2151) (row.kind == .link)
  let target ← the (xfatcError 2152) row.linkTarget
  require (xfatcError 2153) (target == .relocated journal.tail)

/-- `verifyKnownTargetLink:`. -/
def verifyKnownTargetLink : M Unit := do
  let journal ← theJournal
  let row ← the (xfatcError 2228) (← info (linkPath journal.token))
  require (xfatcError 2228) (isExpectedLink journal.tail row)

/-- `knownFileDestination`. -/
def knownFileDestination : M Path := do
  return throughLink (← theJournal).token (← theFile).target

/-- `requireProbeDestinationAbsent:`: a missing target between two looks at the link. -/
def requireProbeDestinationAbsent : M Unit := do
  verifyKnownTargetLink
  let destination ← knownFileDestination
  let (returnedError, code, subcode) : Bool × ℤ × ℤ := match ← attempt (afcGetFileInfo destination) with
    | .ok none => (true, 106, 8)
    | .ok (some _) => (false, 0, 0)
    | .error failure => (true, failure.code, failure.native.getD 0)
  require ⟨2243, some subcode⟩ (xfProbeAFCConfirmsAbsence returnedError code subcode true true)
  verifyKnownTargetLink

/-- `validatedLocalOriginal:error:`. -/
def validatedLocalOriginal (token : Token) (digest : Option Digest) (size : Option ℕ) : M Bytes := do
  let digest ← the (xfatcError 2222) digest
  let size ← the (xfatcError 2222) size
  require (xfatcError 2222) (decide (size ≤ maxFileBytes))
  let bytes ← localBytes (.original token)
  require (xfatcError 2222) (bytes.length == size && sha256 bytes == digest)
  return bytes

/-- A requested FileComplete. -/
structure Move where
  asset : AssetID
  destination : Path
  deriving DecidableEq, Repr

/-- `batchPlacementPairs`. -/
def batchPlacementPairs (token : Token) (file : KnownFile) : List Move :=
  [⟨.stagedLink token, linkPath token⟩,
    ⟨.media (incomingPath token), throughLink token file.target⟩,
    ⟨.protectedSource file.target, verifyPath token⟩]

/-- `verifyBatchStagedLink:`. -/
def verifyBatchStagedLink : M Unit := do
  let journal ← theJournal
  let row ← the (xfatcError 2252) (← info (stagedLinkPath journal.token))
  require (xfatcError 2252) (isExpectedLink journal.tail row)
  let placed ← info (linkPath journal.token)
  require (xfatcError 2252) placed.isNone

/-- The link is checked before the app's path is a destination. -/
def checkDestination (journal : Journal) (file : KnownFile) : M Unit := do
  let row ← the (xfatcError 2220) (← info (linkPath journal.token))
  require (xfatcError 2220) (isExpectedLink journal.tail row)
  when (file.operation == .createProbe || file.operation == .create) requireProbeDestinationAbsent

/-- One pair of `runKnownFilePairsOnce:`; the journal is durable before the FileComplete. -/
def completePair (grouped : Bool) (pair : Move) : M Unit := do
  let journal ← theJournal
  let file ← theFile
  when (!grouped && pair.destination == throughLink journal.token file.target)
    (checkDestination journal file)
  saveJournal
  markMoveAttempted true
  sendFileComplete pair.asset pair.destination

/-- The session of `runKnownFilePairsOnce:`. -/
def pairsSession (grouped : Bool) (pairs : List Move) : M Unit := do
  let message ← prepareSession
  require (xfatcError 2120) (message.book.isSome && pairs.all fun pair => message.authorizes pair.asset)
  each (completePair grouped) pairs

/-- The assets and destinations of a transaction. -/
def pairAllowed (token : Token) (file : KnownFile) (grouped : Bool) (pair : Move) : Bool :=
  (knownFileAssetIDs token file).contains pair.asset &&
    [originalPath token, incomingPath token, verifyPath token, throughLink token file.target,
      linkPath token].contains pair.destination &&
    (pair.destination != linkPath token || grouped)

/-- `runKnownFilePairsOnce:error:`. -/
def runKnownFilePairsOnce (pairs : List Move) : M Unit := do
  let journal ← theJournal
  let file ← theFile
  let grouped := file.batchPlacement && pairs == batchPlacementPairs journal.token file
  require (xfatcError 2202) (pairs.all (pairAllowed journal.token file grouped))
  require silent (!pairs.isEmpty && decide (pairs.length ≤ 8))
  verifyRemoteOwner
  when grouped do
    let _ ← validatedLocalOriginal journal.token file.originalDigest file.originalSize
    verifyBatchStagedLink
  openServiceTunnel
  connectATC
  let result ← attempt (pairsSession grouped pairs)
  pause
  rethrow result

/-- `runKnownFilePairs:error:`. -/
def runKnownFilePairs (pairs : List Move) : M Unit :=
  retryATCPreparation (runKnownFilePairsOnce pairs)

end XitForge.Directory
