import Mathlib.Logic.Equiv.List
import Mathlib.Tactic.DeriveEncodable
import XitForge.Directory.Media

/-!
What is written down: the journal of a transaction, the receipts, the property
lists placed on the device, and the local directory that keeps them. Values the
source derives from the token (`source`, `link`, `backup`, `identifier`, the
three file slots, every snapshot name) are functions of the token here; a local
file in which they differ is a file that is no journal.
-/
namespace XitForge.Directory

abbrev Digest := Bytes

inductive Operation where
  | read
  | replace
  | delete
  | createProbe
  | create
  | directWrite
  | directDelete
  deriving DecidableEq, Repr

/-- `journal[@"knownFile"]`. -/
structure KnownFile where
  operation : Operation
  target : AppPath
  originalMoveIntent : Bool := false
  originalObserved : Bool := false
  originalCaptured : Bool := false
  returnOriginalIntent : Bool := false
  originalReturned : Bool := false
  incomingPlaceIntent : Bool := false
  verifyMoveIntent : Bool := false
  newVerified : Bool := false
  returnNewIntent : Bool := false
  committed : Bool := false
  originalDigest : Option Digest := none
  originalSize : Option ℕ := none
  newDigest : Option Digest := none
  newSize : Option ℕ := none
  targetAbsenceConfirmed : Option Bool := none
  deleteReceiptWritten : Option Bool := none
  deletedAt : Option ℕ := none
  batchPlacement : Bool := false
  batchLinkReset : Bool := false
  readBackMismatch : Bool := false
  deriving DecidableEq, Repr

/-- A row of `trackedPreimage`; the snapshot's name is its token and index. -/
inductive TrackedRow where
  | absent
  | present (info : FileInfo) (snapshotDigest : Option Digest)
  deriving DecidableEq, Repr

structure LegacyRow where
  path : Path
  kind : Kind
  size : ℕ
  digest : Option Digest
  sourceInfo : FileInfo
  deriving DecidableEq, Repr

/-- `journal[@"legacyBooksCopy"]`. -/
structure LegacyRecord where
  entries : List LegacyRow
  treeDigest : Digest
  rootCreateIntent : Bool := false
  rootInfo : Option FileInfo := none
  temporaryCleanupIntent : Bool := false
  temporaryRootInfo : Option FileInfo := none
  markerWriteIntent : Bool := false
  completed : Bool := false
  deriving DecidableEq, Repr

/-- The asset of each row, in order; the row's number is its Item ID. -/
abbrev Manifest := List AssetID

/-- A row of `mkdirOwnership`. -/
structure Ownership where
  createdInfo : Option FileInfo := none
  deriving DecidableEq, Repr

structure Journal where
  token : Token
  namespaceName : Text
  rsdUUID : Text
  tail : AppPath
  directWrite : Bool := false
  archiveProfile : Bool := true
  booksRestored : Bool := false
  cleanupComplete : Bool := false
  knownFile : Option KnownFile := none
  fileManifest : Option Manifest := none
  booksOriginallyPresent : Option Bool := none
  booksOriginalInfo : Option (Option FileInfo) := none
  trackedPreimage : Option (List TrackedRow) := none
  booksIsolationStarted : Bool := false
  booksInPlace : Bool := false
  inPlaceSyncCreated : Bool := false
  inPlaceManifestWriteStarted : Bool := false
  deleteBackupRetained : Bool := false
  airlockOwnership : Option Ownership := none
  airlockBookOwnership : Option Ownership := none
  legacyBooksCopy : Option LegacyRecord := none
  legacyCopyRestored : Option Bool := none
  deriving DecidableEq, Repr

/-- The receipt of a committed deletion. -/
structure DeleteReceipt where
  token : Token
  namespaceName : Text
  target : AppPath
  originalDigest : Digest
  originalSize : ℕ
  targetAbsenceConfirmed : Bool
  deletedAt : ℕ
  deriving DecidableEq, Repr

/-- The receipt of a replacement whose original was captured. -/
structure FileReceipt where
  token : Token
  namespaceName : Text
  target : AppPath
  originalDigest : Option Digest
  originalSize : Option ℕ
  committed : Bool
  originalReturned : Bool
  deriving DecidableEq, Repr

/-- Property lists on the device. `manifest` has the Item IDs as numbers; the
oldest journals wrote the only one as a string. -/
inductive Plist where
  | owner (token : Token) (namespaceName : Text)
  | manifest (rows : Manifest)
  | stringManifest (token : Token)
  | zipMetadata
  | other (tag : ℕ)
  deriving DecidableEq, Repr

def Journal.ownerRecord (journal : Journal) : Plist := .owner journal.token journal.namespaceName

/-- `XFATCBooksManifest`. -/
def xfatcBooksManifest (journal : Journal) : Plist :=
  match journal.fileManifest with
  | some rows => .manifest rows
  | none =>
    if journal.archiveProfile then .manifest [.stagedLink journal.token]
    else .stringManifest journal.token

/-- `knownFileAssetIDs:`. -/
def knownFileAssetIDs (token : Token) (file : KnownFile) : List AssetID :=
  [.stagedLink token, .protectedSource file.target, .media (originalPath token),
    .media (incomingPath token), .media (verifyPath token)]

/-- `knownManifestForBatch:`. -/
def knownManifestForBatch (token : Token) (file : KnownFile) (batch : Bool) : Manifest :=
  if batch then
    [.stagedLink token, .media (incomingPath token), .protectedSource file.target,
      .media (verifyPath token)]
  else knownFileAssetIDs token file

inductive LocalName where
  | active
  | direct (token : Token)
  | original (token : Token)
  | preimage (token : Token) (index : ℕ)
  | syncChange (token : Token) (uuid : Token)
  | deleted (token : Token)
  | fileReceipt (token : Token)
  | retained (token : Token)
  | legacyBooks (token : Token)
  | legacyLeaf (token : Token) (path : Path)
  deriving DecidableEq, Repr

/-- The transaction whose file this is; `active.plist` has the same name for all. -/
def LocalName.token : LocalName → Token
  | .active => 0
  | .direct token | .original token | .preimage token _ | .syncChange token _ | .deleted token
  | .fileReceipt token | .retained token | .legacyBooks token | .legacyLeaf token _ => token

inductive Stored where
  | bytes (bytes : Bytes)
  | journal (journal : Journal)
  | deleteReceipt (receipt : DeleteReceipt)
  | fileReceipt (receipt : FileReceipt)
  | directory
  deriving DecidableEq, Repr

/-- The local directory `journalURL`. -/
abbrev Disk := AList fun _ : LocalName => Stored

def Stored.isRegular : Stored → Bool
  | .directory => false
  | _ => true

/-- Foundation and CommonCrypto. Property lists come back as they were written,
an empty file is none, and `localSize` is the size of a local file. -/
class Foundation where
  plistData : Plist → Bytes
  propertyList : Bytes → Option Plist
  sha256 : Bytes → Digest
  localSize : Stored → ℕ
  propertyList_plistData : ∀ plist, propertyList (plistData plist) = some plist
  propertyList_nil : propertyList [] = none
  localSize_bytes : ∀ bytes, localSize (.bytes bytes) = bytes.length

section Unary

instance encodableChar : Encodable Char :=
  Encodable.ofLeftInjection Char.toNat (fun n => some (Char.ofNat n)) fun c => by simp

deriving instance Encodable for Name, AssetID, Plist

/-- Property lists as byte strings of different lengths, and files as their own digests. -/
@[reducible] def unaryFoundation : Foundation where
  plistData plist := List.replicate (Encodable.encode plist + 1) 0
  propertyList bytes := if bytes = [] then none else Encodable.decode (bytes.length - 1)
  sha256 bytes := bytes
  localSize stored := match stored with
    | .bytes bytes => bytes.length
    | _ => 1
  propertyList_plistData plist := by simp
  propertyList_nil := rfl
  localSize_bytes _ := rfl

end Unary

def maxFileBytes : ℕ := 64 * 1024 * 1024

section Validity

variable [Foundation]

open Foundation

/-- The checks of `validKnownFileJournal:` that depend on the operation. -/
def validOperationFlags (file : KnownFile) : Bool :=
  match file.operation with
  | .read | .replace => !file.committed || (file.newVerified && file.returnNewIntent)
  | .create =>
    !file.originalMoveIntent && !file.originalCaptured && !file.returnOriginalIntent &&
      !file.originalReturned &&
      (file.newDigest.isNone || file.newSize.any (· ≤ maxFileBytes)) &&
      (!file.committed || (file.newVerified && file.returnNewIntent))
  | .createProbe =>
    (match xfProbeContents file.target with
      | none => false
      | some marker =>
        !file.originalMoveIntent && !file.originalObserved && !file.originalCaptured &&
          !file.returnOriginalIntent && !file.originalReturned &&
          (file.newDigest.isNone || file.newDigest == some (sha256 marker)) &&
          (file.newSize.isNone || file.newSize == some marker.length)) &&
      (!file.committed || (file.newVerified && file.returnNewIntent))
  | .delete =>
    file.targetAbsenceConfirmed.isSome && file.deleteReceiptWritten.isSome &&
      !file.incomingPlaceIntent && !file.verifyMoveIntent && !file.newVerified &&
      !file.returnNewIntent && file.newDigest.isNone && file.newSize.isNone &&
      (!file.committed || (file.originalMoveIntent && file.originalObserved &&
        file.originalCaptured && !file.returnOriginalIntent && !file.originalReturned &&
        file.deletedAt.isSome)) &&
      (file.deleteReceiptWritten != some true || file.committed)
  | .directWrite | .directDelete => false

/-- `validKnownFileJournal:`. -/
def validKnownFileJournal (journal : Journal) : Bool :=
  match journal.knownFile with
  | none => false
  | some file =>
    !journal.rsdUUID.isEmpty && decide (journal.rsdUUID.length ≤ 512) &&
      journal.rsdUUID.all (· != Char.ofNat 0) &&
      validAppPath file.target && file.target.dropLast == journal.tail &&
      decide (7 ≤ file.target.length) &&
      (!file.originalCaptured ||
        (file.originalDigest.isSome && file.originalSize.any (· ≤ maxFileBytes))) &&
      (!file.newVerified || (file.newDigest.isSome && file.newSize.any (· ≤ maxFileBytes))) &&
      (!file.originalReturned || file.returnOriginalIntent) &&
      validOperationFlags file &&
      (!file.batchPlacement || (file.operation == .replace && file.originalCaptured)) &&
      journal.fileManifest == some (knownManifestForBatch journal.token file file.batchPlacement)

/-- `XFATCTrackedFiles` checked against the journal and the local snapshots. -/
def validTrackedRows (disk : Disk) (token : Token) (rows : List TrackedRow) : Bool :=
  rows.length == xfatcTrackedFiles.length &&
    (rows.zipIdx.all fun (row, index) =>
      match row with
      | .absent => true
      | .present info _ =>
        info.kind == .regular && (disk.lookup (.preimage token index)).any Stored.isRegular)

def Name.text : Name → Text
  | .source token => "xf_atc_src_".toList ++ (Nat.repr token).toList
  | .link token => "xf_atc_link_".toList ++ (Nat.repr token).toList
  | .state token => "xf_atc_state_".toList ++ (Nat.repr token).toList
  | .fileOriginal => "FileOriginal".toList
  | .fileIncoming => "FileIncoming".toList
  | .fileVerify => "FileVerify".toList
  | .ownerPlist => "owner.plist".toList
  | .workingBooks => "WorkingBooks".toList
  | .temporaryBooks => "TemporaryBooks".toList
  | .books => "Books".toList
  | .sync => "Sync".toList
  | .database => "Database".toList
  | .booksPlist => "Books.plist".toList
  | .uploadPlist => "Upload.plist".toList
  | .outstandingAssets => "OutstandingAssets_4.sqlite".toList
  | .outstandingAssetsShm => "OutstandingAssets_4.sqlite-shm".toList
  | .outstandingAssetsWal => "OutstandingAssets_4.sqlite-wal".toList
  | .xitForgeOwner => "XitForgeOwner.plist".toList
  | .airlock => "Airlock".toList
  | .book => "Book".toList
  | .metaInf => "META-INF".toList
  | .zipMetadata => "com.apple.ZipMetadata.plist".toList
  | .payload => "payload".toList
  | .p0 => "p0".toList
  | .p1 => "p1".toList
  | .p2 => "p2".toList
  | .stagedLink => "link".toList
  | .component text => text

/-- A relative path as the source writes it. -/
def pathText (path : Path) : Text := List.intercalate ['/'] (path.map Name.text)

def lexLess : Text → Text → Bool
  | _, [] => false
  | [], _ :: _ => true
  | a :: as, b :: bs => a < b || (a == b && lexLess as bs)

/-- `legacyBooksRelativePath:`. -/
def legacyBooksRelativePath (path : Path) : Bool :=
  decide (((pathText path).map Char.utf8Size).sum ≤ 4096) && decide (path.length ≤ 64) &&
    (path.all fun name => xfatcComponent name.text) && path != [.xitForgeOwner]

def be64 (n : ℕ) : Bytes :=
  [56, 48, 40, 32, 24, 16, 8, 0].map fun shift => UInt8.ofNat (n / 2 ^ shift)

def Kind.text : Kind → Text
  | .regular => "S_IFREG".toList
  | .directory => "S_IFDIR".toList
  | .link => "S_IFLNK".toList
  | .other => "unknown".toList

/-- `legacyBooksTreeDigest:`. -/
def legacyBooksTreeDigest (entries : List LegacyRow) : Digest :=
  sha256 (entries.flatMap fun row =>
    [asciiBytes (pathText row.path), asciiBytes row.kind.text,
      asciiBytes (Nat.repr row.size).toList, row.digest.getD []].flatMap fun field =>
        be64 field.length ++ field)

def legacyRowsValid : List LegacyRow → (seen : List LegacyRow) → (total : ℕ) → Bool
  | [], _, _ => true
  | row :: rest, seen, total =>
    let ordered := match seen with
      | [] => row.path == [] && row.kind == .directory
      | prior :: _ => lexLess (pathText prior.path) (pathText row.path) &&
          seen.any fun parent => parent.path == row.path.dropLast && parent.kind == .directory
    let size := if row.kind == .regular then row.size else 0
    legacyBooksRelativePath row.path && row.sourceInfo.kind == row.kind && ordered &&
      (match row.kind with
        | .regular => decide (row.size ≤ 128 * 1024 * 1024) && row.size == row.sourceInfo.size &&
            row.digest.isSome && decide (total + size ≤ 256 * 1024 * 1024)
        | .directory => row.size == 0 && row.digest.isNone
        | _ => false) &&
      legacyRowsValid rest (row :: seen) (total + size)

/-- `validLegacyBooksCopyJournal:`. -/
def validLegacyBooksCopyJournal (journal : Journal) : Bool :=
  match journal.legacyBooksCopy with
  | none => journal.legacyCopyRestored.isNone
  | some record =>
    journal.booksOriginallyPresent == some true && !journal.booksInPlace &&
      (journal.legacyCopyRestored != some true || (record.completed && journal.booksRestored)) &&
      (!record.completed || journal.legacyCopyRestored == some true) &&
      record.rootInfo.all (fun info => info.kind == .directory) &&
      record.temporaryRootInfo.all (fun info => info.kind == .directory) &&
      (record.rootInfo.isNone || record.rootCreateIntent) &&
      (record.temporaryRootInfo.isNone || record.temporaryCleanupIntent) &&
      !record.entries.isEmpty && decide (record.entries.length ≤ 4096) &&
      legacyRowsValid record.entries [] 0 &&
      legacyBooksTreeDigest record.entries == record.treeDigest

/-- `validJournal:`, for a journal read from `journalURL`. -/
def validJournal (namespaceName : Text) (disk : Disk) (journal : Journal) : Bool :=
  journal.namespaceName == namespaceName && validAppPath journal.tail &&
    (journal.knownFile.isNone || validKnownFileJournal journal) &&
    journal.booksOriginallyPresent.isSome &&
    (match journal.booksOriginalInfo with
      | none => false
      | some info => journal.booksOriginallyPresent != some true ||
          info.any fun info => info.kind == .directory) &&
    (journal.airlockOwnership.bind Ownership.createdInfo).all (fun i => i.kind == .directory) &&
    (journal.airlockBookOwnership.bind Ownership.createdInfo).all (fun i => i.kind == .directory) &&
    (journal.trackedPreimage.any (validTrackedRows disk journal.token)) &&
    validLegacyBooksCopyJournal journal

/-- `validDeleteReceipt:name:`, for the receipt in the file of this token. -/
def validDeleteReceipt (namespaceName : Text) (token : Token) (receipt : DeleteReceipt) : Bool :=
  receipt.namespaceName == namespaceName && receipt.token == token &&
    validAppPath receipt.target && decide (7 ≤ receipt.target.length) &&
    decide (receipt.originalSize ≤ maxFileBytes)

end Validity

end XitForge.Directory
