import Mathlib.Algebra.Ring.Nat
import Mathlib.Data.List.Basic

/-!
Names of the objects a transaction works with. Media paths are lists of names
below the Media root; a name that carries a transaction token is a constructor
with that token, so two transactions share no object unless they share a token.
App paths are the components below `/`, as `XFATCPath` accepts them.
-/
namespace XitForge.Directory

abbrev Bytes := List UInt8

abbrev Text := List Char

/-- The UUID that names a transaction and everything it generates. -/
abbrev Token := ℕ

inductive Name where
  | source (token : Token)
  | link (token : Token)
  | state (token : Token)
  | fileOriginal
  | fileIncoming
  | fileVerify
  | ownerPlist
  | workingBooks
  | temporaryBooks
  | books
  | sync
  | database
  | booksPlist
  | uploadPlist
  | outstandingAssets
  | outstandingAssetsShm
  | outstandingAssetsWal
  | xitForgeOwner
  | airlock
  | book
  | metaInf
  | zipMetadata
  | payload
  | p0
  | p1
  | p2
  | stagedLink
  | component (text : Text)
  deriving DecidableEq, Repr

abbrev Path := List Name

abbrev AppPath := List Text

/-- `XFATCComponent`. -/
def xfatcComponent (name : Text) : Bool :=
  !name.isEmpty && name != ".".toList && name != "..".toList &&
    name.all fun c => c != '/' && c != '\\' && c != Char.ofNat 0

def isHex (c : Char) : Bool :=
  ('0' ≤ c && c ≤ '9') || ('a' ≤ c && c ≤ 'f') || ('A' ≤ c && c ≤ 'F')

/-- What `NSUUID initWithUUIDString:` accepts: hexadecimal groups of 8-4-4-4-12. -/
def isUUIDString (text : Text) : Bool :=
  let groups := text.splitOn '-'
  groups.map List.length == [8, 4, 4, 4, 12] && groups.all fun group => group.all isHex

def dataContainers : AppPath :=
  ["var".toList, "mobile".toList, "Containers".toList, "Data".toList, "Application".toList]

def groupContainers : AppPath :=
  ["var".toList, "mobile".toList, "Containers".toList, "Shared".toList, "AppGroup".toList]

/-- The components of a path that `XFATCPath` returns unchanged. -/
def validAppPath (parts : AppPath) : Bool :=
  parts.all xfatcComponent &&
    (parts.take 5 == dataContainers || parts.take 5 == groupContainers) &&
    ((parts[5]?).any isUUIDString)

/-- `XFATCPath`: the leading `/private` of `/private/var/` is dropped. -/
def xfatcPath (path : Text) : Option AppPath :=
  let path := if "/private/var/".toList.isPrefixOf path then path.drop 8 else path
  match path.splitOn '/' with
  | [] :: parts => if validAppPath parts then some parts else none
  | _ => none

/-- `XFATCKnownFilePath`; the empty first part counts in the source. -/
def xfatcKnownFilePath (target : AppPath) : Bool :=
  decide (7 ≤ target.length) &&
    !(target.length == 7 && ["Documents".toList, "Library".toList, "SystemData".toList,
      "tmp".toList].contains (target.getLastD []))

/-- `lengthOfBytesUsingEncoding:NSUTF8StringEncoding` of the path with its slashes. -/
def utf8Length (target : AppPath) : ℕ :=
  (target.map fun part => 1 + (part.map Char.utf8Size).sum).sum

def xfProbePrefix : Text := "xitforge_prueba_".toList

/-- `XFProbeUUID`: the lowercase UUID in a generated file name. -/
def xfProbeUUID (target : AppPath) : Option Text :=
  let name := target.getLastD []
  let token := (name.drop 16).take 36
  if xfProbePrefix.isPrefixOf name && ".txt".toList.isSuffixOf name && name.length == 56 &&
      isUUIDString token && token.all (fun c => c.toLower == c) then
    some token
  else none

def asciiBytes (text : Text) : Bytes := text.map fun c => UInt8.ofNat c.toNat

/-- `XFProbeContents`. -/
def xfProbeContents (target : AppPath) : Option Bytes :=
  (xfProbeUUID target).map fun token =>
    asciiBytes ("Prueba XitForge\nIdentificador: ".toList ++ token ++ "\n".toList)

/-- The target of a generated link: `../../../` before the tail, or another text. -/
inductive LinkTarget where
  | relocated (tail : AppPath)
  | other (text : Text)
  deriving DecidableEq, Repr

/-- `../../<source>/p0/p1/p2/link`, `../../../Containers/..` or `../../<Media path>`. -/
inductive AssetID where
  | stagedLink (token : Token)
  | protectedSource (target : AppPath)
  | media (path : Path)
  deriving DecidableEq, Repr

def sourcePath (token : Token) : Path := [.source token]
def linkPath (token : Token) : Path := [.link token]
def backupPath (token : Token) : Path := [.state token]
def originalPath (token : Token) : Path := [.state token, .fileOriginal]
def incomingPath (token : Token) : Path := [.state token, .fileIncoming]
def verifyPath (token : Token) : Path := [.state token, .fileVerify]
def ownerPath (token : Token) : Path := [.state token, .ownerPlist]
def workingPath (token : Token) : Path := [.state token, .workingBooks]
def temporaryPath (token : Token) : Path := [.state token, .temporaryBooks]
def stagedLinkPath (token : Token) : Path := [.source token, .p0, .p1, .p2, .stagedLink]
def booksPath : Path := [.books]
def booksSyncPath : Path := [.books, .sync]
def booksManifestPath : Path := [.books, .sync, .booksPlist]
def booksMarkerPath : Path := [.books, .xitForgeOwner]

/-- `XFATCTrackedFiles`, below `Books`. -/
def trackedTails : List Path :=
  [[.booksPlist], [.sync, .booksPlist], [.sync, .uploadPlist],
    [.sync, .database, .outstandingAssets], [.sync, .database, .outstandingAssetsShm],
    [.sync, .database, .outstandingAssetsWal]]

def xfatcTrackedFiles : List Path := trackedTails.map (booksPath ++ ·)

/-- `XFATCDirectories`: the directories of the archive, each after its parent. -/
def xfatcDirectories (tail : AppPath) : List Path :=
  [[.metaInf], [.p0], [.p0, .p1], [.p0, .p1, .p2]] ++
    (List.range tail.length).map fun n => (tail.take (n + 1)).map Name.component

/-- The path of the target through the relocated link. -/
def throughLink (token : Token) (target : AppPath) : Path :=
  [.link token, .component (target.getLastD [])]

end XitForge.Directory
