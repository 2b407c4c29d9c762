import XitForge.FileTree
import XitForge.Directory.Names

/-!
The device: the Media directory that AFC serves and the app containers outside
it. A relocated link leads from Media into a container; a move of AirTraffic
takes one object from its place to another, over a file that is there. An app
directory is an entry with an identity: what stands below it goes with it.
-/
namespace XitForge.Directory

inductive Node where
  | file (bytes : Bytes)
  | directory (identity : ℕ)
  | link (target : LinkTarget)
  | other
  deriving DecidableEq, Repr

structure Entry where
  node : Node
  creation : ℕ
  mtime : ℕ
  deriving DecidableEq, Repr

def Node.isDirectory : Node → Bool
  | .directory _ => true
  | _ => false

instance : Inode Entry where
  isDirectory entry := entry.node.isDirectory
  touch now entry := { entry with mtime := now }
  isDirectory_touch _ _ := rfl

inductive Kind where
  | regular
  | directory
  | link
  | other
  deriving DecidableEq, Repr

def Node.kind : Node → Kind
  | .file _ => .regular
  | .directory _ => .directory
  | .link _ => .link
  | .other => .other

/-- The rows of `info:missing:error:` that the code reads. -/
structure FileInfo where
  kind : Kind
  size : ℕ
  creation : ℕ
  mtimeNS : ℕ
  linkTarget : Option LinkTarget
  deriving DecidableEq, Repr

def Entry.info (entry : Entry) : FileInfo where
  kind := entry.node.kind
  size := match entry.node with
    | .file bytes => bytes.length
    | _ => 0
  creation := entry.creation
  mtimeNS := entry.mtime
  linkTarget := match entry.node with
    | .link target => some target
    | _ => none

abbrev Media := FileTree Name Entry

abbrev Containers := AList fun _ : AppPath => Entry

/-- `linkDenied`: metadata queries through a relocated link are refused. -/
structure Device where
  media : Media
  app : Containers
  uuid : Text
  linkDenied : Bool

inductive Place where
  | media (path : Path)
  | app (path : AppPath)
  deriving DecidableEq, Repr

namespace Device

variable (device : Device)

/-- A path one step below a relocated link lies in an app container. -/
def resolve : Path → Option Place
  | [.link token, .component name] =>
    match device.media.lookup [.link token] with
    | some ⟨.link (.relocated tail), _, _⟩ => some (.app (tail ++ [name]))
    | some ⟨.directory _, _, _⟩ => some (.media [.link token, .component name])
    | _ => none
  | path => some (.media path)

def entryAt : Place → Option Entry
  | .media path => device.media.lookup path
  | .app path => device.app.lookup path

def lookup (path : Path) : Option Entry := (device.resolve path).bind device.entryAt

inductive Answer where
  | found (info : FileInfo)
  | missing
  | denied
  deriving DecidableEq, Repr

/-- A truthful answer, or the refusal of a query through a link. -/
def answer (path : Path) : Answer :=
  match device.resolve path, device.linkDenied with
  | some (.app _), true => .denied
  | _, _ =>
    match device.lookup path with
    | some entry => .found entry.info
    | none => .missing

/-- Another party creates an object of an app where none is. -/
def appear (created : AppPath × Entry) : Device :=
  if (device.app.lookup created.1).isSome then device
  else { device with app := device.app.insert created.1 created.2 }

def putAt (now : ℕ) (entry : Entry) : Place → Option Device
  | .media path => (device.media.place now path entry).map fun media => { device with media := media }
  | .app path =>
    if (device.app.lookup path.dropLast).any Inode.isDirectory &&
        !(device.app.lookup path).any Inode.isDirectory then
      some { device with app := device.app.insert path entry }
    else none

def dropAt (now : ℕ) : Place → Option Device
  | .media path => (device.media.remove now path).map fun media => { device with media := media }
  | .app path => some { device with app := device.app.erase path }

def assetPlace : AssetID → Place
  | .stagedLink token => .media (stagedLinkPath token)
  | .protectedSource target => .app target
  | .media path => .media path

/-- A performed FileComplete; a move that cannot be made changes nothing. -/
def move (now : ℕ) (asset : AssetID) (destination : Path) : Device :=
  let source := assetPlace asset
  match device.entryAt source, device.resolve destination with
  | some entry, some target =>
    if source = target then device
    else
      match device.dropAt now source with
      | none => device
      | some taken => (taken.putAt now entry target).getD device
  | _, _ => device

def makeDirectory (now : ℕ) (path : Path) : Option Device :=
  if (device.media.lookup path).isSome then none
  else device.putAt now ⟨.directory now, now, now⟩ (.media path)

def removePath (now : ℕ) (path : Path) : Option Device := device.dropAt now (.media path)

/-- `AfcWrOnly`: an empty file in place of the regular file or of nothing. -/
def openForWriting (now : ℕ) (path : Path) : Option Device :=
  match device.media.lookup path with
  | none => device.putAt now ⟨.file [], now, now⟩ (.media path)
  | some entry =>
    match entry.node with
    | .file _ => (device.media.rewrite path { entry with node := .file [], mtime := now }).map
        fun media => { device with media := media }
    | _ => none

def appendBytes (now : ℕ) (path : Path) (bytes : Bytes) : Option Device :=
  match device.media.lookup path with
  | some ⟨.file old, creation, _⟩ =>
    (device.media.rewrite path ⟨.file (old ++ bytes), creation, now⟩).map fun media =>
      { device with media := media }
  | _ => none

/-- What a read of an open file returns from an offset. -/
def readFrom (path : Path) (offset count : ℕ) : Option Bytes :=
  match device.lookup path with
  | some ⟨.file bytes, _, _⟩ => some ((bytes.drop offset).take count)
  | _ => none

/-- The names AFC lists in a directory; a link is followed to the app directory. -/
def listDirectory (path : Path) : Option (List Name) :=
  match device.media.lookup path with
  | some ⟨.directory _, _, _⟩ => some (device.media.names path)
  | some ⟨.link (.relocated tail), _, _⟩ =>
    if (device.app.lookup tail).any Inode.isDirectory then
      some (device.app.keys.filterMap fun key =>
        if key.dropLast = tail then key.getLast?.map Name.component else none)
    else none
  | _ => none

end Device

/-- An entry of the StreamingZip archive: its path below the source directory. -/
structure ArchiveEntry where
  path : Path
  node : Node
  deriving DecidableEq, Repr

abbrev Archive := List ArchiveEntry

def directoryMarker : Bytes := asciiBytes "directory-list".toList

/-- `xf_atc_build_directory_zip`. -/
def xfATCBuildDirectoryZip (tail : AppPath) (metadata : Bytes) : Option Archive :=
  let length := utf8Length tail - 1
  if metadata.length = 0 ∨ 4096 < metadata.length ∨ length = 0 ∨ 2048 < length ∨ 64 < tail.length ∨
      tail.any (fun part => !xfatcComponent part) then
    none
  else
    some
      ([⟨[.metaInf], .directory 0⟩, ⟨[.metaInf, .zipMetadata], .file metadata⟩,
          ⟨[.p0], .directory 0⟩, ⟨[.p0, .p1], .directory 0⟩, ⟨[.p0, .p1, .p2], .directory 0⟩,
          ⟨[.p0, .p1, .p2, .stagedLink], .link (.relocated tail)⟩] ++
        ((List.range tail.length).map fun n =>
          ⟨(tail.take (n + 1)).map Name.component, .directory 0⟩) ++
        [⟨[.payload], .file directoryMarker⟩])

/-- StreamingZip extracts the entries in their order; each one it cannot place is skipped. -/
def Device.extract (device : Device) (now : ℕ) (source : Path) : Archive → Device
  | [] => device
  | entry :: rest =>
    Device.extract
      ((device.putAt now ⟨entry.node, now, now⟩ (.media (source ++ entry.path))).getD device)
      now source rest

end XitForge.Directory
