import XitForge.FileTree.Subtrees
import XitForge.MobileBackup.FailedUpload

/-!
`FsBackupDelegate`: the calls of the host on its own file system, which has files and
directories only and refuses nothing that can be done. A path is looked up as it is given.
What each call leaves of the contents of the files is told once here.
-/
namespace XitForge.MobileBackup

open ByteStream Program RustText

inductive HostNode where
  | file (contents : Bytes)
  | directory
  deriving DecidableEq

def HostNode.isDirectory : HostNode → Bool
  | .directory => true
  | .file _ => false

instance inodeHostNode : Inode HostNode where
  isDirectory := HostNode.isDirectory
  touch _ node := node
  isDirectory_touch _ _ := rfl

abbrev Disk := FileTree Component HostNode

namespace Disk

/-- The answer of a call that may change the disk. -/
def settle (disk : Disk) : Option Disk → Bool × Disk
  | some changed => (true, changed)
  | none => (false, disk)

def createDirAll (disk : Disk) (path : Path) : Bool × Disk :=
  disk.settle (FileTree.makeAll .directory 0 [] path disk)

/-- `remove_dir_all` or `remove_file`. -/
def remove (disk : Disk) (path : Path) : Bool × Disk :=
  match disk.lookup path with
  | some _ => (true, disk.removeAll path)
  | none => (false, disk)

/-- `fs::write` in pieces: the file is open, and its end is written to. -/
def writeAll (disk : Disk) (path : Path) (data : Bytes) : Bool × Disk :=
  match disk.lookup path with
  | some (.file contents) => disk.settle (disk.rewrite path (.file (contents ++ data)))
  | _ => (false, disk)

/-- `copy`. A directory is made anew without what it holds, and a file is emptied before it is
read, if it is the target too. -/
def copy (disk : Disk) (src dst : Path) : Bool × Disk :=
  match disk.lookup src with
  | some .directory => disk.createDirAll dst
  | some (.file contents) => disk.settle (disk.place 0 dst (.file (if src = dst then [] else contents)))
  | none => (false, disk)

/-- A call on the disk: whether it succeeds, or whether the path exists, and the disk then. -/
def perform (disk : Disk) : DelegateCall → Bool × Disk
  | .createDirAll path => disk.createDirAll path
  | .exists path => ((disk.lookup path).isSome, disk)
  | .remove path => disk.remove path
  | .createFileWrite path => disk.settle (disk.place 0 path (.file []))
  | .writeAll path data => disk.writeAll path data
  | .rename old new => disk.settle (disk.rename old new)
  | .copy src dst => disk.copy src dst
  | .onFileReceived _ _ => (true, disk)

/-- The disk after some calls. -/
def replay (disk : Disk) (calls : List DelegateCall) : Disk :=
  calls.foldl (fun disk call => (disk.perform call).2) disk

/-- The delegate that works on the disk. -/
def delegate (disk : Disk) : Delegate := fun earlier call => ((disk.replay earlier).perform call).1

theorem replay_append (disk : Disk) (calls more : List DelegateCall) :
    disk.replay (calls ++ more) = (disk.replay calls).replay more := List.foldl_append ..

theorem replay_snoc (disk : Disk) (calls : List DelegateCall) (call : DelegateCall) :
    disk.replay (calls ++ [call]) = ((disk.replay calls).perform call).2 := replay_append ..

end Disk

/-- What the files hold. -/
abbrev Files := Path → Option Bytes

def HostNode.contents? : HostNode → Option Bytes
  | .file contents => some contents
  | .directory => none

def Disk.files (disk : Disk) : Files := fun path => (disk.lookup path).bind HostNode.contents?

section Contents

variable {disk changed : Disk} {path other : Path}

end Contents

section Calls

variable {disk : Disk}

end Calls

end XitForge.MobileBackup
