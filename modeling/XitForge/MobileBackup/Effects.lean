import XitForge.MobileBackup.Loop

/-!
The messages of the loop as steps on the contents of the files: what an upload puts, and what
moves, removals and copies do. A message is carried out up to its first step that fails, and
its status says whether there is one.
-/
namespace XitForge.MobileBackup

open ByteStream Program RustText
open Download (statusResponse)
open Xpc (PlistValue)

section Effects

/-- A step of a message, as the files see it. -/
inductive Effect where
  | put (path : Path) (contents : Bytes)
  | make (path : Path)
  | move (old new : Path)
  | erase (path : Path)
  | copy (src dst : Path)

namespace Effect

/-- A file takes the place of whatever is at its path. -/
def putFile (path : Path) (contents : Bytes) (files : Files) : Files := fun other =>
  if path <+: other then if path = other then some contents else none else files other

def apply (files : Files) : Effect → Files
  | put path contents => putFile path contents files
  | make _ => files
  | move old new => fun other =>
    if old = new then files other
    else if new <+: other then files (old ++ other.drop new.length)
    else if old <+: other then none
    else files other
  | erase path => fun other => if path ≠ [] ∧ path <+: other then none else files other
  | copy src dst =>
    match files src with
    | some contents => putFile dst (if src = dst then [] else contents) files
    | none => files

/-- What a step may fail for: a directory only for a file on its path. -/
def MayFail (files : Files) : Effect → Prop
  | put _ _ => False
  | make path => ∃ front, front <+: path ∧ files front ≠ none
  | move _ _ => True
  | erase _ => False
  | copy _ _ => True

def MaySucceed (files : Files) : Effect → Prop
  | make path => ∀ front, front <+: path → files front = none
  | _ => True

end Effect

/-- Steps one after the other, up to the first that fails, with the status of the message. -/
inductive Performed : List Effect → Files → ℤ → Files → Prop where
  | all (files : Files) : Performed [] files 0 files
  | refused {effect : Effect} {rest : List Effect} {files : Files} (h : effect.MayFail files) :
      Performed (effect :: rest) files (-1) files
  | next {effect : Effect} {rest : List Effect} {files files' : Files} {status : ℤ}
      (h : effect.MaySucceed files) (hrest : Performed rest (effect.apply files) status files') :
      Performed (effect :: rest) files status files'

variable (hostDir : Path)

def puts (records : List Record) : List Effect :=
  records.flatMap fun record =>
    if record.Skipped then [] else [.put (record.path hostDir) record.contents]

def moves (entries : List (String × PlistValue)) : List Effect :=
  entries.flatMap fun entry =>
    match entry.2 with
    | .string target => [.move (hostPath hostDir entry.1) (hostPath hostDir target)]
    | _ => []

def erases (items : List PlistValue) : List Effect :=
  items.flatMap fun item =>
    match item with
    | .string item => [.erase (hostPath hostDir item)]
    | _ => []

/-- The steps of a message other than an upload, if it is well formed. -/
def Message.effects : Message → Option (List Effect)
  | .uploadFiles _ => none
  | .createDirectory dlValue =>
    match dlValue with
    | .array (_ :: .string dir :: _) => some [.make (hostPath hostDir dir)]
    | _ => none
  | .moveFiles dlValue =>
    match dlValue with
    | .array (_ :: .dictionary entries :: _) => some (moves hostDir entries)
    | _ => none
  | .removeFiles dlValue =>
    match dlValue with
    | .array (_ :: .array items :: _) => some (erases hostDir items)
    | _ => none
  | .copyItem dlValue =>
    match dlValue with
    | .array (_ :: .string src :: .string dst :: _) =>
      some [.copy (hostPath hostDir src) (hostPath hostDir dst)]
    | _ => none

/-- The last parameter of a status. -/
def Message.parameter : Message → PlistValue
  | .createDirectory _ => emptyParameter
  | _ => .dictionary []

/-- The status tells how far the steps of a message were carried out. -/
def Tells (files : Files) (message : Message) (status : ℤ) (files' : Files) : Prop :=
  match message.effects hostDir with
  | some effects => Performed effects files status files'
  | none => status = -1 ∧ files' = files

/-- What a message and its answer leave. An upload that is answered has put all its files. -/
def Changed (files : Files) (message : Message) (response : PlistValue) (files' : Files) : Prop :=
  match message with
  | .uploadFiles raw => response = statusResponse 0 none (.dictionary []) ∧
      ∀ records, raw = encodeUpload records → Performed (puts hostDir records) files 0 files'
  | message => ∃ status, response = statusResponse status none message.parameter ∧
      Tells hostDir files message status files'

end Effects

section Messages

variable {disk d : Disk} {hostDir : Path} {F C : Disk → Prop}

/-- The calls of the host lead from one disk to another. -/
def Replays (disk d : Disk) (host : Host) : Prop := disk.replay host.calls = d

theorem ask_tracks (call : DelegateCall) :
    Tracks (Replays disk) d (ask disk.delegate call)
      (fun answer d' => answer = (d.perform call).1 ∧ d' = (d.perform call).2) F C := by
  intro host h
  have hreplay : disk.replay host.calls = d := h
  refine ⟨(d.perform call).2, ?_, ?_, rfl⟩
  · show disk.replay (host.calls ++ [call]) = _
    rw [disk.replay_snoc, hreplay]
  · show ((disk.replay host.calls).perform call).1 = _
    rw [hreplay]

end Messages

end XitForge.MobileBackup
