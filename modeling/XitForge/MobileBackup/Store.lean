import XitForge.MobileBackup.Effects

/-!
Runs of the loop. Whatever the device asks for, every message before the last one is answered
once and in order, and what the host then has and sends are the contents that the messages
before have left.
-/
namespace XitForge.MobileBackup

open ByteStream Program RustText RustEval
open Download (Storage handleDownloadFiles statusResponse bytesOf)
open Xpc (PlistValue)
open Restore (Dictionary asString)

section Downloads

variable (hostDir : Path)

/-- The names that are asked for. -/
def namesOf (dlValue : PlistValue) : List String := (Download.filesOf dlValue).filterMap asString

/-- A record tells of a file that there is, with its contents, or of an error. -/
def Delivers (files : Files) (name : String) (record : Download.Record) : Prop :=
  record.name = bytesOf name ∧
    match files (hostPath hostDir name) with
    | some contents => record.code = codeSuccess ∧ record.blocks.flatten = contents
    | none => record.code = Download.codeErrorLocal

/-- The bytes are read in one way, as a record for every name; the status tells of success
exactly if every file is there. -/
def Batch (files : Files) (dlValue : PlistValue) (bytes : Bytes) (response : PlistValue) : Prop :=
  (∀ name ∈ namesOf dlValue, name ≠ "" ∧ (bytesOf name).length < 2 ^ 32) →
    (∀ records rest, Download.Records bytes records rest →
      rest = [] ∧ List.Forall₂ (Delivers hostDir files) (namesOf dlValue) records) ∧
    (∃ records, Download.Records bytes records []) ∧
    (response = statusResponse 0 none (.dictionary []) ↔
      ∀ name ∈ namesOf dlValue, files (hostPath hostDir name) ≠ none)

/-- A row that tells of a file with this length. -/
def IsRegular (row : Dictionary) (size : ℕ) : Prop :=
  ("DLFileType", .string "DLFileTypeRegular") ∈ row ∧ ("DLFileSize", .integer size) ∈ row

/-- The rows of files are those of the files in the directory, with their lengths. -/
def Listing (files : Files) (dlValue : PlistValue) (entries : Dictionary) : Prop :=
  ∀ (tag : PlistValue) (dir : String) (more : List PlistValue) (name : List Char) (size : ℕ),
    dlValue = .array (tag :: .string dir :: more) → hostPath hostDir dir ≠ [] →
    ((∃ row, (String.ofList name, .dictionary row) ∈ entries ∧ IsRegular row size) ↔
      ∃ contents, files (hostPath hostDir dir ++ [.normal name]) = some contents ∧
        contents.length = size)

/-- A message that the loop goes on after, with its reply and the files before and after it. -/
def Served (files : Files) : DlMessage → Reply → Files → Prop
  | .downloadFiles dlValue, .batch bytes response, files' =>
    files' = files ∧ Batch hostDir files dlValue bytes response
  | .change message, .status response, files' => Changed hostDir files message response files'
  | .getFreeDiskSpace, .status response, files' =>
    files' = files ∧ ∃ free : ℕ, response = statusResponse 0 none (.integer free)
  | .contentsOfDirectory dlValue, .status response, files' => files' = files ∧
    ∃ entries, response = statusResponse 0 none (.dictionary entries) ∧
      Listing hostDir files dlValue entries
  | .unsupported _, .status response, files' => files' = files ∧
    response = statusResponse (-1) (some "Operation not supported") emptyParameter
  | _, _, _ => False

/-- Messages one after the other, each with its reply. -/
inductive Serves : Files → List DlMessage → List Reply → Files → Prop where
  | none (files : Files) : Serves files [] [] files
  | next {files files' files'' : Files} {message : DlMessage} {messages : List DlMessage}
      {reply : Reply} {replies : List Reply} (h : Served hostDir files message reply files')
      (hrest : Serves files' messages replies files'') :
      Serves files (message :: messages) (reply :: replies) files''

end Downloads

section Batches

variable {checks : Bool} {reading : Reading} {disk : Disk} {hostDir : Path}

end Batches

section Listings

variable {attributes : Disk → Path → Attributes} {disk : Disk} {hostDir : Path}

end Listings

section Runs

variable {checks : Bool} {reading : Reading} {freeSpace : Disk → ℕ}
  {attributes : Disk → Path → Attributes} {hostDir : Path}

/-- The message that a session ends with has this result. -/
def DlMessage.result : DlMessage → Option (Option Dictionary)
  | .processMessage dlValue => some (match dlValue with
    | .array (_ :: .dictionary dict :: _) => some dict
    | _ => none)
  | .disconnect => some none
  | _ => none

/-- One more reply, and the files as the message leaves them. -/
def Answered (hostDir : Path) (session : Session) (message : DlMessage) (session' : Session) : Prop :=
  ∃ reply, session'.replies = session.replies ++ [reply] ∧
    Served hostDir session.disk.files message reply session'.disk.files

theorem send_done {sent : Bool} {reply : Reply} {session session' : Session} {value : Unit}
    (h : send sent reply session = (.done value, session')) :
    session' = { session with replies := session.replies ++ [reply] } := by
  unfold send at h
  cases sent with
  | false => cases h
  | true =>
    cases h
    rfl

/-- A program that returns or fails. -/
def Returns {α : Type} (m : Call α) : Prop :=
  Triple (fun _ => True) m (fun _ _ => True) (fun _ _ => True) fun _ => False

theorem Returns.bind {α β : Type} {m : Call α} {next : α → Call β} (hm : Returns m)
    (hnext : ∀ value, Returns (next value)) : Returns (m >>= next) := Triple.bind hm hnext

theorem Returns.pure {α : Type} (value : α) : Returns (pure value : Call α) := fun _ _ => trivial

theorem Returns.fail {α : Type} (error : BackupError) : Returns (Prog.fail error : Call α) :=
  fun _ _ => trivial

theorem Returns.ite {α : Type} {c : Prop} [Decidable c] {m n : Call α} (hthen : c → Returns m)
    (helse : ¬ c → Returns n) : Returns (if c then m else n) := Triple.ite hthen helse

theorem readExact_returns (count : ℕ) : Returns (readExact count) := by
  intro host _
  unfold readExact
  split <;> exact trivial

/-- A program that fails without a reply, if it does not return. -/
def Silent {α : Type} (session : Session) (m : Loop α) : Prop :=
  Triple (fun session' => session'.replies = session.replies) m (fun _ _ => True)
    (fun _ session' => session'.replies = session.replies) fun _ => False

theorem Silent.ends {α : Type} {m : Loop α} {session session' : Session} {outcome : Outcome LoopError α}
    (h : Silent session m) (hrun : m session = (outcome, session')) : outcome ≠ .stopped ∧
      ∀ error, outcome = .failed error → session'.replies = session.replies := by
  have hends := h session rfl
  rw [hrun] at hends
  cases outcome with
  | done value =>
    refine ⟨fun heq => ?_, fun _ heq => ?_⟩
    · cases heq
    · cases heq
  | failed error =>
    refine ⟨fun heq => ?_, fun _ _ => hends⟩
    cases heq
  | stopped => exact hends.elim

/-- How a run ends: waiting behind its messages, with the result of a message, or with a
message that fails. -/
def Ended (rest : List DlMessage) (files : Files) : Outcome LoopError (Option Dictionary) × Session → Prop
  | (.done result, session) => session.disk.files = files ∧
      ∃ message more, rest = message :: more ∧ message.result = some result
  | (.failed _, _) => ∃ message more, rest = message :: more ∧ message.result = none
  | (.stopped, session) => session.disk.files = files ∧ rest = []

end Runs

end XitForge.MobileBackup
