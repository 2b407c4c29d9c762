import XitForge.MobileBackup.Upload

/-!
What an upload leaves of the files that the host has. The old file is removed before the
first code is looked at, and the response at the end reports success whatever the device
sent; so a file that the device fails to send is lost, unless its data blocks are the old
contents.
-/
namespace XitForge.MobileBackup

open ByteStream Program RustText

/-- A file of an upload, whether the device can send it or not. -/
structure Record where
  directory : Bytes
  name : Bytes
  blocks : List Bytes
  /-- The code and the payload of a trailer; a length of zero stands for none. -/
  trailer : Option (UInt8 × Bytes)
  directory_length : 0 < directory.length ∧ directory.length < 2 ^ 32
  name_length : 0 < name.length ∧ name.length < 2 ^ 32
  block_length : ∀ block ∈ blocks, block.length + 1 < 2 ^ 32
  trailer_length : ∀ t ∈ trailer, t.2.length + 1 < 2 ^ 32
  trailer_code : ∀ t ∈ trailer, t.1 ≠ codeFileData
  success_payload : ∀ t ∈ trailer, t.1 = codeSuccess → t.2 = []

/-- The file system that answers as a delegate does: what a file holds after a call. -/
def DelegateCall.effect (path : Path) (answer : Bool) (old : Option Bytes) :
    DelegateCall → Option Bytes
  | .remove removed => if answer ∧ removed <+: path then none else old
  | .createFileWrite created =>
    if answer = false then old
    else if created = path then some []
    else if created <+: path then none
    else old
  | .writeAll written data => if answer ∧ written = path then old.map (· ++ data) else old
  | _ => old

/-- What a file holds after calls of an upload, which come after earlier ones. -/
def contentsAfter (delegate : Delegate) (path : Path) :
    List DelegateCall → List DelegateCall → Option Bytes → Option Bytes
  | _, [], old => old
  | earlier, call :: rest, old =>
    contentsAfter delegate path (earlier ++ [call]) rest
      (call.effect path (delegate earlier call) old)

/-- A call whose failure ends the upload. -/
def DelegateCall.needed : DelegateCall → Bool
  | .createFileWrite _ => true
  | .writeAll _ _ => true
  | _ => false

/-- The storage takes all of the calls that come after earlier ones. -/
def Delegate.Takes (delegate : Delegate) : List DelegateCall → List DelegateCall → Prop
  | _, [] => True
  | earlier, call :: rest =>
    (call.needed = true → delegate earlier call = true) ∧ Takes delegate (earlier ++ [call]) rest

section Takes

variable {delegate : Delegate} {path : Path} (earlier calls more : List DelegateCall)

theorem takes_append :
    delegate.Takes earlier (calls ++ more) ↔
      delegate.Takes earlier calls ∧ delegate.Takes (earlier ++ calls) more := by
  induction calls generalizing earlier with
  | nil => simp [Delegate.Takes]
  | cons call calls ih =>
    rw [List.cons_append, Delegate.Takes, Delegate.Takes, ih, and_assoc, List.append_assoc]
    rfl

theorem contentsAfter_append (old : Option Bytes) :
    contentsAfter delegate path earlier (calls ++ more) old =
      contentsAfter delegate path (earlier ++ calls) more
        (contentsAfter delegate path earlier calls old) := by
  induction calls generalizing earlier old with
  | nil => simp [contentsAfter]
  | cons call calls ih =>
    rw [List.cons_append, contentsAfter, ih, contentsAfter, List.append_assoc]
    rfl

end Takes

namespace Record

variable (record : Record)

def path (hostDir : Path) : Path := hostPath hostDir (fromUtf8Lossy record.name)

def contents : Bytes := record.blocks.flatten

/-- The device reports an error, behind any number of data blocks. -/
def ReportsError : Prop := ∃ t ∈ record.trailer, t.1 ≠ codeSuccess

/-- The record has neither data nor a code, and is passed over. -/
def Skipped : Prop := record.blocks = [] ∧ record.trailer = none

instance : Decidable record.Skipped := inferInstanceAs (Decidable (_ ∧ _))

def encodeTrailer : Bytes :=
  match record.trailer with
  | some (code, payload) => encodeBlock code payload
  | none => beBytes 4 0

def encodeBody : Bytes := record.blocks.flatMap (encodeBlock codeFileData) ++ record.encodeTrailer

def encode : Bytes :=
  beBytes 4 record.directory.length ++ record.directory ++
    (beBytes 4 record.name.length ++ record.name) ++ record.encodeBody

def parentCalls (path : Path) : List DelegateCall :=
  match path.parent with
  | some parent => [.createDirAll parent]
  | none => []

/-- The calls that write the file. -/
def fileCalls (hostDir : Path) (count : UInt32) : List DelegateCall :=
  [.remove (record.path hostDir), .createFileWrite (record.path hostDir)] ++
    record.blocks.map (.writeAll (record.path hostDir)) ++
    [.onFileReceived (fromUtf8Lossy record.name) (count + 1)]

def calls (hostDir : Path) (count : UInt32) : List DelegateCall :=
  parentCalls (record.path hostDir) ++
    if record.Skipped then [] else record.fileCalls hostDir count

def countAfter (count : UInt32) : UInt32 := if record.Skipped then count else count + 1

end Record

/-- The calls that the records of an upload are for. -/
def uploadCalls (hostDir : Path) : UInt32 → List Record → List DelegateCall
  | _, [] => []
  | count, record :: rest =>
    record.calls hostDir count ++ uploadCalls hostDir (record.countAfter count) rest

def encodeUpload (records : List Record) : Bytes := records.flatMap Record.encode ++ beBytes 4 0

section Receiving

variable {delegate : Delegate} {dst : Path} {rest : Bytes} (record : Record)

/-- A program that is done if the storage takes its calls, and fails otherwise. -/
def DoneIfTaken {α : Type} (delegate : Delegate) (run : Outcome BackupError α × Host) (value : α)
    (rest : Bytes) (earlier calls : List DelegateCall) : Prop :=
  (delegate.Takes earlier calls → run = (.done value, ⟨rest, earlier ++ calls⟩)) ∧
    (¬ delegate.Takes earlier calls → ∃ error host, run = (.failed error, host))

theorem DoneIfTaken.nil {α : Type} {run : Outcome BackupError α × Host} {value : α}
    {earlier : List DelegateCall} (h : run = (.done value, ⟨rest, earlier⟩)) :
    DoneIfTaken delegate run value rest earlier [] := by
  constructor
  · intro _
    rw [h, List.append_nil]
  · intro hnot
    exact absurd trivial hnot

/-- A call that is taken, or whose answer is not looked at. -/
theorem DoneIfTaken.cons {α : Type} {run : Outcome BackupError α × Host} {value : α}
    {earlier calls : List DelegateCall} {call : DelegateCall}
    (h : call.needed = true → delegate earlier call = true)
    (hrest : DoneIfTaken delegate run value rest (earlier ++ [call]) calls) :
    DoneIfTaken delegate run value rest earlier (call :: calls) := by
  constructor
  · intro htakes
    rw [hrest.1 htakes.2, List.append_assoc]
    rfl
  · intro hnot
    exact hrest.2 fun htakes => hnot ⟨h, htakes⟩

theorem DoneIfTaken.refused {α : Type} {run : Outcome BackupError α × Host} {value : α}
    {earlier calls : List DelegateCall} {call : DelegateCall} (hneeded : call.needed = true)
    (h : delegate earlier call = false) (hfailed : ∃ error host, run = (.failed error, host)) :
    DoneIfTaken delegate run value rest earlier (call :: calls) := by
  constructor
  · intro htakes
    rw [htakes.1 hneeded] at h
    cases h
  · intro _
    exact hfailed

theorem DoneIfTaken.bind {α β : Type} {first : Call α} {next : α → Call β} {host : Host}
    {value : α} {value' : β} {middle : Bytes} {earlier calls more : List DelegateCall}
    (h : DoneIfTaken delegate (first host) value middle earlier calls)
    (hnext : DoneIfTaken delegate (next value ⟨middle, earlier ++ calls⟩) value' rest
      (earlier ++ calls) more) :
    DoneIfTaken delegate ((first >>= next) host) value' rest earlier (calls ++ more) := by
  constructor
  · intro htakes
    obtain ⟨hcalls, hmore⟩ := (takes_append earlier calls more).mp htakes
    rw [Prog.bind_done (h.1 hcalls), hnext.1 hmore, List.append_assoc]
  · intro hnot
    by_cases hcalls : delegate.Takes earlier calls
    · rw [Prog.bind_done (h.1 hcalls)]
      exact hnext.2 fun hmore => hnot ((takes_append earlier calls more).mpr ⟨hcalls, hmore⟩)
    · obtain ⟨error, host', hfailed⟩ := h.2 hcalls
      exact ⟨error, host', Prog.bind_failed hfailed⟩

/-- The length and the code that the loop over the blocks ends with. -/
def Record.lastHeader : ℕ × UInt8 :=
  match record.trailer with
  | some (code, payload) => (payload.length + 1, code)
  | none => (0, codeFileData)

def Record.trailerPayload : Bytes := (record.trailer.map Prod.snd).getD []

theorem splitU32_trailer_none (h : record.trailer = none) :
    splitU32 (record.encodeTrailer ++ rest) = some (0, rest) := by
  rw [Record.encodeTrailer, h]
  exact splitU32_append (by omega) rest

theorem splitU32_trailer_some {code : UInt8} {payload : Bytes}
    (h : record.trailer = some (code, payload)) :
    splitU32 (record.encodeTrailer ++ rest) =
      some (payload.length + 1, code :: (payload ++ rest)) := by
  rw [Record.encodeTrailer, h]
  exact splitU32_block (record.trailer_length _ h)

theorem receiveBlocks_refused {fuel : ℕ} {block more : Bytes} {earlier : List DelegateCall}
    (h : delegate earlier (.writeAll dst block) = false) :
    ∃ host, receiveBlocks delegate dst (fuel + 1) (block.length + 1) codeFileData
      ⟨block ++ more, earlier⟩ = (.failed .writeFile, host) := by
  have hread : readExact (block.length + 1 - 1) ⟨block ++ more, earlier⟩ =
      (.done block, ⟨more, earlier⟩) := readExact_some (splitExact_append (by omega) more)
  have hwrite : ask delegate (.writeAll dst block) ⟨more, earlier⟩ =
      (.done false, ⟨more, earlier ++ [.writeAll dst block]⟩) := by
    unfold ask
    rw [h]
  refine ⟨⟨more, earlier ++ [.writeAll dst block]⟩, ?_⟩
  rw [receiveBlocks, if_pos rfl, Prog.bind_done hread, Prog.bind_done hwrite, if_pos (by simp)]
  rfl

/-- A block that is taken, and the header behind it. -/
theorem receiveBlocks_taken {fuel nlen : ℕ} {block more rest : Bytes}
    {earlier : List DelegateCall} (h : delegate earlier (.writeAll dst block) = true)
    (hnext : splitU32 more = some (nlen, rest)) :
    receiveBlocks delegate dst (fuel + 1) (block.length + 1) codeFileData ⟨block ++ more, earlier⟩ =
      (if nlen > 0 then do
        let code ← readOne
        receiveBlocks delegate dst fuel nlen code
      else pure (nlen, codeFileData) : Call (ℕ × UInt8))
        ⟨rest, earlier ++ [.writeAll dst block]⟩ := by
  have hread : readExact (block.length + 1 - 1) ⟨block ++ more, earlier⟩ =
      (.done block, ⟨more, earlier⟩) := readExact_some (splitExact_append (by omega) more)
  have hwrite : ask delegate (.writeAll dst block) ⟨more, earlier⟩ =
      (.done true, ⟨more, earlier ++ [.writeAll dst block]⟩) := by
    unfold ask
    rw [h]
  rw [receiveBlocks, if_pos rfl, Prog.bind_done hread, Prog.bind_done hwrite, if_neg (by simp),
    Prog.bind_done (readBeU32_some hnext)]

/-- A block with what follows it, where the storage takes the block. -/
theorem doneIfTaken_block {fuel nlen : ℕ} {block more stream : Bytes} {value : ℕ × UInt8}
    {earlier calls : List DelegateCall} (hnext : splitU32 more = some (nlen, stream))
    (hrest : DoneIfTaken delegate
      ((if nlen > 0 then do
          let code ← readOne
          receiveBlocks delegate dst fuel nlen code
        else pure (nlen, codeFileData) : Call (ℕ × UInt8))
          ⟨stream, earlier ++ [.writeAll dst block]⟩)
      value rest (earlier ++ [.writeAll dst block]) calls) :
    DoneIfTaken delegate (receiveBlocks delegate dst (fuel + 1) (block.length + 1) codeFileData
      ⟨block ++ more, earlier⟩) value rest earlier (.writeAll dst block :: calls) := by
  cases htaken : delegate earlier (.writeAll dst block) with
  | false =>
    obtain ⟨host, hfailed⟩ := receiveBlocks_refused htaken
    exact .refused rfl htaken ⟨_, host, hfailed⟩
  | true =>
    apply DoneIfTaken.cons (fun _ => htaken)
    rw [receiveBlocks_taken htaken hnext]
    exact hrest

/-- From the data of a block on, to behind the code of the trailer. -/
theorem receiveBlocks_record (block : Bytes) (blocks : List Bytes) {fuel : ℕ}
    (earlier : List DelegateCall) (hblocks : ∀ block ∈ blocks, block.length + 1 < 2 ^ 32)
    (hfuel : blocks.length < fuel) :
    DoneIfTaken delegate (receiveBlocks delegate dst fuel (block.length + 1) codeFileData
        ⟨block ++ (blocks.flatMap (encodeBlock codeFileData) ++ (record.encodeTrailer ++ rest)),
          earlier⟩)
      record.lastHeader (record.trailerPayload ++ rest) earlier
      ((block :: blocks).map (.writeAll dst)) := by
  induction blocks generalizing fuel block earlier with
  | nil =>
    obtain ⟨fuel, rfl⟩ : ∃ more, fuel = more + 1 := ⟨fuel - 1, by simp at hfuel; omega⟩
    rw [List.flatMap_nil, List.nil_append]
    rcases htrailer : record.trailer with _ | ⟨code, payload⟩
    · apply doneIfTaken_block (splitU32_trailer_none record htrailer)
      apply DoneIfTaken.nil
      rw [if_neg (Nat.lt_irrefl 0), Record.lastHeader, Record.trailerPayload, htrailer]
      rfl
    · have hcode : code ≠ codeFileData := record.trailer_code _ htrailer
      apply doneIfTaken_block (splitU32_trailer_some record htrailer)
      apply DoneIfTaken.nil
      rw [if_pos (Nat.succ_pos _), Prog.bind_done (readOne_cons rfl), receiveBlocks_stop hcode,
        Record.lastHeader, Record.trailerPayload, htrailer]
      rfl
  | cons next blocks ih =>
    obtain ⟨fuel, rfl⟩ : ∃ more, fuel = more + 1 := ⟨fuel - 1, by omega⟩
    obtain ⟨hnext, hrest⟩ := List.forall_mem_cons.mp hblocks
    rw [List.flatMap_cons, List.append_assoc]
    apply doneIfTaken_block (splitU32_block hnext)
    rw [if_pos (Nat.succ_pos _), Prog.bind_done (readOne_cons rfl)]
    exact ih next _ hrest (by simpa using hfuel)

/-- The first header of a record that is not passed over, and the loop behind it. -/
theorem receiveBlocks_first (h : ¬ record.Skipped) :
    ∃ nlen code stream, nlen ≠ 0 ∧
      splitU32 (record.encodeBody ++ rest) = some (nlen, code :: stream) ∧
      ∀ earlier : List DelegateCall, DoneIfTaken delegate
        (receiveBlocks delegate dst (stream.length + 1) nlen code ⟨stream, earlier⟩)
        record.lastHeader (record.trailerPayload ++ rest) earlier
        (record.blocks.map (.writeAll dst)) := by
  rw [Record.encodeBody, List.append_assoc]
  rcases hblocks : record.blocks with _ | ⟨block, blocks⟩
  · rcases htrailer : record.trailer with _ | ⟨code, payload⟩
    · exact absurd ⟨hblocks, htrailer⟩ h
    · have hcode : code ≠ codeFileData := record.trailer_code _ htrailer
      refine ⟨_, _, _, Nat.succ_ne_zero _, splitU32_trailer_some record htrailer, ?_⟩
      intro earlier
      apply DoneIfTaken.nil
      rw [receiveBlocks_stop hcode, Record.lastHeader, Record.trailerPayload, htrailer]
      rfl
  · have hlength := record.block_length
    rw [hblocks] at hlength
    obtain ⟨hblock, hrest⟩ := List.forall_mem_cons.mp hlength
    rw [List.flatMap_cons, List.append_assoc]
    refine ⟨_, _, _, Nat.succ_ne_zero _, splitU32_block hblock, ?_⟩
    intro earlier
    apply receiveBlocks_record record block blocks earlier hrest
    have hle := length_blocks_le blocks
    simp only [List.length_append]
    omega

/-- What is left of a trailer is read, if it is not of a success. -/
theorem receive_trailer {α : Type} (value : α) (calls : List DelegateCall) :
    (if record.lastHeader.1 > 0 ∧ record.lastHeader.2 ≠ codeFileData ∧
        record.lastHeader.2 ≠ codeSuccess then do
        let _ ← readExact (record.lastHeader.1 - 1)
        pure value
      else pure value : Call α) ⟨record.trailerPayload ++ rest, calls⟩ =
        (.done value, ⟨rest, calls⟩) := by
  unfold Record.lastHeader Record.trailerPayload
  rcases htrailer : record.trailer with _ | ⟨code, payload⟩
  · rfl
  · have hcode : code ≠ codeFileData := record.trailer_code _ htrailer
    by_cases hsuccess : code = codeSuccess
    · have hpayload : payload = [] := record.success_payload _ htrailer hsuccess
      rw [if_neg (by simp [hsuccess]), hpayload]
      rfl
    · have hread : readExact (payload.length + 1 - 1) ⟨payload ++ rest, calls⟩ =
          (.done payload, ⟨rest, calls⟩) := readExact_some (splitExact_append (by omega) rest)
      rw [if_pos ⟨Nat.succ_pos _, hcode, hsuccess⟩]
      exact Prog.bind_done hread

theorem createParent_calls (path : Path) (stream : Bytes) (earlier : List DelegateCall) :
    DoneIfTaken delegate (createParent delegate path ⟨stream, earlier⟩) () stream earlier
      (Record.parentCalls path) := by
  unfold createParent Record.parentCalls
  cases path.parent with
  | none => exact .nil rfl
  | some parent => exact .cons (fun h => Bool.noConfusion h) (.nil rfl)

/-- The file of a record, behind its name. -/
theorem receiveFile_record (hostDir : Path) (count : UInt32) (earlier : List DelegateCall) :
    DoneIfTaken delegate (receiveFile delegate hostDir (fromUtf8Lossy record.name) count
        ⟨record.encodeBody ++ rest, earlier⟩)
      (record.countAfter count) rest earlier (record.calls hostDir count) := by
  have hdst : hostPath hostDir (fromUtf8Lossy record.name) = record.path hostDir := rfl
  have hcalls : record.fileCalls hostDir count = .remove (record.path hostDir) ::
      .createFileWrite (record.path hostDir) ::
      (record.blocks.map (.writeAll (record.path hostDir)) ++
        [.onFileReceived (fromUtf8Lossy record.name) (count + 1)]) := rfl
  unfold receiveFile Record.calls Record.countAfter
  dsimp only
  rw [hdst, hcalls]
  apply DoneIfTaken.bind (createParent_calls _ _ _)
  generalize record.path hostDir = dst at *
  generalize earlier ++ Record.parentCalls dst = earlier
  by_cases hskipped : record.Skipped
  · have hbody : splitU32 (record.encodeBody ++ rest) = some (0, rest) := by
      rw [Record.encodeBody, hskipped.1]
      exact splitU32_trailer_none record hskipped.2
    rw [if_pos hskipped, if_pos hskipped, Prog.bind_done (readBeU32_some hbody), if_pos rfl]
    exact .nil rfl
  · obtain ⟨nlen, code, stream, hne, hfirst, hloop⟩ :=
      @receiveBlocks_first delegate dst rest record hskipped
    have hremove : ask delegate (.remove dst) ⟨stream, earlier⟩ =
        (.done (delegate earlier (.remove dst)), ⟨stream, earlier ++ [.remove dst]⟩) := rfl
    have hcreate (answer : Bool)
        (h : delegate (earlier ++ [.remove dst]) (.createFileWrite dst) = answer) :
        ask delegate (.createFileWrite dst) ⟨stream, earlier ++ [.remove dst]⟩ =
          (.done answer, ⟨stream, earlier ++ [.remove dst] ++ [.createFileWrite dst]⟩) := by
      unfold ask
      rw [h]
    rw [if_neg hskipped, if_neg hskipped, Prog.bind_done (readBeU32_some hfirst), if_neg hne,
      Prog.bind_done (readOne_cons rfl), Prog.bind_done hremove]
    apply DoneIfTaken.cons (fun h => Bool.noConfusion h)
    cases htaken : delegate (earlier ++ [.remove dst]) (.createFileWrite dst) with
    | false =>
      rw [Prog.bind_done (hcreate false htaken), if_pos (by simp)]
      exact .refused rfl htaken ⟨.createFile, _, rfl⟩
    | true =>
      apply DoneIfTaken.cons (fun _ => htaken)
      rw [Prog.bind_done (hcreate true htaken), if_neg (by simp),
        Prog.bind_done (rfl : Prog.get _ = (.done _, _))]
      apply DoneIfTaken.bind (hloop _)
      apply DoneIfTaken.cons (fun h => Bool.noConfusion h)
      apply DoneIfTaken.nil
      exact receive_trailer record _ _

/-- The loop over the records, up to the length of zero behind them. -/
theorem receiveFiles_records (hostDir : Path) (records : List Record) {fuel : ℕ} (count : UInt32)
    (earlier : List DelegateCall) (hfuel : records.length < fuel) :
    DoneIfTaken delegate (receiveFiles delegate hostDir fuel count
        ⟨encodeUpload records ++ rest, earlier⟩)
      () rest earlier (uploadCalls hostDir count records) := by
  induction records generalizing fuel count earlier with
  | nil =>
    obtain ⟨fuel, rfl⟩ : ∃ more, fuel = more + 1 := ⟨fuel - 1, by simp at hfuel; omega⟩
    have hend : receiveHeader ⟨encodeUpload [] ++ rest, earlier⟩ =
        (.done none, ⟨rest, earlier⟩) := by
      unfold receiveHeader
      rw [Prog.bind_done (readBeU32_some (splitU32_append (by omega) rest)), if_pos rfl]
      rfl
    apply DoneIfTaken.nil
    rw [receiveFiles, Prog.bind_done hend]
    rfl
  | cons record records ih =>
    obtain ⟨fuel, rfl⟩ : ∃ more, fuel = more + 1 := ⟨fuel - 1, by simp at hfuel; omega⟩
    have hstream : encodeUpload (record :: records) ++ rest =
        beBytes 4 record.directory.length ++ record.directory ++
          (beBytes 4 record.name.length ++ record.name) ++
          (record.encodeBody ++ (encodeUpload records ++ rest)) := by
      simp only [encodeUpload, Record.encode, List.flatMap_cons, List.append_assoc]
    rw [hstream, receiveFiles, Prog.bind_done
      (receiveHeader_names record.directory_length record.name_length _ _), uploadCalls]
    dsimp only
    apply DoneIfTaken.bind (receiveFile_record record hostDir count earlier)
    exact ih _ _ (by simpa using hfuel)

theorem length_le_encodeUpload (records : List Record) :
    records.length < (encodeUpload records).length := by
  have hlength : records.length ≤ (records.flatMap Record.encode).length := by
    induction records with
    | nil => exact Nat.le_refl _
    | cons record records ih =>
      rw [List.flatMap_cons, List.length_append, List.length_cons]
      simp only [Record.encode, List.length_append, length_beBytes]
      omega
  unfold encodeUpload
  rw [List.length_append, length_beBytes]
  omega

/-- `handle_upload_files` on the records of an upload. -/
theorem handleUploadFiles_records (delegate : Delegate) (hostDir : Path) (sent : Bool)
    (records : List Record) (rest : Bytes) :
    (delegate.Takes [] (uploadCalls hostDir 0 records) →
      handleUploadFiles delegate hostDir sent ⟨encodeUpload records ++ rest, []⟩ =
        (if sent then .done () else .failed .sendStatus,
          ⟨rest, uploadCalls hostDir 0 records⟩)) ∧
    (¬ delegate.Takes [] (uploadCalls hostDir 0 records) →
      ∃ error host, handleUploadFiles delegate hostDir sent ⟨encodeUpload records ++ rest, []⟩ =
        (.failed error, host)) := by
  have hfuel : records.length < (encodeUpload records ++ rest).length + 1 := by
    have hlength := length_le_encodeUpload records
    rw [List.length_append]
    omega
  have hfiles : DoneIfTaken delegate (receiveFiles delegate hostDir _ 0
      ⟨encodeUpload records ++ rest, []⟩) () rest [] (uploadCalls hostDir 0 records) :=
    receiveFiles_records hostDir records 0 [] hfuel
  unfold handleUploadFiles
  rw [Prog.bind_done (rfl : Prog.get _ = (.done _, _))]
  constructor
  · intro htakes
    rw [Prog.bind_done (hfiles.1 htakes)]
    cases sent <;> rfl
  · intro hnot
    obtain ⟨error, host, hfailed⟩ := hfiles.2 hnot
    exact ⟨error, host, Prog.bind_failed hfailed⟩

end Receiving

section Contents

variable {delegate : Delegate} {hostDir path : Path} {earlier : List DelegateCall}

/-- The record writes the file, or a file in the place of a directory above it. -/
def Record.Touches (record : Record) (hostDir path : Path) : Prop :=
  ¬ record.Skipped ∧ record.path hostDir <+: path

instance (record : Record) (hostDir path : Path) : Decidable (record.Touches hostDir path) :=
  inferInstanceAs (Decidable (_ ∧ _))

/-- What a file holds after a record. -/
def Record.leaves (record : Record) (hostDir path : Path) (old : Option Bytes) : Option Bytes :=
  if record.Touches hostDir path then
    if record.path hostDir = path then some record.contents else none
  else old

theorem contentsAfter_writes {dst : Path} {blocks : List Bytes} {old : Option Bytes}
    (h : delegate.Takes earlier (blocks.map (.writeAll dst))) :
    contentsAfter delegate path earlier (blocks.map (.writeAll dst)) old =
      if dst = path then old.map (· ++ blocks.flatten) else old := by
  induction blocks generalizing earlier old with
  | nil => simp [contentsAfter]
  | cons block blocks ih =>
    rw [List.map_cons] at h ⊢
    rw [contentsAfter, ih h.2, h.1 rfl, DelegateCall.effect]
    by_cases hdst : dst = path
    · simp [hdst, Function.comp_def]
    · simp [hdst]

theorem contentsAfter_fileCalls {record : Record} {count : UInt32} {old : Option Bytes}
    (h : delegate.Takes earlier (record.fileCalls hostDir count)) :
    contentsAfter delegate path earlier (record.fileCalls hostDir count) old =
      if record.path hostDir <+: path then
        if record.path hostDir = path then some record.contents else none
      else old := by
  unfold Record.fileCalls at h ⊢
  generalize record.path hostDir = dst at h ⊢
  obtain ⟨hwrites, -⟩ := (takes_append ..).mp h
  obtain ⟨hopen, hwrites⟩ := (takes_append ..).mp hwrites
  have hcreated : delegate (earlier ++ [.remove dst]) (.createFileWrite dst) = true :=
    hopen.2.1 rfl
  rw [contentsAfter_append, contentsAfter_append, contentsAfter_writes hwrites]
  simp only [contentsAfter, DelegateCall.effect, hcreated]
  by_cases hbelow : dst <+: path
  · by_cases hdst : dst = path
    · simp [hdst, Record.contents]
    · simp [hbelow, hdst]
  · have hdst : dst ≠ path := by
      intro heq
      subst heq
      exact hbelow List.prefix_rfl
    simp [hbelow, hdst]

theorem contentsAfter_calls {record : Record} {count : UInt32} {old : Option Bytes}
    (h : delegate.Takes earlier (record.calls hostDir count)) :
    contentsAfter delegate path earlier (record.calls hostDir count) old =
      record.leaves hostDir path old := by
  unfold Record.calls at h ⊢
  obtain ⟨-, hfile⟩ := (takes_append ..).mp h
  have hparent :
      contentsAfter delegate path earlier (Record.parentCalls (record.path hostDir)) old =
      old := by
    unfold Record.parentCalls
    cases (record.path hostDir).parent with
    | none => rfl
    | some parent => rfl
  rw [contentsAfter_append, hparent]
  unfold Record.leaves Record.Touches
  by_cases hskipped : record.Skipped
  · simp [hskipped, contentsAfter]
  · rw [if_neg hskipped] at hfile ⊢
    rw [contentsAfter_fileCalls hfile]
    simp [hskipped]

theorem contentsAfter_uploadCalls {records : List Record} {count : UInt32} {old : Option Bytes}
    (h : delegate.Takes earlier (uploadCalls hostDir count records)) :
    contentsAfter delegate path earlier (uploadCalls hostDir count records) old =
      records.foldl (fun old record => record.leaves hostDir path old) old := by
  induction records generalizing earlier count old with
  | nil => rfl
  | cons record records ih =>
    rw [uploadCalls] at h ⊢
    obtain ⟨hrecord, hrest⟩ := (takes_append ..).mp h
    rw [contentsAfter_append, contentsAfter_calls hrecord, ih hrest, List.foldl_cons]

/-- The last record that writes the file, or a file in the place of a directory above it. -/
def lastTouching (hostDir path : Path) (records : List Record) : Option Record :=
  (records.filter fun record => decide (record.Touches hostDir path)).getLast?

theorem foldl_leaves (records : List Record) (old : Option Bytes) :
    records.foldl (fun old record => record.leaves hostDir path old) old =
      match lastTouching hostDir path records with
      | some last => if last.path hostDir = path then some last.contents else none
      | none => old := by
  induction records using List.reverseRecOn with
  | nil => rfl
  | append_singleton records record ih =>
    unfold lastTouching at ih ⊢
    rw [List.foldl_append, List.foldl_cons, List.foldl_nil, ih, List.filter_append]
    by_cases htouches : record.Touches hostDir path <;> simp [Record.leaves, htouches]

theorem lastTouching_isSome {records : List Record} {record : Record} (hmem : record ∈ records)
    (h : record.Touches hostDir path) : ∃ last, lastTouching hostDir path records = some last := by
  have hne : records.filter (fun record => decide (record.Touches hostDir path)) ≠ [] :=
    List.ne_nil_of_mem (List.mem_filter.mpr ⟨hmem, decide_eq_true h⟩)
  exact ⟨_, List.getLast?_eq_getLast_of_ne_nil hne⟩

theorem Record.ReportsError.touches {record : Record} (h : record.ReportsError) :
    record.Touches hostDir (record.path hostDir) := by
  obtain ⟨t, ht, _⟩ := h
  refine ⟨?_, List.prefix_rfl⟩
  intro hgiven
  obtain ⟨-, hnone⟩ := hgiven
  rw [hnone] at ht
  cases ht

end Contents

section Uploads

/-- `handle_upload_files` sends zero as the status code of its response. -/
def uploadStatus : ℤ := 0

/-- The caller gets an error, or the device a status that is not zero. -/
def FailureVisible (outcome : Outcome BackupError Unit) : Prop :=
  (∃ error, outcome = .failed error) ∨ uploadStatus ≠ 0

/-- After an upload a file of the host holds what it held, or the failure is visible. -/
def KeepsOrTells (delegate : Delegate) (hostDir : Path) (sent : Bool) (path : Path) (old : Bytes)
    (stream : Bytes) : Prop :=
  let result := handleUploadFiles delegate hostDir sent ⟨stream, []⟩
  contentsAfter delegate path [] result.2.calls (some old) = some old ∨ FailureVisible result.1

/-- A file that the device reports an error for, behind any number of data blocks, is kept
or the failure is visible, exactly when the response cannot be sent, the storage refuses
to open a file or to write a block, or the last record for the file has the old contents. -/
theorem keepsOrTells_iff (delegate : Delegate) (hostDir : Path) (sent : Bool)
    (before after : List Record) (record : Record) (herror : record.ReportsError)
    (old rest : Bytes) :
    KeepsOrTells delegate hostDir sent (record.path hostDir) old
        (encodeUpload (before ++ record :: after) ++ rest) ↔
      sent = false ∨
        ¬ delegate.Takes [] (uploadCalls hostDir 0 (before ++ record :: after)) ∨
        ∃ last, lastTouching hostDir (record.path hostDir) (before ++ record :: after) = some last ∧
          last.path hostDir = record.path hostDir ∧ last.contents = old := by
  obtain ⟨hdone, hfailed⟩ :=
    handleUploadFiles_records delegate hostDir sent (before ++ record :: after) rest
  have hmem : record ∈ before ++ record :: after := List.mem_append_right before List.mem_cons_self
  obtain ⟨last, hlast⟩ : ∃ last,
      lastTouching hostDir (record.path hostDir) (before ++ record :: after) = some last :=
    lastTouching_isSome hmem herror.touches
  unfold KeepsOrTells
  by_cases htakes : delegate.Takes [] (uploadCalls hostDir 0 (before ++ record :: after))
  · have hleft : contentsAfter delegate (record.path hostDir) [] _ (some old) = _ :=
      contentsAfter_uploadCalls htakes
    rw [foldl_leaves, hlast] at hleft
    rw [hdone htakes]
    dsimp only at hleft ⊢
    rw [hleft]
    cases sent with
    | false => exact iff_of_true (Or.inr (Or.inl ⟨_, rfl⟩)) (Or.inl rfl)
    | true =>
      have hsilent : ¬ FailureVisible (.done ()) := by
        intro hcase
        rcases hcase with ⟨error, herror⟩ | hstatus
        · cases herror
        · exact hstatus rfl
      rw [if_pos rfl, or_iff_left hsilent]
      constructor
      · intro hkept
        right
        right
        split_ifs at hkept with hpath
        exact ⟨last, hlast, hpath, Option.some.inj hkept⟩
      · intro hcase
        rcases hcase with hsent | hnot | ⟨other, hother, hpath, hcontents⟩
        · cases hsent
        · exact absurd htakes hnot
        · rw [hlast] at hother
          obtain rfl : last = other := Option.some.inj hother
          rw [if_pos hpath, hcontents]
  · obtain ⟨error, host, heq⟩ := hfailed htakes
    rw [heq]
    exact iff_of_true (Or.inr (Or.inl ⟨error, rfl⟩)) (Or.inr (Or.inl htakes))

theorem directory_length_d : 0 < [(0x64 : UInt8)].length ∧ [(0x64 : UInt8)].length < 2 ^ 32 := by
  decide

theorem name_length_f : 0 < [(0x66 : UInt8)].length ∧ [(0x66 : UInt8)].length < 2 ^ 32 := by
  decide

/-- A file `f` that the device cannot send: the blocks that it sent before the error. -/
def failedRecord (blocks : List Bytes) (h : ∀ block ∈ blocks, block.length + 1 < 2 ^ 32) :
    Record where
  directory := [0x64]
  name := [0x66]
  blocks := blocks
  trailer := some (0x06, [])
  directory_length := directory_length_d
  name_length := name_length_f
  block_length := h
  trailer_length := by simp
  trailer_code := by decide
  success_payload := by simp

theorem keepsOrTells_same :
    KeepsOrTells (fun _ _ => true) [.rootDir] true
      ((failedRecord [[1]] (by decide)).path [.rootDir])
      [1] (encodeUpload ([] ++ failedRecord [[1]] (by decide) :: []) ++ []) :=
  (keepsOrTells_iff (fun _ _ => true) [.rootDir] true [] [] (failedRecord [[1]] (by decide))
    ⟨(0x06, []), rfl, by decide⟩ [1] []).mpr
      (Or.inr (Or.inr ⟨failedRecord [[1]] (by decide), rfl, rfl, rfl⟩))

/-- The device reports an error at once: the old file is gone, and the response tells of
success. -/
theorem failed_upload_loses_file :
    ¬ ∀ (delegate : Delegate) (hostDir : Path) (sent : Bool) (record : Record) (old : Bytes),
      record.ReportsError →
        KeepsOrTells delegate hostDir sent (record.path hostDir) old (encodeUpload [record]) := by
  intro h
  have hkept := h (fun _ _ => true) [.rootDir] true (failedRecord [] (by decide)) [1]
    ⟨(0x06, []), rfl, by decide⟩
  rcases hkept with hcontents | ⟨error, hfailed⟩ | hstatus
  · revert hcontents
    decide
  · have hdone : (handleUploadFiles (fun _ _ => true) [.rootDir] true
        ⟨encodeUpload [failedRecord [] (by decide)], []⟩).1 = .done () := by decide
    rw [hdone] at hfailed
    cases hfailed
  · exact hstatus rfl

end Uploads

end XitForge.MobileBackup
