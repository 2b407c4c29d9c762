import XitForge.Idevice.RawSend
import XitForge.KeyedList
import XitForge.MobileBackup.Upload
import XitForge.Restore.StateMachine

/-!
The byte stream of a download. The device asks for files by name; each is sent as its name,
blocks of data and a trailer, and a length of zero ends the batch. What could not be sent
is reported once more in the status message behind it.
-/
namespace XitForge.MobileBackup.Download

open ByteStream RustEval RustText KeyedList
open Xpc (PlistValue)
open Restore (Dictionary asString)

/-- `DL_CODE_ERROR_LOCAL`. -/
def codeErrorLocal : UInt8 := 0x06

/-- `DEV_ERR_ENOENT`. -/
def devErrEnoent : ℤ := -6

/-- `DEV_ERR_GENERIC`. -/
def devErrGeneric : ℤ := -1

/-- What a read into the buffer of the loop returns. -/
structure Read where
  bytes : Bytes
  ne_nil : bytes ≠ []
  length_le : bytes.length ≤ 32768

/-- What becomes of opening a file, and of reading it to the end or to an error. -/
inductive Opened where
  | notFound (text : String)
  | failed (text : String)
  | file (reads : List Read) (error : Option String)

/-- The storage, by the number of files it was asked for before. -/
abbrev Storage := ℕ → Path → Opened

section Code

-- whether overflow is checked
variable (checks : Bool)

def bytesOf (text : String) : Bytes := text.toList.flatMap String.utf8EncodeChar

/-- `send_raw`, which has sent the bytes if it returns. -/
def sendRaw (message out : Bytes) : Eval BackupError Bytes := do
  let _ ← Eval.sub 64 checks (Idevice.RawSend.chunks Idevice.RawSend.maxChunk message).length 1
  return out ++ message

/-- `(len as u32) + 1`. -/
def blockSize (length : ℕ) : Eval BackupError ℕ := Eval.add 32 checks (length % 2 ^ 32) 1

def sendFileError (desc : String) (out : Bytes) : Eval BackupError Bytes := do
  let msg := bytesOf desc
  let size ← blockSize checks msg.length
  sendRaw checks (beBytes 4 size ++ codeErrorLocal :: msg) out

/-- The loop over the reads of a file, and the trailer. -/
def sendBlocks (error : Option String) :
    List Read → Bytes → Eval BackupError (Option (ℤ × String) × Bytes)
  | [], out =>
    match error with
    | none => do
      let out ← sendRaw checks (beBytes 4 1 ++ [codeSuccess]) out
      return (none, out)
    | some desc => do
      let out ← sendFileError checks desc out
      return (some (devErrGeneric, desc), out)
  | read :: rest, out => do
    let size ← blockSize checks read.bytes.length
    let out ← sendRaw checks (beBytes 4 size ++ [codeFileData]) out
    let out ← sendRaw checks read.bytes out
    sendBlocks error rest out

def sendSingleFile (opened : Opened) (relPath : String) (out : Bytes) :
    Eval BackupError (Option (ℤ × String) × Bytes) := do
  let pathBytes := bytesOf relPath
  let out ← sendRaw checks (beBytes 4 pathBytes.length) out
  let out ← sendRaw checks pathBytes out
  match opened with
  | .notFound desc => do
    let out ← sendFileError checks desc out
    return (some (devErrEnoent, desc), out)
  | .failed desc => do
    let out ← sendFileError checks desc out
    return (some (devErrGeneric, desc), out)
  | .file reads error => sendBlocks checks error reads out

/-- What the loop over the files carries along. -/
structure Batch where
  out : Bytes
  errplist : Dictionary
  opens : ℕ

/-- An entry of the Multi status. -/
def errorEntry (sent : ℤ × String) : PlistValue :=
  .dictionary [("DLFileErrorString", .string sent.2), ("DLFileErrorCode", .integer sent.1)]

/-- The loop over the requested files; an item that is not a text is passed over. -/
def sendFiles (storage : Storage) (hostDir : Path) :
    List PlistValue → Batch → Eval BackupError Batch
  | [], batch => return batch
  | item :: rest, batch =>
    match asString item with
    | some path => do
      let (sent, out) ←
        sendSingleFile checks (storage batch.opens (hostPath hostDir path)) path batch.out
      match sent with
      | some failure =>
        sendFiles storage hostDir rest
          ⟨out, insert batch.errplist path (errorEntry failure), batch.opens + 1⟩
      | none => sendFiles storage hostDir rest ⟨out, batch.errplist, batch.opens + 1⟩
    | none => sendFiles storage hostDir rest batch

/-- The files of a message, if it has a list of them. -/
def filesOf : PlistValue → List PlistValue
  | .array (_ :: .array files :: _) => files
  | _ => []

def statusResponse (statusCode : ℤ) (status1 : Option String) (status2 : PlistValue) : PlistValue :=
  .array [.string "DLMessageStatusResponse", .integer statusCode,
    .string (status1.getD "___EmptyParameterString___"), status2]

/-- `handle_download_files`: the bytes of the batch, and the status message behind them. -/
def handleDownloadFiles (storage : Storage) (hostDir : Path) (dlValue : PlistValue) :
    Eval BackupError (Bytes × PlistValue) := do
  let batch ← sendFiles checks storage hostDir (filesOf dlValue) ⟨[], [], 0⟩
  let out ← sendRaw checks (beBytes 4 0) batch.out
  if batch.errplist ≠ [] then
    return (out, statusResponse (-13) (some "Multi status") (.dictionary batch.errplist))
  else return (out, statusResponse 0 none (.dictionary []))

end Code

/-- A name, its blocks, and the code and the payload of the trailer. -/
structure Record where
  name : Bytes
  blocks : List Bytes
  code : UInt8
  payload : Bytes

def Record.encode (record : Record) : Bytes :=
  beBytes 4 record.name.length ++ (record.name ++
    (record.blocks.flatMap (encodeBlock codeFileData) ++ encodeBlock record.code record.payload))

section Grammar

/-- Blocks of data up to a trailer, and what is behind it. -/
inductive Blocks : Bytes → List Bytes → UInt8 → Bytes → Bytes → Prop
  | trailer {stream data rest : Bytes} {code : UInt8} (hcode : code ≠ codeFileData)
      (h : splitU32 stream = some (data.length + 1, code :: (data ++ rest))) :
      Blocks stream [] code data rest
  | block {stream data more payload rest : Bytes} {blocks : List Bytes} {code : UInt8}
      (h : splitU32 stream = some (data.length + 1, codeFileData :: (data ++ more)))
      (hmore : Blocks more blocks code payload rest) :
      Blocks stream (data :: blocks) code payload rest

/-- Records up to a name length of zero, and what is behind it. -/
inductive Records : Bytes → List Record → Bytes → Prop
  | done {stream rest : Bytes} (h : splitU32 stream = some (0, rest)) : Records stream [] rest
  | record {stream name more payload behind rest : Bytes} {blocks : List Bytes} {code : UInt8}
      {records : List Record} (hname : name ≠ [])
      (h : splitU32 stream = some (name.length, name ++ more))
      (hblocks : Blocks more blocks code payload behind) (hbehind : Records behind records rest) :
      Records stream (⟨name, blocks, code, payload⟩ :: records) rest

variable {stream rest rest' payload payload' : Bytes} {blocks blocks' : List Bytes}
  {code code' : UInt8} {records records' : List Record}

/-- A length says where the data ends that it is the length of. -/
theorem block_inj {data data' more more' : Bytes}
    (h : splitU32 stream = some (data.length + 1, code :: (data ++ more)))
    (h' : splitU32 stream = some (data'.length + 1, code' :: (data' ++ more'))) :
    code = code' ∧ data = data' ∧ more = more' := by
  rw [h] at h'
  obtain ⟨hlength, hbytes⟩ := Prod.mk.inj (Option.some.inj h')
  obtain ⟨hcode, happend⟩ := List.cons_eq_cons.mp hbytes
  exact ⟨hcode, List.append_inj happend (Nat.succ.inj hlength)⟩

theorem Blocks.unique (h : Blocks stream blocks code payload rest)
    (h' : Blocks stream blocks' code' payload' rest') :
    blocks = blocks' ∧ code = code' ∧ payload = payload' ∧ rest = rest' := by
  induction h generalizing blocks' with
  | trailer hcode hsplit =>
    cases h' with
    | trailer hcode' hsplit' =>
      obtain ⟨rfl, rfl, rfl⟩ := block_inj hsplit hsplit'
      exact ⟨rfl, rfl, rfl, rfl⟩
    | block hsplit' _ => exact absurd (block_inj hsplit hsplit').1 hcode
  | block hsplit hmore ih =>
    cases h' with
    | trailer hcode' hsplit' => exact absurd (block_inj hsplit' hsplit).1 hcode'
    | block hsplit' hmore' =>
      obtain ⟨_, rfl, rfl⟩ := block_inj hsplit hsplit'
      obtain ⟨rfl, rfl, rfl, rfl⟩ := ih hmore'
      exact ⟨rfl, rfl, rfl, rfl⟩

/-- The bytes are read as records in one way only. -/
theorem Records.unique (h : Records stream records rest) (h' : Records stream records' rest') :
    records = records' ∧ rest = rest' := by
  induction h generalizing records' with
  | done hsplit =>
    cases h' with
    | done hsplit' =>
      rw [hsplit] at hsplit'
      exact ⟨rfl, (Prod.mk.inj (Option.some.inj hsplit')).2⟩
    | record hname hsplit' _ _ =>
      rw [hsplit] at hsplit'
      have hlength := (Prod.mk.inj (Option.some.inj hsplit')).1
      exact absurd (List.length_eq_zero_iff.mp hlength.symm) hname
  | record hname hsplit hblocks hbehind ih =>
    cases h' with
    | done hsplit' =>
      rw [hsplit] at hsplit'
      have hlength := (Prod.mk.inj (Option.some.inj hsplit')).1
      exact absurd (List.length_eq_zero_iff.mp hlength) hname
    | record hname' hsplit' hblocks' hbehind' =>
      rw [hsplit] at hsplit'
      obtain ⟨hlength, happend⟩ := Prod.mk.inj (Option.some.inj hsplit')
      obtain ⟨rfl, rfl⟩ := List.append_inj happend hlength
      obtain ⟨rfl, rfl, rfl, rfl⟩ := hblocks.unique hblocks'
      obtain ⟨rfl, rfl⟩ := ih hbehind'
      exact ⟨rfl, rfl⟩

theorem splitU32_lt {n : ℕ} (h : splitU32 stream = some (n, rest)) : n < 2 ^ 32 := by
  obtain ⟨front, _, hlength, hvalue⟩ := splitU32_eq_some h
  have hlt := beValue_lt front
  rw [hlength, hvalue] at hlt
  omega

/-- A record whose lengths are numbers of 32 bits, and whose name is not taken for the end. -/
structure Record.Fits (record : Record) : Prop where
  name_ne : record.name ≠ []
  name_length : record.name.length < 2 ^ 32
  payload_length : record.payload.length + 1 < 2 ^ 32

theorem Blocks.payload_length (h : Blocks stream blocks code payload rest) :
    payload.length + 1 < 2 ^ 32 := by
  induction h with
  | trailer _ hsplit => exact splitU32_lt hsplit
  | block _ _ ih => exact ih

/-- Whatever is read as records fits into them. -/
theorem Records.fits (h : Records stream records rest) : ∀ record ∈ records, record.Fits := by
  induction h with
  | done _ => exact fun _ hmem => absurd hmem List.not_mem_nil
  | record hname hsplit hblocks _ ih =>
    exact List.forall_mem_cons.mpr ⟨⟨hname, splitU32_lt hsplit, hblocks.payload_length⟩, ih⟩

theorem blocks_encode (blocks : List Bytes) (hblocks : ∀ block ∈ blocks, block.length + 1 < 2 ^ 32)
    (hcode : code ≠ codeFileData) (hpayload : payload.length + 1 < 2 ^ 32) (rest : Bytes) :
    Blocks (blocks.flatMap (encodeBlock codeFileData) ++ encodeBlock code payload ++ rest) blocks
      code payload rest := by
  induction blocks with
  | nil =>
    rw [List.flatMap_nil, List.nil_append]
    exact .trailer hcode (splitU32_block hpayload)
  | cons block blocks ih =>
    obtain ⟨hfirst, hrest⟩ := List.forall_mem_cons.mp hblocks
    rw [List.flatMap_cons, List.append_assoc, List.append_assoc]
    refine .block (splitU32_block hfirst) ?_
    rw [← List.append_assoc]
    exact ih hrest

/-- Records that fit are read as they were written. -/
theorem records_encode (records : List Record) (h : ∀ record ∈ records, record.Fits ∧
      record.code ≠ codeFileData ∧ ∀ block ∈ record.blocks, block.length + 1 < 2 ^ 32) :
    Records (records.flatMap Record.encode ++ beBytes 4 0) records [] := by
  induction records with
  | nil =>
    have hzero : splitU32 (beBytes 4 0 ++ []) = some (0, []) := splitU32_append (by decide) []
    exact .done hzero
  | cons record records ih =>
    obtain ⟨⟨hfits, hcode, hblocks⟩, hrest⟩ := List.forall_mem_cons.mp h
    rw [List.flatMap_cons, List.append_assoc]
    refine .record hfits.name_ne ?_ (blocks_encode record.blocks hblocks hcode
      hfits.payload_length _) (ih hrest)
    rw [Record.encode, List.append_assoc, List.append_assoc]
    exact splitU32_append hfits.name_length _

end Grammar

namespace Opened

/-- The code and the text that a failure is reported with. -/
def failure : Opened → Option (ℤ × String)
  | .notFound text => some (devErrEnoent, text)
  | .failed text => some (devErrGeneric, text)
  | .file _ error => error.map fun text => (devErrGeneric, text)

/-- What is read of the file. -/
def contents : Opened → List Bytes
  | .file reads _ => reads.map Read.bytes
  | _ => []

end Opened

/-- The code and the payload of a trailer. -/
def trailerOf : Option (ℤ × String) → UInt8 × Bytes
  | none => (codeSuccess, [])
  | some (_, text) => (codeErrorLocal, bytesOf text)

/-- The record of a requested file: what was read of it, and how that ended. -/
def recordOf (request : String × Opened) : Record where
  name := bytesOf request.1
  blocks := request.2.contents
  code := (trailerOf request.2.failure).1
  payload := (trailerOf request.2.failure).2

section Sending

variable {checks : Bool}

theorem sendRaw_eq {message : Bytes} (h : message ≠ []) (out : Bytes) :
    sendRaw checks message out = .ok (out ++ message) := by
  unfold sendRaw
  rw [Eval.sub_of_le (Idevice.RawSend.length_chunks_pos_iff.mpr h), Eval.ok_bind, Eval.pure_eq]

theorem blockSize_eq {length : ℕ} (h : length + 1 < 2 ^ 32) :
    blockSize checks length = .ok (length + 1) := by
  unfold blockSize
  rw [Nat.mod_eq_of_lt (by omega), Eval.add_of_lt h]

theorem sendFileError_eq {desc : String} (h : (bytesOf desc).length + 1 < 2 ^ 32) (out : Bytes) :
    sendFileError checks desc out = .ok (out ++ encodeBlock codeErrorLocal (bytesOf desc)) := by
  unfold sendFileError
  dsimp only
  rw [blockSize_eq h, Eval.ok_bind, sendRaw_eq (by simp)]
  rfl

theorem sendBlocks_eq (error : Option String) (reads : List Read) (out : Bytes)
    (h : ∀ text ∈ error, (bytesOf text).length + 1 < 2 ^ 32) :
    sendBlocks checks error reads out =
      .ok ((Opened.file reads error).failure,
        out ++ ((reads.map Read.bytes).flatMap (encodeBlock codeFileData) ++
          encodeBlock (trailerOf (Opened.file reads error).failure).1
            (trailerOf (Opened.file reads error).failure).2)) := by
  induction reads generalizing out with
  | nil =>
    unfold sendBlocks
    cases error with
    | none =>
      dsimp only
      rw [sendRaw_eq (by simp), Eval.ok_bind]
      rfl
    | some desc =>
      dsimp only
      rw [sendFileError_eq (h desc rfl), Eval.ok_bind]
      rfl
  | cons read reads ih =>
    have hlength := read.length_le
    have hblock : beBytes 4 (read.bytes.length + 1) ++ [codeFileData] ++ read.bytes =
        encodeBlock codeFileData read.bytes := by
      rw [encodeBlock, List.append_assoc]
      rfl
    unfold sendBlocks
    rw [blockSize_eq (by omega), Eval.ok_bind, sendRaw_eq (by simp), Eval.ok_bind,
      sendRaw_eq read.ne_nil, Eval.ok_bind, ih, List.append_assoc out, hblock, List.map_cons,
      List.flatMap_cons, List.append_assoc, List.append_assoc]
    rfl

theorem sendSingleFile_eq {opened : Opened} {relPath : String}
    (h : (recordOf (relPath, opened)).Fits) (out : Bytes) :
    sendSingleFile checks opened relPath out =
      .ok (opened.failure, out ++ (recordOf (relPath, opened)).encode) := by
  have hname : sendRaw checks (beBytes 4 (bytesOf relPath).length) out =
      .ok (out ++ beBytes 4 (bytesOf relPath).length) := sendRaw_eq (by
    intro hnil
    exact nomatch congrArg List.length hnil) out
  have hpath : bytesOf relPath ≠ [] := h.name_ne
  have hpayload := h.payload_length
  unfold sendSingleFile
  dsimp only
  rw [hname, Eval.ok_bind, sendRaw_eq hpath, Eval.ok_bind, Record.encode]
  cases opened with
  | notFound desc =>
    dsimp only
    rw [sendFileError_eq hpayload, Eval.ok_bind, List.append_assoc out, List.append_assoc out,
      List.append_assoc]
    rfl
  | failed desc =>
    dsimp only
    rw [sendFileError_eq hpayload, Eval.ok_bind, List.append_assoc out, List.append_assoc out,
      List.append_assoc]
    rfl
  | file reads error =>
    have herror : ∀ text ∈ error, (bytesOf text).length + 1 < 2 ^ 32 := by
      intro text heq
      subst heq
      exact hpayload
    dsimp only
    rw [sendBlocks_eq error reads _ herror, List.append_assoc out, List.append_assoc out,
      List.append_assoc]
    rfl

/-- What the loop is asked for, and what the storage answers to it. -/
def requestsFrom (storage : Storage) (hostDir : Path) : ℕ → List PlistValue → List (String × Opened)
  | _, [] => []
  | opens, item :: rest =>
    match asString item with
    | some path =>
      (path, storage opens (hostPath hostDir path)) :: requestsFrom storage hostDir (opens + 1) rest
    | none => requestsFrom storage hostDir opens rest

/-- The failures of the requests, the last one of a name in its entry. -/
def errplistOf (requests : List (String × Opened)) (errplist : Dictionary) : Dictionary :=
  requests.foldl (fun errplist request =>
    match request.2.failure with
    | some failure => insert errplist request.1 (errorEntry failure)
    | none => errplist) errplist

theorem sendFiles_eq {storage : Storage} {hostDir : Path} (items : List PlistValue) (batch : Batch)
    (h : ∀ request ∈ requestsFrom storage hostDir batch.opens items, (recordOf request).Fits) :
    sendFiles checks storage hostDir items batch =
      .ok ⟨batch.out ++
          ((requestsFrom storage hostDir batch.opens items).map recordOf).flatMap Record.encode,
        errplistOf (requestsFrom storage hostDir batch.opens items) batch.errplist,
        batch.opens + (requestsFrom storage hostDir batch.opens items).length⟩ := by
  induction items generalizing batch with
  | nil =>
    simp [sendFiles, requestsFrom, errplistOf]
  | cons item items ih =>
    unfold sendFiles
    rw [requestsFrom] at h ⊢
    cases hitem : asString item with
    | none =>
      rw [hitem] at h
      exact ih batch h
    | some path =>
      rw [hitem] at h
      obtain ⟨hfirst, hrest⟩ := List.forall_mem_cons.mp h
      dsimp only
      rw [sendSingleFile_eq hfirst, Eval.ok_bind, List.map_cons, List.flatMap_cons, errplistOf,
        List.foldl_cons, List.length_cons, ← Nat.add_assoc, Nat.add_right_comm, ← errplistOf]
      dsimp only
      cases hfailure : (storage batch.opens (hostPath hostDir path)).failure with
      | none =>
        dsimp only
        rw [ih ⟨_, batch.errplist, batch.opens + 1⟩ hrest, List.append_assoc]
      | some failure =>
        dsimp only
        rw [ih ⟨_, _, batch.opens + 1⟩ hrest, List.append_assoc]

end Sending

section Status

theorem get_errplistOf (requests : List (String × Opened)) (errplist : Dictionary) (name : String) :
    get (errplistOf requests errplist) name =
      ((requests.reverse.findSome? fun request =>
        if request.1 = name then request.2.failure else none).map errorEntry).or
        (get errplist name) := by
  induction requests generalizing errplist with
  | nil => rfl
  | cons request requests ih =>
    have hstep : errplistOf (request :: requests) errplist = errplistOf requests
        (match request.2.failure with
          | some failure => insert errplist request.1 (errorEntry failure)
          | none => errplist) := rfl
    rw [hstep, ih, List.reverse_cons, List.findSome?_append, List.findSome?_singleton,
      Option.map_or, Option.or_assoc]
    congr 1
    cases request.2.failure with
    | none => rw [ite_self]; rfl
    | some failure =>
      dsimp only
      rw [get_insert]
      by_cases hname : name = request.1
      · rw [if_pos hname, if_pos hname.symm]
        rfl
      · rw [if_neg hname, if_neg (Ne.symm hname)]
        rfl

/-- The names that failed have entries, and no others. -/
theorem get_errplistOf_ne_none (requests : List (String × Opened)) (name : String) :
    get (errplistOf requests []) name ≠ none ↔
      ∃ request ∈ requests, request.1 = name ∧ request.2.failure ≠ none := by
  rw [get_errplistOf, get_nil, Option.or_none, Ne, Option.map_eq_none_iff,
    List.findSome?_eq_none_iff]
  simp only [List.mem_reverse, not_forall, ite_eq_right_iff, exists_prop]

theorem errplistOf_eq_nil (requests : List (String × Opened)) :
    errplistOf requests [] = [] ↔ ∀ request ∈ requests, request.2.failure = none := by
  constructor
  · intro hnil request hmem
    by_contra hfailed
    have hget := (get_errplistOf_ne_none requests request.1).mpr ⟨request, hmem, rfl, hfailed⟩
    rw [hnil] at hget
    exact hget rfl
  · intro hnone
    induction requests with
    | nil => rfl
    | cons request requests ih =>
      obtain ⟨hfirst, hrest⟩ := List.forall_mem_cons.mp hnone
      unfold errplistOf
      rw [List.foldl_cons, hfirst]
      exact ih hrest

/-- A message reports success with an empty dictionary exactly if every file succeeded, and
otherwise has an entry for exactly the names that failed. -/
structure Reports (requests : List (String × Opened)) (status : PlistValue) : Prop where
  success : status = statusResponse 0 none (.dictionary []) ↔
    ∀ request ∈ requests, request.2.failure = none
  multi : (∃ request ∈ requests, request.2.failure ≠ none) →
    ∃ errplist, status = statusResponse (-13) (some "Multi status") (.dictionary errplist) ∧
      ∀ name, get errplist name ≠ none ↔
        ∃ request ∈ requests, request.1 = name ∧ request.2.failure ≠ none

theorem statusResponse_inj {code code' : ℤ} {text text' : Option String} {value value' : PlistValue}
    (h : statusResponse code text value = statusResponse code' text' value') : code = code' := by
  unfold statusResponse at h
  simp only [PlistValue.array.injEq, List.cons.injEq, PlistValue.integer.injEq] at h
  exact h.2.1

theorem reports_errplistOf (requests : List (String × Opened)) :
    Reports requests (if errplistOf requests [] ≠ [] then
        statusResponse (-13) (some "Multi status") (.dictionary (errplistOf requests []))
      else statusResponse 0 none (.dictionary [])) := by
  by_cases hnone : ∀ request ∈ requests, request.2.failure = none
  · rw [if_neg (not_not.mpr ((errplistOf_eq_nil requests).mpr hnone))]
    refine ⟨iff_of_true rfl hnone, ?_⟩
    intro hgiven
    obtain ⟨request, hmem, hfailed⟩ := hgiven
    exact absurd (hnone request hmem) hfailed
  · rw [if_pos (fun hnil => hnone ((errplistOf_eq_nil requests).mp hnil))]
    refine ⟨iff_of_false (fun h => absurd (statusResponse_inj h) (by decide)) hnone, fun _ => ?_⟩
    exact ⟨_, rfl, get_errplistOf_ne_none requests⟩

end Status

/-- The bytes are read in one way, as the records of the requests, and the status fits them. -/
def Framed (requests : List (String × Opened)) (result : Eval BackupError (Bytes × PlistValue)) :
    Prop :=
  ∃ written status, result = .ok (written, status) ∧
    Records written (requests.map recordOf) [] ∧
    (∀ records rest, Records written records rest →
      records = requests.map recordOf ∧ rest = []) ∧
    Reports requests status

theorem bytesOf_eq_nil {text : String} : bytesOf text = [] ↔ text = "" := by
  constructor
  · intro hnil
    rw [← fromUtf8Lossy_encode text]
    exact congrArg fromUtf8Lossy hnil
  · intro heq
    subst heq
    rfl

theorem fits_recordOf (request : String × Opened) :
    (recordOf request).Fits ↔ request.1 ≠ "" ∧ (bytesOf request.1).length < 2 ^ 32 ∧
      ∀ failure ∈ request.2.failure, (bytesOf failure.2).length + 1 < 2 ^ 32 := by
  have hpayload : (recordOf request).payload.length + 1 < 2 ^ 32 ↔
      ∀ failure ∈ request.2.failure, (bytesOf failure.2).length + 1 < 2 ^ 32 := by
    unfold recordOf
    cases request.2.failure with
    | none => simp [trailerOf]
    | some failure => simp [trailerOf]
  constructor
  · intro h
    obtain ⟨hname, hlength, htrailer⟩ := h
    exact ⟨fun hempty => hname (bytesOf_eq_nil.mpr hempty), hlength, hpayload.mp htrailer⟩
  · intro h
    obtain ⟨hname, hlength, hfailures⟩ := h
    exact ⟨fun hnil => hname (bytesOf_eq_nil.mp hnil), hlength, hpayload.mpr hfailures⟩

theorem code_recordOf (request : String × Opened) : (recordOf request).code ≠ codeFileData := by
  show (trailerOf request.2.failure).1 ≠ codeFileData
  cases request.2.failure with
  | none => exact (by decide : codeSuccess ≠ codeFileData)
  | some failure => exact (by decide : codeErrorLocal ≠ codeFileData)

theorem length_blocks_recordOf (request : String × Opened) :
    ∀ block ∈ (recordOf request).blocks, block.length + 1 < 2 ^ 32 := by
  intro block hblock
  obtain ⟨name, opened⟩ := request
  cases opened with
  | file reads error =>
    obtain ⟨read, _, rfl⟩ := List.mem_map.mp hblock
    have hlength := read.length_le
    omega
  | _ => exact absurd hblock List.not_mem_nil

/-- The requests of a message. -/
def requestsOf (storage : Storage) (hostDir : Path) (dlValue : PlistValue) :
    List (String × Opened) := requestsFrom storage hostDir 0 (filesOf dlValue)

/-- A batch is framed as the device reads it exactly if no name is empty, and the names and
the texts of the errors have lengths of 32 bits. -/
theorem framed_iff (storage : Storage) (hostDir : Path) (dlValue : PlistValue) :
    (∀ checks, Framed (requestsOf storage hostDir dlValue)
      (handleDownloadFiles checks storage hostDir dlValue)) ↔
    ∀ request ∈ requestsOf storage hostDir dlValue,
      request.1 ≠ "" ∧ (bytesOf request.1).length < 2 ^ 32 ∧
        ∀ failure ∈ request.2.failure, (bytesOf failure.2).length + 1 < 2 ^ 32 := by
  constructor
  · intro hframed request hmem
    obtain ⟨written, status, _, hrecords, _, _⟩ := hframed true
    exact (fits_recordOf request).mp (hrecords.fits _ (List.mem_map_of_mem hmem))
  · intro hfits checks
    have hrecords : ∀ request ∈ requestsOf storage hostDir dlValue, (recordOf request).Fits :=
      fun request hmem => (fits_recordOf request).mpr (hfits request hmem)
    have hread := records_encode ((requestsOf storage hostDir dlValue).map recordOf) (by
      intro record hrecord
      obtain ⟨request, hmem, rfl⟩ := List.mem_map.mp hrecord
      exact ⟨hrecords request hmem, code_recordOf request, length_blocks_recordOf request⟩)
    have hreports := reports_errplistOf (requestsOf storage hostDir dlValue)
    refine ⟨_, _, ?_, hread, fun _ _ hother => hother.unique hread, hreports⟩
    unfold handleDownloadFiles
    rw [sendFiles_eq (filesOf dlValue) ⟨[], [], 0⟩ hrecords, Eval.ok_bind,
      sendRaw_eq (by simp [beBytes]), Eval.ok_bind]
    dsimp only
    rw [← requestsOf, List.nil_append]
    split <;> rfl

/-- A request for a file with an empty name, which exists. -/
def emptyName : PlistValue :=
  .array [.string "DLMessageDownloadFiles", .array [.string "", .string "Manifest.db"]]

def emptyFiles : Storage := fun _ _ => .file [] none

/-- The length of an empty name is read as the end of the batch. -/
theorem empty_name_not_framed :
    ¬ Framed (requestsOf emptyFiles [] emptyName)
      (handleDownloadFiles true emptyFiles [] emptyName) ∧
    ¬ Framed (requestsOf emptyFiles [] emptyName)
      (handleDownloadFiles false emptyFiles [] emptyName) := by
  have hname : ¬ (recordOf ("", .file [] none)).Fits := fun hfits => hfits.name_ne rfl
  constructor
  all_goals
    intro h
    obtain ⟨written, status, _, hrecords, _, _⟩ := h
    exact hname (hrecords.fits _ (List.mem_map_of_mem List.mem_cons_self))

end XitForge.MobileBackup.Download
