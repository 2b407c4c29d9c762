import Mathlib.Data.List.ModifyLast
import XitForge.MobileBackup.Messages

/-!
The byte stream of an upload. Each file is its directory, its name, blocks of data
and a trailer, and a length of zero ends the upload. The length of a block counts its
code byte.
-/
namespace XitForge.MobileBackup

open ByteStream Program RustText

/-- A file as the device sends it. -/
structure UploadFile where
  directory : Bytes
  name : Bytes
  blocks : List Bytes
  /-- The code and the payload of the trailer. -/
  code : UInt8
  payload : Bytes
  directory_length : 0 < directory.length ∧ directory.length < 2 ^ 32
  name_length : 0 < name.length ∧ name.length < 2 ^ 32
  block_length : ∀ block ∈ blocks, 0 < block.length ∧ block.length + 1 < 2 ^ 32
  payload_length : payload.length + 1 < 2 ^ 32
  code_ne : code ≠ codeFileData

/-- A block or a trailer. -/
def encodeBlock (code : UInt8) (data : Bytes) : Bytes :=
  beBytes 4 (data.length + 1) ++ code :: data

namespace UploadFile

variable (file : UploadFile)

def encodeHeader : Bytes :=
  beBytes 4 file.directory.length ++ file.directory ++
    (beBytes 4 file.name.length ++ file.name)

def encode : Bytes :=
  file.encodeHeader ++ (file.blocks.flatMap (encodeBlock codeFileData) ++
    encodeBlock file.code file.payload)

def contents : Bytes := file.blocks.flatten

def path (hostDir : Path) : Path := hostPath hostDir (fromUtf8Lossy file.name)

/-- The payload of the trailer is none, or one that the host reads. -/
def Drained : Prop := file.code = codeSuccess → file.payload = []

/-- What the host leaves unread of the file. -/
def undrained : Bytes := if file.code = codeSuccess then file.payload else []

theorem undrained_eq_nil : file.undrained = [] ↔ file.Drained := by
  unfold undrained Drained
  split
  · rename_i h
    simp [h]
  · rename_i h
    simp [h]

end UploadFile

def encodeFiles (files : List UploadFile) : Bytes :=
  files.flatMap UploadFile.encode ++ beBytes 4 0

/-- The files that the host opened for writing, with what it wrote, in that order. -/
def stored (calls : List DelegateCall) : List (Path × Bytes) :=
  calls.foldl (fun files call =>
    match call with
    | .createFileWrite path => files ++ [(path, [])]
    | .writeAll _ data => files.modifyLast fun file => (file.1, file.2 ++ data)
    | _ => files) []

/-- The storage takes every file and all its data. -/
structure Delegate.Stores (delegate : Delegate) : Prop where
  creates : ∀ calls path, delegate calls (.createFileWrite path) = true
  writes : ∀ calls path data, delegate calls (.writeAll path data) = true

section Stored

variable (calls : List DelegateCall)

theorem stored_append (more : List DelegateCall) :
    stored (calls ++ more) = more.foldl (fun files call =>
      match call with
      | .createFileWrite path => files ++ [(path, [])]
      | .writeAll _ data => files.modifyLast fun file => (file.1, file.2 ++ data)
      | _ => files) (stored calls) := List.foldl_append

theorem stored_writes (dst path : Path) (before : List (Path × Bytes)) (start : Bytes)
    (blocks : List Bytes) (h : stored calls = before ++ [(path, start)]) :
    stored (calls ++ blocks.map (.writeAll dst)) = before ++ [(path, start ++ blocks.flatten)] := by
  induction blocks generalizing calls start with
  | nil => simpa using h
  | cons block rest ih =>
    have hone : stored (calls ++ [.writeAll dst block]) = before ++ [(path, start ++ block)] := by
      rw [stored_append, h]
      exact List.modifyLast_concat _ _ _
    have hrest := ih (calls ++ [.writeAll dst block]) (start ++ block) hone
    simpa using hrest

end Stored

section Blocks

variable {delegate : Delegate} {hostDir : Path} {rest : Bytes}

theorem splitU32_block {code : UInt8} {data : Bytes} (h : data.length + 1 < 2 ^ 32) :
    splitU32 (encodeBlock code data ++ rest) = some (data.length + 1, code :: (data ++ rest)) := by
  unfold encodeBlock
  rw [List.append_assoc]
  exact splitU32_append h _

theorem receiveBlocks_stop {dst : Path} {fuel nlen : ℕ} {code : UInt8} {host : Host}
    (h : code ≠ codeFileData) :
    receiveBlocks delegate dst fuel nlen code host = (.done (nlen, code), host) := by
  cases fuel with
  | zero => rfl
  | succ fuel =>
    unfold receiveBlocks
    rw [if_neg h]
    rfl

/-- A block of data is written and the code of the next one is read. -/
theorem receiveBlocks_step (hstores : delegate.Stores) {dst : Path} {fuel nlen : ℕ} {code : UInt8}
    {block more rest : Bytes} {calls : List DelegateCall}
    (hnext : splitU32 more = some (nlen, code :: rest)) (hpos : nlen > 0) :
    receiveBlocks delegate dst (fuel + 1) (block.length + 1) codeFileData ⟨block ++ more, calls⟩ =
      receiveBlocks delegate dst fuel nlen code ⟨rest, calls ++ [.writeAll dst block]⟩ := by
  have hread : readExact (block.length + 1 - 1) ⟨block ++ more, calls⟩ =
      (.done block, ⟨more, calls⟩) := readExact_some (splitExact_append (by omega) more)
  have hwrite : ask delegate (.writeAll dst block) ⟨more, calls⟩ =
      (.done true, ⟨more, calls ++ [.writeAll dst block]⟩) := by
    unfold ask
    rw [hstores.writes]
  rw [receiveBlocks, if_pos rfl, Prog.bind_done hread, Prog.bind_done hwrite, if_neg (by simp),
    Prog.bind_done (readBeU32_some hnext), if_pos hpos, Prog.bind_done (readOne_cons rfl)]

/-- From the code of the first block on, the loop writes the blocks and stops behind the
code of the trailer. -/
theorem receiveBlocks_encode (hstores : delegate.Stores) (dst : Path) {trailer code : UInt8}
    {payload stream : Bytes} (hcode : trailer ≠ codeFileData)
    (hpayload : payload.length + 1 < 2 ^ 32) (blocks : List Bytes) {fuel nlen : ℕ}
    (calls : List DelegateCall) (hblocks : ∀ block ∈ blocks, block.length + 1 < 2 ^ 32)
    (hfuel : blocks.length ≤ fuel)
    (hfirst : splitU32 (blocks.flatMap (encodeBlock codeFileData) ++
      (encodeBlock trailer payload ++ rest)) = some (nlen, code :: stream)) :
    receiveBlocks delegate dst fuel nlen code ⟨stream, calls⟩ =
      (.done (payload.length + 1, trailer),
        ⟨payload ++ rest, calls ++ blocks.map (.writeAll dst)⟩) := by
  induction blocks generalizing fuel nlen code stream calls with
  | nil =>
    rw [List.flatMap_nil, List.nil_append, splitU32_block hpayload] at hfirst
    cases hfirst
    rw [receiveBlocks_stop hcode]
    simp
  | cons block blocks ih =>
    rw [List.flatMap_cons, List.append_assoc,
      splitU32_block (hblocks block (List.mem_cons_self ..))] at hfirst
    cases hfirst
    have hrest : ∀ block ∈ blocks, block.length + 1 < 2 ^ 32 := by
      intro other hother
      exact hblocks other (List.mem_cons_of_mem _ hother)
    obtain ⟨fuel, rfl⟩ : ∃ more, fuel = more + 1 := by
      rw [List.length_cons] at hfuel
      exact ⟨fuel - 1, by omega⟩
    have hnext : ∃ nlen code stream, nlen > 0 ∧
        splitU32 (blocks.flatMap (encodeBlock codeFileData) ++
          (encodeBlock trailer payload ++ rest)) = some (nlen, code :: stream) := by
      cases blocks with
      | nil => exact ⟨_, _, _, Nat.succ_pos _, splitU32_block hpayload⟩
      | cons next blocks =>
        rw [List.flatMap_cons, List.append_assoc]
        exact ⟨_, _, _, Nat.succ_pos _, splitU32_block (hrest next (List.mem_cons_self ..))⟩
    obtain ⟨nlen, code, stream, hpos, hnext⟩ := hnext
    rw [receiveBlocks_step hstores hnext hpos, ih _ hrest (by simpa using hfuel) hnext]
    simp

end Blocks

section Files

variable {delegate : Delegate} (hostDir : Path) (rest : Bytes) (file : UploadFile)

/-- The names before a file, each behind its length. -/
theorem receiveHeader_names {directory name : Bytes}
    (hdirectory : 0 < directory.length ∧ directory.length < 2 ^ 32)
    (hname : 0 < name.length ∧ name.length < 2 ^ 32) (rest : Bytes) (calls : List DelegateCall) :
    receiveHeader ⟨beBytes 4 directory.length ++ directory ++ (beBytes 4 name.length ++ name) ++
        rest, calls⟩ =
      (.done (some (fromUtf8Lossy name)), ⟨rest, calls⟩) := by
  unfold receiveHeader readExactString
  simp only [List.append_assoc]
  rw [Prog.bind_done (readBeU32_some (splitU32_append hdirectory.2 _)),
    if_neg (Nat.pos_iff_ne_zero.mp hdirectory.1)]
  have hfirst : (readExact directory.length >>= fun bytes => pure (fromUtf8Lossy bytes))
      ⟨directory ++ (beBytes 4 name.length ++ (name ++ rest)), calls⟩ =
      (.done (fromUtf8Lossy directory), ⟨beBytes 4 name.length ++ (name ++ rest), calls⟩) := by
    rw [Prog.bind_done (readExact_some (splitExact_append rfl _))]
    rfl
  have hsecond : (readExact name.length >>= fun bytes => pure (fromUtf8Lossy bytes))
      ⟨name ++ rest, calls⟩ = (.done (fromUtf8Lossy name), ⟨rest, calls⟩) := by
    rw [Prog.bind_done (readExact_some (splitExact_append rfl _))]
    rfl
  rw [Prog.bind_done hfirst, Prog.bind_done (readBeU32_some (splitU32_append hname.2 _)),
    if_neg (Nat.pos_iff_ne_zero.mp hname.1), Prog.bind_done hsecond]
  rfl

theorem receiveHeader_encode (calls : List DelegateCall) :
    receiveHeader ⟨file.encodeHeader ++ rest, calls⟩ =
      (.done (some (fromUtf8Lossy file.name)), ⟨rest, calls⟩) :=
  receiveHeader_names file.directory_length file.name_length rest calls

theorem length_blocks_le (blocks : List Bytes) :
    blocks.length ≤ (blocks.flatMap (encodeBlock codeFileData)).length := by
  induction blocks with
  | nil => exact Nat.le_refl _
  | cons block blocks ih =>
    rw [List.flatMap_cons, List.length_append, List.length_cons]
    simp only [encodeBlock, List.length_append, length_beBytes]
    omega

/-- Behind the name of a file the host stores its data and reads all of it, but for the
payload of a success trailer. -/
theorem receiveFile_encode (hstores : delegate.Stores) (fname : String) (count : UInt32)
    (calls : List DelegateCall) :
    ∃ calls', receiveFile delegate hostDir fname count
        ⟨file.blocks.flatMap (encodeBlock codeFileData) ++
          (encodeBlock file.code file.payload ++ rest), calls⟩ =
        (.done (count + 1), ⟨file.undrained ++ rest, calls'⟩) ∧
      stored calls' = stored calls ++ [(hostPath hostDir fname, file.contents)] := by
  set dst := hostPath hostDir fname with hdst
  set encoded := file.blocks.flatMap (encodeBlock codeFileData) ++
    (encodeBlock file.code file.payload ++ rest) with hencoded
  have hblocks : ∀ block ∈ file.blocks, block.length + 1 < 2 ^ 32 :=
    fun block hblock => (file.block_length block hblock).2
  have hparent : ∃ calls₁, createParent delegate dst ⟨encoded, calls⟩ =
      (.done (), ⟨encoded, calls₁⟩) ∧ stored calls₁ = stored calls := by
    unfold createParent
    cases dst.parent with
    | none => exact ⟨calls, rfl, rfl⟩
    | some parent => exact ⟨calls ++ [.createDirAll parent], rfl, stored_append _ _⟩
  obtain ⟨calls₁, hparent, hstored⟩ := hparent
  have hfirst : ∃ nlen code stream, nlen > 0 ∧ splitU32 encoded = some (nlen, code :: stream) := by
    rw [hencoded]
    rcases hlist : file.blocks with _ | ⟨block, blocks⟩
    · exact ⟨_, _, _, Nat.succ_pos _, splitU32_block file.payload_length⟩
    · rw [List.flatMap_cons, List.append_assoc]
      have hblock := hblocks block (by rw [hlist]; exact List.mem_cons_self ..)
      exact ⟨_, _, _, Nat.succ_pos _, splitU32_block hblock⟩
  obtain ⟨nlen, code, stream, hpos, hfirst⟩ := hfirst
  have hfuel : file.blocks.length ≤ stream.length + 1 := by
    obtain ⟨front, hfront, hlength, -⟩ := splitU32_eq_some hfirst
    have hle := length_blocks_le file.blocks
    have htotal := congrArg List.length hfront
    rw [hencoded] at htotal
    simp only [List.length_append, encodeBlock, length_beBytes, List.length_cons] at htotal
    omega
  have hremove : ask delegate (.remove dst) ⟨stream, calls₁⟩ =
    (.done (delegate calls₁ (.remove dst)), ⟨stream, calls₁ ++ [.remove dst]⟩) := rfl
  have hcreate : ask delegate (.createFileWrite dst) ⟨stream, calls₁ ++ [.remove dst]⟩ =
      (.done true, ⟨stream, calls₁ ++ [.remove dst] ++ [.createFileWrite dst]⟩) := by
    unfold ask
    rw [hstores.creates]
  have hloop := receiveBlocks_encode hstores dst file.code_ne file.payload_length file.blocks
    (calls₁ ++ [.remove dst] ++ [.createFileWrite dst]) hblocks hfuel hfirst
  have hopened : stored (calls₁ ++ [.remove dst] ++ [.createFileWrite dst]) =
      stored calls ++ [(dst, [])] := by
    rw [stored_append, stored_append, hstored]
    rfl
  have hwritten := stored_writes _ dst dst _ _ file.blocks hopened
  unfold receiveFile
  dsimp only
  rw [Prog.bind_done hparent, Prog.bind_done (readBeU32_some hfirst), if_neg (by omega),
    Prog.bind_done (readOne_cons rfl), Prog.bind_done hremove, Prog.bind_done hcreate,
    if_neg (by simp), Prog.bind_done (rfl : Prog.get _ = (.done _, _)), Prog.bind_done hloop]
  refine ⟨calls₁ ++ [.remove dst] ++ [.createFileWrite dst] ++
    file.blocks.map (.writeAll dst) ++ [.onFileReceived fname (count + 1)], ?_, ?_⟩
  · dsimp only
    rw [Prog.bind_done (rfl : ask delegate (.onFileReceived fname (count + 1)) _ = (.done _, _))]
    by_cases hcode : file.code = codeSuccess
    · rw [if_neg (by simp [hcode]), UploadFile.undrained, if_pos hcode]
      rfl
    · rw [if_pos ⟨Nat.succ_pos _, file.code_ne, hcode⟩, UploadFile.undrained, if_neg hcode,
        Prog.bind_done (readExact_some (splitExact_append (by omega) rest))]
      rfl
  · rw [stored_append, hwritten]
    rfl

/-- A file whose trailer is drained is read to its end. -/
theorem receiveFiles_encode (hstores : delegate.Stores) (files : List UploadFile)
    (hdrained : ∀ file ∈ files, file.Drained) {fuel : ℕ} (count : UInt32)
    (calls : List DelegateCall) (hfuel : files.length < fuel) :
    ∃ calls', receiveFiles delegate hostDir fuel count ⟨encodeFiles files ++ rest, calls⟩ =
        (.done (), ⟨rest, calls'⟩) ∧
      stored calls' = stored calls ++ files.map fun file => (file.path hostDir, file.contents) := by
  induction files generalizing fuel count calls with
  | nil =>
    obtain ⟨fuel, rfl⟩ : ∃ more, fuel = more + 1 := ⟨fuel - 1, by simp at hfuel; omega⟩
    have hend : receiveHeader ⟨encodeFiles [] ++ rest, calls⟩ = (.done none, ⟨rest, calls⟩) := by
      unfold receiveHeader
      rw [Prog.bind_done (readBeU32_some (splitU32_append (by omega) rest)), if_pos rfl]
      rfl
    refine ⟨calls, ?_, by simp⟩
    unfold receiveFiles
    rw [Prog.bind_done hend]
    rfl
  | cons file files ih =>
    obtain ⟨fuel, rfl⟩ : ∃ more, fuel = more + 1 := ⟨fuel - 1, by simp at hfuel; omega⟩
    have hheader := receiveHeader_encode (file.blocks.flatMap (encodeBlock codeFileData) ++
      (encodeBlock file.code file.payload ++ (encodeFiles files ++ rest))) file calls
    obtain ⟨calls₁, hfile, hstored⟩ := receiveFile_encode hostDir (encodeFiles files ++ rest) file
      hstores (fromUtf8Lossy file.name) count calls
    rw [(file.undrained_eq_nil).mpr (hdrained file (List.mem_cons_self ..)), List.nil_append]
      at hfile
    have hrest : ∀ file ∈ files, file.Drained := by
      intro other hother
      exact hdrained other (List.mem_cons_of_mem _ hother)
    have hless : files.length < fuel := by simpa using hfuel
    obtain ⟨calls₂, hfiles, hall⟩ := ih hrest (count + 1) calls₁ hless
    refine ⟨calls₂, ?_, ?_⟩
    · have hencode : encodeFiles (file :: files) ++ rest = file.encodeHeader ++
          (file.blocks.flatMap (encodeBlock codeFileData) ++
            (encodeBlock file.code file.payload ++ (encodeFiles files ++ rest))) := by
        simp only [encodeFiles, UploadFile.encode, List.flatMap_cons, List.append_assoc]
      unfold receiveFiles
      rw [hencode, Prog.bind_done hheader]
      dsimp only
      rw [Prog.bind_done hfile]
      exact hfiles
    · rw [hall, hstored]
      simp [UploadFile.path]

theorem length_le_encodeFiles (files : List UploadFile) :
    files.length < (encodeFiles files).length := by
  have hlength : files.length ≤ (files.flatMap UploadFile.encode).length := by
    induction files with
    | nil => exact Nat.le_refl _
    | cons file files ih =>
      rw [List.flatMap_cons, List.length_append, List.length_cons]
      have hfile : 0 < file.encode.length := by
        simp only [UploadFile.encode, UploadFile.encodeHeader, List.length_append, length_beBytes]
        omega
      omega
  unfold encodeFiles
  rw [List.length_append, length_beBytes]
  omega

end Files

/-- The host reads an upload up to its closing zero and stores every file in it. -/
def Received (delegate : Delegate) (hostDir : Path) (sent : Bool) (files : List UploadFile)
    (rest : Bytes) : Prop :=
  ∃ calls, handleUploadFiles delegate hostDir sent ⟨encodeFiles files ++ rest, []⟩ =
      (if sent then .done () else .failed .sendStatus, ⟨rest, calls⟩) ∧
    ∀ file ∈ files, file.code = codeSuccess → (file.path hostDir, file.contents) ∈ stored calls

/-- An upload is received if the success trailers have no payload; and a single file is
read to its end exactly if its trailer is none with a payload that reports success. -/
theorem received_of_drained (delegate : Delegate) (hstores : delegate.Stores) (hostDir : Path) :
    (∀ (sent : Bool) (files : List UploadFile) (rest : Bytes), (∀ file ∈ files, file.Drained) →
      Received delegate hostDir sent files rest) ∧
    ∀ (file : UploadFile) (count : UInt32) (calls : List DelegateCall) (rest : Bytes),
      (receiveFile delegate hostDir (fromUtf8Lossy file.name) count
        ⟨file.blocks.flatMap (encodeBlock codeFileData) ++
          (encodeBlock file.code file.payload ++ rest), calls⟩).2.stream = rest ↔ file.Drained := by
  constructor
  · intro sent files rest hdrained
    have hfuel : files.length < (encodeFiles files ++ rest).length + 1 := by
      have hlength := length_le_encodeFiles files
      rw [List.length_append]
      omega
    obtain ⟨calls, hfiles, hstored⟩ := receiveFiles_encode hostDir rest hstores files hdrained 0 []
      hfuel
    refine ⟨calls, ?_, ?_⟩
    · unfold handleUploadFiles
      rw [Prog.bind_done (rfl : Prog.get _ = (.done _, _)), Prog.bind_done hfiles]
      cases sent with
      | true => rfl
      | false => rfl
    · intro file hfile _
      rw [hstored]
      exact List.mem_append_right _ (List.mem_map_of_mem hfile)
  · intro file count calls rest
    obtain ⟨calls', heq, -⟩ := receiveFile_encode hostDir rest file hstores
      (fromUtf8Lossy file.name) count calls
    rw [heq, List.append_left_eq_self, UploadFile.undrained_eq_nil]

/-- A file `f` without data, whose trailer has the given code and payload. -/
def emptyFile (code : UInt8) (payload : Bytes) (hcode : code ≠ codeFileData)
    (hpayload : payload.length + 1 < 2 ^ 32) : UploadFile where
  directory := [0x64]
  name := [0x66]
  blocks := []
  code := code
  payload := payload
  directory_length := by decide
  name_length := by decide
  block_length := by simp
  payload_length := hpayload
  code_ne := hcode

theorem received_of_drained_empty :
    Received (fun _ _ => true) [.rootDir] true [emptyFile 0x00 [] (by decide) (by decide)] [] :=
  (received_of_drained (fun _ _ => true) ⟨fun _ _ => rfl, fun _ _ _ => rfl⟩ [.rootDir]).1 true _ _
    (by
      intro file hfile hcode
      rw [List.mem_singleton.mp hfile]
      rfl)

/-- A byte behind the code of a success trailer becomes part of the next length. -/
theorem payload_not_drained :
    ¬ ∀ (delegate : Delegate) (hostDir : Path) (sent : Bool) (files : List UploadFile)
      (rest : Bytes), delegate.Stores → Received delegate hostDir sent files rest := by
  intro h
  obtain ⟨calls, heq, -⟩ := h (fun _ _ => true) [.rootDir] true
    [emptyFile 0x00 [1] (by decide) (by decide)] [] ⟨fun _ _ => rfl, fun _ _ _ => rfl⟩
  have hdone : (handleUploadFiles (fun _ _ => true) [.rootDir] true
      ⟨encodeFiles [emptyFile 0x00 [1] (by decide) (by decide)] ++ [], []⟩).1 = .done () := by
    rw [heq, if_pos rfl]
  exact absurd hdone (by decide)

end XitForge.MobileBackup
