import XitForge.MobileBackup.Messages

/-!
Where the paths lead that the host replaces or destroys. The normal components of a
device path are appended to the backup directory, so they stay inside it; a path
without any is the backup directory itself.
-/
namespace XitForge.MobileBackup

open ByteStream Program RustText
open Xpc (PlistValue)

/-- The names among the components of a path. -/
def normalNames (path : Path) : List (List Char) :=
  path.filterMap fun component =>
    match component with
    | .normal name => some name
    | _ => none

/-- A device path that names something. -/
def HasName (rel : String) : Prop := normalNames (components rel) ≠ []

theorem hostPath_eq (hostDir : Path) (rel : String) :
    hostPath hostDir rel = hostDir ++ (normalNames (components rel)).map Component.normal := by
  unfold hostPath
  generalize components rel = path
  induction path generalizing hostDir with
  | nil => simp [normalNames]
  | cons component rest ih =>
    rw [List.foldl_cons, ih]
    cases component with
    | normal name => simp [normalNames, Path.push]
    | rootDir => rfl
    | curDir => rfl
    | parentDir => rfl

theorem strictlyBelow_hostPath (hostDir : Path) (rel : String) :
    Path.StrictlyBelow hostDir (hostPath hostDir rel) ↔ HasName rel := by
  rw [hostPath_eq]
  constructor
  · rintro ⟨names, hne, heq⟩ hnone
    rw [hnone] at heq
    exact hne (List.map_eq_nil_iff.mp (List.append_cancel_left heq).symm)
  · intro h
    exact ⟨_, h, rfl⟩

section Names

/-- The directory and the file name of a file of an upload. -/
def readHeader (stream : Bytes) : Option (String × Bytes) := do
  let (dlen, stream) ← splitU32 stream
  if dlen = 0 then none
  let (_, stream) ← splitExact dlen stream
  let (flen, stream) ← splitU32 stream
  if flen = 0 then none
  let (name, stream) ← splitExact flen stream
  return (fromUtf8Lossy name, stream)

/-- Whether there is a first block behind the name of a file. -/
def hasBlock (stream : Bytes) : Bool :=
  match splitU32 stream with
  | some (nlen, _ :: _) => nlen != 0
  | _ => false

def skipBlocks : ℕ → ℕ → UInt8 → Bytes → Option (ℕ × UInt8 × Bytes)
  | 0, nlen, code, stream => some (nlen, code, stream)
  | fuel + 1, nlen, code, stream =>
    if code = codeFileData then
      match splitExact (nlen - 1) stream with
      | none => none
      | some (_, stream) =>
        match splitU32 stream with
        | none => none
        | some (nlen, stream) =>
          if nlen > 0 then
            match stream with
            | code :: stream => skipBlocks fuel nlen code stream
            | [] => none
          else some (nlen, code, stream)
    else some (nlen, code, stream)

/-- What is behind the blocks of a file. -/
def skipFile (stream : Bytes) : Option Bytes :=
  match splitU32 stream with
  | none => none
  | some (nlen, stream) =>
    if nlen = 0 then some stream
    else
      match stream with
      | [] => none
      | code :: stream =>
        match skipBlocks (stream.length + 1) nlen code stream with
        | none => none
        | some (nlen, code, stream) =>
          if nlen > 0 ∧ code ≠ codeFileData ∧ code ≠ codeSuccess then
            (splitExact (nlen - 1) stream).map Prod.snd
          else some stream

/-- The names of the files of an upload that have a block, as far as the bytes go. -/
def fileNames : ℕ → Bytes → List String
  | 0, _ => []
  | fuel + 1, stream =>
    match readHeader stream with
    | none => []
    | some (name, stream) =>
      (if hasBlock stream then [name] else []) ++
        match skipFile stream with
        | none => []
        | some stream => fileNames fuel stream

def stringOf : PlistValue → Option String
  | .string text => some text
  | _ => none

/-- The path strings of a message that name what it replaces or destroys. -/
def Message.paths : Message → List String
  | uploadFiles raw => fileNames (raw.length + 1) raw
  | createDirectory _ => []
  | moveFiles (.array (_ :: .dictionary entries :: _)) =>
    entries.flatMap fun entry =>
      match entry.2 with
      | .string target => [entry.1, target]
      | _ => []
  | removeFiles (.array (_ :: .array items :: _)) => items.filterMap stringOf
  | copyItem (.array (_ :: .string _ :: .string dst :: _)) => [dst]
  | _ => []

end Names

section Growth

/-- The calls grow, and what the new ones destroy satisfies `P`. -/
def Grows (P : Path → Prop) (host host' : Host) : Prop :=
  ∃ new, host'.calls = host.calls ++ new ∧ ∀ call ∈ new, ∀ path ∈ call.destroyed, P path

variable {P : Path → Prop} {delegate : Delegate} {hostDir : Path}

instance : IsPreorder Host (Grows P) where
  refl host := ⟨[], by simp, by simp⟩
  trans host host' host'' h h' := by
    obtain ⟨first, hfirst, hP⟩ := h
    obtain ⟨second, hsecond, hP'⟩ := h'
    refine ⟨first ++ second, by rw [hsecond, hfirst, List.append_assoc], ?_⟩
    intro call hcall
    rcases List.mem_append.mp hcall with hmem | hmem
    · exact hP call hmem
    · exact hP' call hmem

theorem grows_of_calls {host host' : Host} (h : host'.calls = host.calls) : Grows P host host' :=
  ⟨[], by rw [h, List.append_nil], by simp⟩

instance (count : ℕ) : Keeps (Grows P) (readExact count) := by
  constructor
  intro host
  unfold readExact
  split
  · exact grows_of_calls rfl
  · exact refl_of _ _

instance : Keeps (Grows P) readBeU32 := by
  constructor
  intro host
  unfold readBeU32
  split
  · exact grows_of_calls rfl
  · exact refl_of _ _

instance : Keeps (Grows P) readOne := by
  constructor
  intro host
  unfold readOne
  split
  · exact grows_of_calls rfl
  · exact refl_of _ _

theorem ask_grows {call : DelegateCall} (h : ∀ path ∈ call.destroyed, P path) :
    Keeps (Grows P) (ask delegate call) := by
  constructor
  intro host
  refine ⟨[call], rfl, ?_⟩
  intro other hother
  rw [List.mem_singleton.mp hother]
  exact h

instance (path : Path) : Keeps (Grows P) (createParent delegate path) := by
  unfold createParent
  split
  · have : Keeps (Grows P) (ask delegate (.createDirAll ‹_›)) := ask_grows (by simp [DelegateCall.destroyed])
    infer_instance
  · infer_instance

theorem receiveBlocks_grows (dst : Path) (fuel nlen : ℕ) (code : UInt8) :
    Keeps (Grows P) (receiveBlocks delegate dst fuel nlen code) := by
  induction fuel generalizing nlen code with
  | zero => exact Keeps.pure _
  | succ fuel ih =>
    unfold receiveBlocks
    split
    · refine Keeps.bind inferInstance fun data => ?_
      refine Keeps.bind (ask_grows (by simp [DelegateCall.destroyed])) fun written => ?_
      split
      · exact Keeps.fail _
      · refine Keeps.bind inferInstance fun nlen => ?_
        split
        · exact Keeps.bind inferInstance fun code => ih nlen code
        · exact Keeps.pure _
    · exact Keeps.pure _

/-- The blocks are read as `skipBlocks` finds them. -/
theorem receiveBlocks_done {dst : Path} {fuel nlen : ℕ} {code : UInt8} {host host' : Host}
    {result : ℕ × UInt8}
    (h : receiveBlocks delegate dst fuel nlen code host = (.done result, host')) :
    skipBlocks fuel nlen code host.stream = some (result.1, result.2, host'.stream) := by
  induction fuel generalizing nlen code host with
  | zero =>
    cases h
    rfl
  | succ fuel ih =>
    unfold receiveBlocks at h
    unfold skipBlocks
    split at h
    · rename_i hcode
      rw [if_pos hcode]
      obtain ⟨data, host₁, hdata, h⟩ := Prog.bind_eq_done h
      obtain ⟨written, host₂, hask, h⟩ := Prog.bind_eq_done h
      have hstream : host₂.stream = host₁.stream := by
        cases hask
        rfl
      split at h
      · cases h
      · obtain ⟨nlen', host₃, hlen, h⟩ := Prog.bind_eq_done h
        have hlen := (readBeU32_eq_done hlen).1
        rw [hstream] at hlen
        rw [(readExact_eq_done hdata).1]
        dsimp only
        rw [hlen]
        dsimp only
        split at h
        · rename_i hpos
          rw [if_pos hpos]
          obtain ⟨code', host₄, hone, h⟩ := Prog.bind_eq_done h
          rw [(readOne_eq_done hone).1]
          exact ih h
        · rename_i hpos
          rw [if_neg hpos]
          cases h
          rfl
    · rename_i hcode
      rw [if_neg hcode]
      cases h
      rfl

theorem receiveFile_grows {fname : String} {fileCount : UInt32} {host : Host}
    (h : hasBlock host.stream = true → P (hostPath hostDir fname)) :
    Grows P host (receiveFile delegate hostDir fname fileCount host).2 := by
  unfold receiveFile
  by_cases hblock : hasBlock host.stream = true
  · have hP := h hblock
    refine (Keeps.bind inferInstance fun _ => ?_).keeps host
    refine Keeps.bind inferInstance fun nlen => ?_
    split
    · exact Keeps.pure _
    · refine Keeps.bind inferInstance fun code => ?_
      refine Keeps.bind (ask_grows (by simpa [DelegateCall.destroyed] using hP)) fun _ => ?_
      refine Keeps.bind (ask_grows (by simpa [DelegateCall.destroyed] using hP)) fun created => ?_
      split
      · exact Keeps.fail _
      · refine Keeps.bind inferInstance fun host => ?_
        refine Keeps.bind (receiveBlocks_grows _ _ _ _) fun last => ?_
        refine Keeps.bind (ask_grows (by simp [DelegateCall.destroyed])) fun _ => ?_
        split
        · exact Keeps.bind inferInstance fun _ => Keeps.pure _
        · exact Keeps.pure _
  · -- nothing is opened before a first block was read
    obtain ⟨host₁, hparent, hstream⟩ :=
      createParent_done delegate (hostPath hostDir fname) host
    have hfirst : Grows P host host₁ := by
      have hkeeps := (inferInstance : Keeps (Grows P)
        (createParent delegate (hostPath hostDir fname))).keeps host
      rw [hparent] at hkeeps
      exact hkeeps
    rw [Prog.bind_done hparent]
    refine trans_of _ hfirst ?_
    rcases hsplit : splitU32 host₁.stream with _ | ⟨nlen, rest⟩
    · have hread : readBeU32 host₁ = (.failed .socket, host₁) := by
        unfold readBeU32
        rw [hsplit]
      rw [Prog.bind_failed hread]
      exact refl_of _ _
    · rw [Prog.bind_done (readBeU32_some hsplit)]
      split
      · exact grows_of_calls rfl
      · rename_i hne
        have hrest : rest = [] := by
          by_contra hcons
          obtain ⟨code, tail, rfl⟩ := List.exists_cons_of_ne_nil hcons
          apply hblock
          unfold hasBlock
          rw [← hstream, hsplit]
          simpa using hne
        rw [Prog.bind_failed (by rw [hrest]; rfl)]
        exact grows_of_calls rfl

theorem receiveFile_done {fname : String} {fileCount count : UInt32} {host host' : Host}
    (h : receiveFile delegate hostDir fname fileCount host = (.done count, host')) :
    skipFile host.stream = some host'.stream := by
  unfold receiveFile at h
  unfold skipFile
  obtain ⟨host₁, hparent, hstream⟩ := createParent_done delegate (hostPath hostDir fname) host
  dsimp only at h
  rw [Prog.bind_done hparent] at h
  obtain ⟨nlen, host₂, hlen, h⟩ := Prog.bind_eq_done h
  rw [← hstream, (readBeU32_eq_done hlen).1]
  dsimp only
  split at h
  · rename_i hzero
    rw [if_pos hzero]
    cases h
    rfl
  · rename_i hzero
    rw [if_neg hzero]
    obtain ⟨code, host₃, hone, h⟩ := Prog.bind_eq_done h
    obtain ⟨_, host₄, hremove, h⟩ := Prog.bind_eq_done h
    obtain ⟨created, host₅, hcreate, h⟩ := Prog.bind_eq_done h
    rw [(readOne_eq_done hone).1]
    have hfive : host₅.stream = host₃.stream := by
      cases hremove
      cases hcreate
      rfl
    split at h
    · cases h
    · obtain ⟨_, _, hget, h⟩ := Prog.bind_eq_done h
      cases hget
      obtain ⟨⟨last, lastCode⟩, host₆, hblocks, h⟩ := Prog.bind_eq_done h
      obtain ⟨_, host₇, hreceived, h⟩ := Prog.bind_eq_done h
      have hseven : host₇.stream = host₆.stream := by
        cases hreceived
        rfl
      have hskip := receiveBlocks_done hblocks
      rw [hfive] at hskip
      dsimp only
      rw [hskip]
      dsimp only at h ⊢
      split at h
      · rename_i hdrain
        obtain ⟨drained, host₈, hread, h⟩ := Prog.bind_eq_done h
        rw [if_pos hdrain, ← hseven, (readExact_eq_done hread).1]
        cases h
        rfl
      · rename_i hdrain
        rw [if_neg hdrain]
        cases h
        rw [hseven]

instance : Keeps (Grows P) receiveHeader := by
  unfold receiveHeader readExactString
  infer_instance

theorem receiveHeader_done {host host' : Host} {fname : String}
    (h : receiveHeader host = (.done (some fname), host')) :
    readHeader host.stream = some (fname, host'.stream) := by
  unfold receiveHeader at h
  unfold readHeader
  obtain ⟨dlen, host₁, hdlen, h⟩ := Prog.bind_eq_done h
  rw [(readBeU32_eq_done hdlen).1]
  split at h
  · cases h
  · rename_i hd
    obtain ⟨dname, host₂, hdname, h⟩ := Prog.bind_eq_done h
    obtain ⟨dbytes, host₃, hdbytes, hdname⟩ := Prog.bind_eq_done hdname
    cases hdname
    obtain ⟨flen, host₄, hflen, h⟩ := Prog.bind_eq_done h
    split at h
    · cases h
    · rename_i hf
      obtain ⟨fname', host₅, hfname, h⟩ := Prog.bind_eq_done h
      obtain ⟨fbytes, host₆, hfbytes, hfname⟩ := Prog.bind_eq_done hfname
      cases hfname
      cases h
      simp [hd, hf, (readExact_eq_done hdbytes).1, (readBeU32_eq_done hflen).1,
        (readExact_eq_done hfbytes).1]

/-- The rounds of an upload destroy what the names in its bytes lead to. -/
theorem receiveFiles_grows {fuel : ℕ} {fileCount : UInt32} {host : Host}
    (h : ∀ name ∈ fileNames fuel host.stream, P (hostPath hostDir name)) :
    Grows P host (receiveFiles delegate hostDir fuel fileCount host).2 := by
  induction fuel generalizing fileCount host with
  | zero => exact refl_of _ _
  | succ fuel ih =>
    unfold receiveFiles
    have hheader := (inferInstance : Keeps (Grows P) receiveHeader).keeps host
    rcases heq : receiveHeader host with ⟨outcome, host₁⟩
    rw [heq] at hheader
    cases outcome with
    | failed error =>
      rw [Prog.bind_failed heq]
      exact hheader
    | stopped =>
      rw [Prog.bind_stopped heq]
      exact hheader
    | done name =>
      rw [Prog.bind_done heq]
      cases name with
      | none => exact hheader
      | some fname =>
        have hnames := receiveHeader_done heq
        unfold fileNames at h
        rw [hnames] at h
        dsimp only at h ⊢
        refine trans_of _ hheader ?_
        have hfile : Grows P host₁ (receiveFile delegate hostDir fname fileCount host₁).2 := by
          apply receiveFile_grows
          intro hblock
          apply h
          rw [if_pos hblock]
          exact List.mem_append_left _ (List.mem_singleton_self _)
        rcases hresult : receiveFile delegate hostDir fname fileCount host₁ with ⟨outcome, host₂⟩
        rw [hresult] at hfile
        cases outcome with
        | failed error =>
          rw [Prog.bind_failed hresult]
          exact hfile
        | stopped =>
          rw [Prog.bind_stopped hresult]
          exact hfile
        | done count =>
          rw [Prog.bind_done hresult]
          refine trans_of _ hfile (ih fun name hname => ?_)
          apply h
          rw [receiveFile_done hresult]
          exact List.mem_append_right _ hname

theorem moveEntries_grows (entries : List (String × PlistValue))
    (h : ∀ name ∈ (Message.moveFiles (.array [.string "", .dictionary entries])).paths,
      P (hostPath hostDir name)) :
    Keeps (Grows P) (moveEntries delegate hostDir entries) := by
  induction entries with
  | nil => exact Keeps.pure _
  | cons entry rest ih =>
    have hrest : Keeps (Grows P) (moveEntries delegate hostDir rest) := by
      apply ih
      intro name hname
      apply h
      exact List.mem_append_right _ hname
    obtain ⟨source, target⟩ := entry
    cases target with
    | string target =>
      have hP : P (hostPath hostDir source) ∧ P (hostPath hostDir target) := by
        constructor
        · apply h
          simp [Message.paths]
        · apply h
          simp [Message.paths]
      unfold moveEntries
      refine Keeps.bind inferInstance fun _ => ?_
      refine Keeps.bind (ask_grows (by simpa [DelegateCall.destroyed] using hP)) fun renamed => ?_
      split
      · exact Keeps.pure _
      · exact hrest
    | _ => exact hrest

theorem removeItems_grows (items : List PlistValue)
    (h : ∀ name ∈ items.filterMap stringOf, P (hostPath hostDir name)) :
    Keeps (Grows P) (removeItems delegate hostDir items) := by
  induction items with
  | nil => exact Keeps.pure _
  | cons item rest ih =>
    cases item with
    | string item =>
      have hP : P (hostPath hostDir item) := h item (by simp [stringOf])
      have hrest : Keeps (Grows P) (removeItems delegate hostDir rest) := by
        apply ih
        intro name hname
        apply h
        exact List.mem_cons_of_mem _ hname
      unfold removeItems
      refine Keeps.bind (ask_grows (by simp [DelegateCall.destroyed])) fun found => ?_
      split
      · refine Keeps.bind (ask_grows (by simpa [DelegateCall.destroyed] using hP)) fun removed => ?_
        split
        · exact Keeps.pure _
        · exact hrest
      · exact hrest
    | _ => exact ih h

theorem respond_grows {sent : Bool} {status : Call ℤ} (h : Keeps (Grows P) status) :
    Keeps (Grows P) (Message.handle.respond sent status) := by
  unfold Message.handle.respond
  refine Keeps.bind h fun _ => ?_
  split
  · exact Keeps.pure _
  · exact Keeps.fail _

theorem handleUploadFiles_grows {sent : Bool} {host : Host}
    (h : ∀ name ∈ fileNames (host.stream.length + 1) host.stream, P (hostPath hostDir name)) :
    Grows P host (handleUploadFiles delegate hostDir sent host).2 := by
  have hfiles : Grows P host
      (receiveFiles delegate hostDir (host.stream.length + 1) 0 host).2 := receiveFiles_grows h
  unfold handleUploadFiles
  rw [Prog.bind_done (rfl : Prog.get host = (.done host, host))]
  rcases hresult : receiveFiles delegate hostDir (host.stream.length + 1) 0 host with
    ⟨outcome, host'⟩
  rw [hresult] at hfiles
  cases outcome with
  | done _ =>
    rw [Prog.bind_done hresult]
    split
    · exact hfiles
    · exact hfiles
  | failed error =>
    rw [Prog.bind_failed hresult]
    exact hfiles
  | stopped =>
    rw [Prog.bind_stopped hresult]
    exact hfiles

/-- A message makes the host destroy what its path strings lead to. -/
theorem handle_grows (message : Message) (sent : Bool)
    (h : ∀ name ∈ message.paths, P (hostPath hostDir name)) :
    Keeps (Grows P) (message.handle delegate hostDir sent) := by
  match message with
  | .uploadFiles raw =>
    constructor
    intro host
    exact trans_of _ (grows_of_calls (rfl : ({ host with stream := raw } : Host).calls = _))
      (handleUploadFiles_grows h)
  | .createDirectory dlValue =>
    apply respond_grows
    unfold createDirectoryFromMessage
    split
    · refine Keeps.bind (ask_grows (by simp [DelegateCall.destroyed])) fun made => ?_
      exact Keeps.pure _
    · exact Keeps.pure _
  | .moveFiles dlValue =>
    apply respond_grows
    unfold moveFilesFromMessage
    split
    · exact moveEntries_grows _ h
    · exact Keeps.pure _
  | .removeFiles dlValue =>
    apply respond_grows
    unfold removeFilesFromMessage
    split
    · exact removeItems_grows _ h
    · exact Keeps.pure _
  | .copyItem dlValue =>
    apply respond_grows
    unfold copyItemFromMessage
    split
    · have hP := h _ (List.mem_singleton_self _)
      refine Keeps.bind inferInstance fun _ => ?_
      refine Keeps.bind (ask_grows (by simpa [DelegateCall.destroyed] using hP)) fun copied => ?_
      exact Keeps.pure _
    · exact Keeps.pure _

end Growth

/-- Where every path string of the messages names something, whatever the host replaces or
destroys is strictly below the backup directory. -/
theorem destroyed_below (delegate : Delegate) (hostDir : Path) (messages : List (Message × Bool))
    (h : ∀ message ∈ messages, ∀ rel ∈ message.1.paths, HasName rel) :
    ∀ call ∈ (processDlLoop delegate hostDir messages ⟨[], []⟩).2.calls,
      ∀ path ∈ call.destroyed, Path.StrictlyBelow hostDir path := by
  have hkeeps : Keeps (Grows (Path.StrictlyBelow hostDir)) (processDlLoop delegate hostDir messages) := by
    apply Keeps.each
    intro message hmessage
    apply handle_grows
    intro rel hrel
    exact (strictlyBelow_hostPath hostDir rel).mpr (h message hmessage rel hrel)
  obtain ⟨new, hcalls, hnew⟩ := hkeeps.keeps ⟨[], []⟩
  rw [hcalls]
  exact hnew

theorem destroyed_below_removed :
    DelegateCall.remove [.rootDir, .normal ['a']] ∈
        (processDlLoop (fun _ _ => true) [.rootDir]
          [(.removeFiles (.array [.string "DLMessageRemoveFiles", .array [.string "../a"]]), true)]
          ⟨[], []⟩).2.calls ∧
      ∀ call ∈ (processDlLoop (fun _ _ => true) [.rootDir]
          [(.removeFiles (.array [.string "DLMessageRemoveFiles", .array [.string "../a"]]), true)]
          ⟨[], []⟩).2.calls,
        ∀ path ∈ call.destroyed, Path.StrictlyBelow [.rootDir] path := by
  have hnames : ∀ message ∈ [(Message.removeFiles (.array [.string "DLMessageRemoveFiles",
      .array [.string "../a"]]), true)], ∀ rel ∈ message.1.paths, HasName rel := by
    intro message hmessage rel hrel
    rw [List.mem_singleton] at hmessage
    subst hmessage
    have heq : rel = "../a" := by simpa [Message.paths, stringOf] using hrel
    rw [heq]
    unfold HasName
    decide
  exact ⟨by decide, destroyed_below _ _ _ hnames⟩

/-- The string `.` leads to the backup directory itself, which is then removed. -/
theorem root_removed :
    ¬ ∀ (delegate : Delegate) (hostDir : Path) (messages : List (Message × Bool)),
      ∀ call ∈ (processDlLoop delegate hostDir messages ⟨[], []⟩).2.calls,
        ∀ path ∈ call.destroyed, Path.StrictlyBelow hostDir path := by
  intro h
  obtain ⟨names, hne, heq⟩ := h (fun _ _ => true) [.rootDir, .normal ['b']]
    [(.removeFiles (.array [.string "DLMessageRemoveFiles", .array [.string "."]]), true)]
    (.remove [.rootDir, .normal ['b']]) (by decide) [.rootDir, .normal ['b']] (by decide)
  exact hne (List.map_eq_nil_iff.mp (List.append_right_eq_self.mp heq.symm))

end XitForge.MobileBackup
