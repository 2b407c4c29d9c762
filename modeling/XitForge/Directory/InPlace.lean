import XitForge.Directory.LegacyCopy

/-!
Putting the tracked files of Books back in place. However that ends, the bytes a tracked file
had are still in it or in a local file, since they are kept before the file is written; and
when it returns, every tracked file is what its row in the journal says, byte for byte.
-/
namespace XitForge.Directory

open Program Program.Prog Foundation

set_option synthInstance.maxSize 10000000

section Spares

/-- The object at a path stays as it is. -/
def Spares (path : Path) (w w' : World) : Prop :=
  w'.device.media.lookup path = w.device.media.lookup path

instance spares_frame (path : Path) : LookFrame (Spares path) where
  refl _ := rfl
  trans _ _ _ h h' := h'.trans h
  looks w w' h := by
    obtain ⟨app, hdevice⟩ := h.device
    unfold Spares
    rw [hdevice]
  log _ _ := rfl

/-- A change at one path does not touch the object at another. -/
class Apart (path other : Path) : Prop where
  self : path ≠ other
  parent : path ≠ other.dropLast

instance spares_writable {path other : Path} [h : Apart path other] : Writable (Spares path) other :=
  ⟨fun _ _ hdevice => hdevice path h.self h.parent⟩

/-- Local files and the journal are no objects of Media. -/
theorem writeNewBytes_spares {path : Path} (name : LocalName) (bytes : Bytes) :
    Keeps (Spares path) (writeNewBytes name bytes) := by
  refine ⟨fun w => actPartly_looks (fun w' h => ?_) fun c => ?_⟩
  · split at h
    · cases h
    · cases h
      rfl
  · split <;> rfl

instance updateJournal_spares {path : Path} (change : Journal → Journal) :
    Keeps (Spares path) (updateJournal change) := ⟨fun _ => rfl⟩

instance freshUUID_spares {path : Path} : Keeps (Spares path) freshUUID := ⟨fun _ => rfl⟩

variable [Foundation]

instance keepSyncChange_spares {path : Path} (token : Token) (current : Option Bytes) :
    Keeps (Spares path) (keepSyncChange token current) := by
  have hwrite : ∀ name bytes, Keeps (Spares path) (writeNewBytes name bytes) := writeNewBytes_spares
  unfold keepSyncChange
  cases current <;> infer_instance

instance restoreTracked_spares {path other : Path} [Apart path other] (token : Token) (index : ℕ)
    (row : TrackedRow) : Keeps (Spares path) (restoreTracked token index other row) := by
  unfold restoreTracked
  refine Keeps.bind inferInstance fun original => Keeps.bind inferInstance fun found =>
    Keeps.bind inferInstance fun _ => Keeps.bind inferInstance fun current => ?_
  cases original <;> infer_instance

end Spares

/-- Books with the marker and a tracked file that the daemon rewrote. -/
def rewrittenDevice : Device :=
  Device.extract { media := FileTree.empty, app := ∅, uuid := [], linkDenied := false } 0 []
    [⟨[.books], .directory 0⟩,
      ⟨booksMarkerPath, .file (unaryFoundation.plistData (.owner 1 []))⟩,
      ⟨[.books, .booksPlist], .file [7, 8]⟩]

def rewrittenJournal : Journal where
  token := 1
  namespaceName := []
  rsdUUID := []
  tail := []
  booksOriginallyPresent := some true
  booksInPlace := true
  inPlaceManifestWriteStarted := true
  trackedPreimage := some (.present ⟨.regular, 1, 0, 0, none⟩ (some [5]) :: List.replicate 5 .absent)

def rewrittenWorld : World where
  device := rewrittenDevice
  disk := AList.insert (.preimage 1 0) (.bytes [5]) ∅
  session := { journal := some rewrittenJournal }
  namespaceName := []
  tunnelFactory := true
  oracle := fun _ => {}
  pos := 0
  uuids := 2
  stream := []
  trace := []

section Kept

variable [Foundation] {path : Path} {token : Token} {contents : Bytes}

/-- The file at a path has these bytes. -/
def FileAt (path : Path) (contents : Bytes) (media : Media) : Prop :=
  ∃ entry, media.lookup path = some entry ∧ entry.node = .file contents

/-- A local file has these bytes, which were the daemon's. -/
def Saved (token : Token) (contents : Bytes) (w : World) : Prop :=
  ∃ uuid, w.disk.lookup (.syncChange token uuid) = some (.bytes contents)

/-- The bytes are in the file, or in a local one. -/
def Kept (path : Path) (token : Token) (contents : Bytes) (w : World) : Prop :=
  FileAt path contents w.device.media ∨ Saved token contents w

omit [Foundation] in
theorem Saved.of_confined {w w' : World} (hw : Saved token contents w) (h : Confined w w') :
    Saved token contents w' := by
  obtain ⟨uuid, hdisk⟩ := hw
  refine ⟨uuid, ?_⟩
  rcases h.disk (.syncChange token uuid) rfl with hsame | ⟨hnone, -⟩
  · rw [hsame, hdisk]
  · rw [hnone] at hdisk
    cases hdisk

omit [Foundation] in
theorem FileAt.of_spares {w w' : World} (hw : FileAt path contents w.device.media)
    (h : Spares path w w') : FileAt path contents w'.device.media := by
  obtain ⟨entry, hentry, hnode⟩ := hw
  exact ⟨entry, h.trans hentry, hnode⟩

omit [Foundation] in
theorem kept_triple {α : Type} {m : M α} [hspares : Keeps (Spares path) m] [hm : Keeps Confined m] :
    Triple (Kept path token contents) m (fun _ => Kept path token contents)
      (fun _ => Kept path token contents) (Kept path token contents) := by
  intro w hw
  have hkept : Kept path token contents (m w).2 := by
    rcases hw with hfile | hsaved
    · exact .inl (hfile.of_spares (hspares.keeps w))
    · exact .inr (hsaved.of_confined (hm.keeps w))
  rcases heq : m w with ⟨outcome, w'⟩
  rw [heq] at hkept
  cases outcome <;> exact hkept

/-- What was read at a path is there. -/
def Observed (path : Path) (media : Media) : Option Bytes → Prop
  | none => media.lookup path = none
  | some contents => FileAt path contents media

omit [Foundation] in
theorem trackedCurrent_reads (hpath : Direct path) {media : Media} :
    Reads media (trackedCurrent path ((media.lookup path).map Entry.info)) (Observed path media) := by
  unfold trackedCurrent
  cases hentry : media.lookup path with
  | none => exact Reads.pure hentry
  | some entry =>
    exact Reads.bind (readSnapshot_reads hpath hentry) fun contents hnode =>
      Reads.pure ⟨entry, hentry, hnode⟩

omit [Foundation] in
theorem Looks.media {w w' : World} (h : Looks w w') : w'.device.media = w.device.media := by
  obtain ⟨app, hdevice⟩ := h.device
  rw [hdevice]

omit [Foundation] in
/-- The look at a tracked file before it is restored. -/
theorem observed_triple {β : Type} {P : World → Prop} {R : β → World → Prop} {F : Failure → World → Prop}
    {C : World → Prop} (hpath : Direct path) (hP : ∀ s s', P s → Looks s s' → P s')
    (hF : ∀ failure s, P s → F failure s) (hC : ∀ s, P s → C s) {next : Option Bytes → M β}
    (hnext : ∀ current,
      Triple (fun s => P s ∧ Observed path s.device.media current) (next current) R F C) :
    Triple P (info path >>= fun found =>
      require silent (found.all fun row => row.kind == .regular) >>= fun _ =>
        trackedCurrent path found >>= next) R F C := by
  have hinfo := Reads.triple (m := info path)
    (Q := fun media found => found = (media.lookup path).map Entry.info)
    (fun s _ => info_reads hpath) hP
  refine Triple.bind (hinfo.conseq (fun _ => id) (fun _ _ => id) hF hC) fun found => ?_
  unfold require
  split
  · have hcurrent := Reads.triple (m := trackedCurrent path found)
      (P := fun s => P s ∧ found = (s.device.media.lookup path).map Entry.info)
      (Q := Observed path) (fun s hs => by rw [hs.2]; exact trackedCurrent_reads hpath)
      fun s s' hs hlooks => ⟨hP s s' hs.1 hlooks, by rw [hlooks.media]; exact hs.2⟩
    refine Triple.bind
      (Q := fun _ s => P s ∧ found = (s.device.media.lookup path).map Entry.info)
      (Triple.pure fun _ => id) fun _ => Triple.bind ?_ hnext
    exact hcurrent.conseq (fun _ => id) (fun _ _ hs => ⟨hs.1.1, hs.2⟩)
      (fun failure s hs => hF failure s hs.1) fun s hs => hC s hs.1
  · exact fun s hs => hF silent s hs.1

omit [Foundation] in
/-- What is saved stays so, whatever follows. -/
theorem saved_triple {α : Type} {m : M α} [hm : Keeps Confined m] :
    Triple (Saved token contents) m (fun _ => Saved token contents)
      (fun _ => Kept path token contents) (Kept path token contents) :=
  (hm.triple fun _ _ => Saved.of_confined).conseq (fun _ => id) (fun _ _ => id)
    (fun _ _ => .inr) fun _ => .inr

omit [Foundation] in
theorem writeSyncChange_saves (uuid : Token) :
    Triple (fun _ => True) (writeNewBytes (.syncChange token uuid) contents)
      (fun _ => Saved token contents) (fun _ _ => True) fun _ => True := by
  intro w _
  unfold writeNewBytes writeNew actPartly
  dsimp only
  split
  · exact trivial
  · split
    · exact trivial
    · split
      · rename_i hw'
        split at hw'
        · cases hw'
        · cases hw'
          exact ⟨uuid, AList.lookup_insert _⟩
      · exact trivial

omit [Foundation] in
/-- Until the bytes are saved the file is left alone. -/
theorem keepSyncChange_saves :
    Triple (fun w => FileAt path contents w.device.media) (keepSyncChange token (some contents))
      (fun _ => Saved token contents) (fun _ => Kept path token contents) (Kept path token contents) := by
  have hspares : ∀ s s', FileAt path contents s.device.media → Spares path s s' →
      FileAt path contents s'.device.media := fun _ _ => FileAt.of_spares
  unfold keepSyncChange
  have hfresh : Keeps (Spares path) freshUUID := inferInstance
  refine Triple.bind (Keeps.triple hfresh hspares |>.conseq (fun _ => id) (fun _ _ => id)
    (fun _ _ => .inl) fun _ => .inl) fun uuid => ?_
  have hwrite : Keeps (Spares path) (writeNewBytes (.syncChange token uuid) contents) :=
    writeNewBytes_spares _ _
  refine Triple.bind (Q := fun _ => Saved token contents) ?_ fun _ => ?_
  · exact ((writeSyncChange_saves uuid).frame hwrite hspares).conseq (fun _ hs => ⟨hs, trivial⟩)
      (fun _ _ hs => hs.2) (fun _ _ hs => .inl hs.1) fun _ hs => .inl hs.1
  · exact Triple.bind saved_triple fun _ => saved_triple

theorem restoreTracked_kept [InBooks path] (hpath : Direct path) (index : ℕ) (row : TrackedRow) :
    Triple (Kept path token contents) (restoreTracked token index path row)
      (fun _ => Kept path token contents) (fun _ => Kept path token contents)
      (Kept path token contents) := by
  have hlooks : ∀ s s', Kept path token contents s → Looks s s' → Kept path token contents s' := by
    intro s s' hs h
    rcases hs with hfile | hsaved
    · exact .inl (by rw [h.media]; exact hfile)
    · exact .inr (hsaved.of_confined h.confined)
  unfold restoreTracked
  refine Triple.bind (Q := fun _ => Kept path token contents) (Keeps.triple (R := Looks) inferInstance hlooks)
    fun original => ?_
  refine observed_triple hpath hlooks (fun _ _ => id) (fun _ => id) fun current => ?_
  refine Triple.ite (fun _ => Triple.pure fun _ hs => hs.1) fun _ => ?_
  have hsave : Triple (fun s => Kept path token contents s ∧ Observed path s.device.media current)
      (keepSyncChange token current) (fun _ => Saved token contents)
      (fun _ => Kept path token contents) (Kept path token contents) := by
    intro s hs
    obtain ⟨hfile | hsaved, hobserved⟩ := hs
    · obtain ⟨entry, hentry, hnode⟩ := id hfile
      cases current with
      | none =>
        rw [show s.device.media.lookup path = none from hobserved] at hentry
        cases hentry
      | some found =>
        obtain ⟨entry', hentry', hnode'⟩ := hobserved
        rw [hentry] at hentry'
        cases hentry'
        rw [hnode] at hnode'
        cases hnode'
        exact keepSyncChange_saves s hfile
    · exact saved_triple s hsaved
  have hafter : ∀ {m : M Unit} [Keeps Confined m], Triple (Saved token contents) m
      (fun _ => Kept path token contents) (fun _ => Kept path token contents)
      (Kept path token contents) := fun {m} hm => saved_triple.post fun _ _ => .inr
  refine Triple.bind hsave fun _ => Triple.bind saved_triple fun _ => ?_
  cases original <;> exact hafter

omit [Foundation] in
/-- No tracked file is the parent of another, or of the marker, or of a directory that may go. -/
theorem tracked_parent : ∀ path ∈ xfatcTrackedFiles,
    ∀ other ∈ booksMarkerPath :: booksSyncPath :: booksPath :: xfatcTrackedFiles,
      path ≠ other.dropLast := by decide

omit [Foundation] in
theorem tracked_apart {other : Path} (hpath : path ∈ xfatcTrackedFiles)
    (hother : other ∈ xfatcTrackedFiles) (hne : path ≠ other) : Apart path other :=
  ⟨hne, tracked_parent path hpath other (by simp only [List.mem_cons, hother, or_true])⟩

omit [Foundation] in
theorem tracked_other : ∀ path ∈ xfatcTrackedFiles, ∀ other ∈ [booksMarkerPath, booksSyncPath, booksPath],
    path ≠ other := by decide

omit [Foundation] in
/-- What goes besides the tracked files is apart from them. -/
theorem tracked_apart_other {other : Path} (hpath : path ∈ xfatcTrackedFiles)
    (hother : other ∈ [booksMarkerPath, booksSyncPath, booksPath]) : Apart path other :=
  ⟨tracked_other path hpath other hother, tracked_parent path hpath other
    (List.mem_append_left xfatcTrackedFiles hother)⟩

omit [Foundation] in
theorem tracked_direct {path : Path} (hpath : path ∈ xfatcTrackedFiles) : Direct path := by
  obtain ⟨tail, -, rfl⟩ := List.mem_map.mp hpath
  exact direct_books tail

theorem restoreTrackedRows_kept (hpath : path ∈ xfatcTrackedFiles) (rows : List (Path × TrackedRow))
    (hrows : ∀ row ∈ rows, row.1 ∈ xfatcTrackedFiles) (index : ℕ) :
    Triple (Kept path token contents) (restoreTrackedRows token rows index)
      (fun _ => Kept path token contents) (fun _ => Kept path token contents)
      (Kept path token contents) := by
  induction rows generalizing index with
  | nil => exact Triple.pure fun _ => id
  | cons first rest ih =>
    obtain ⟨other, row⟩ := first
    obtain ⟨hother, hrest⟩ := List.forall_mem_cons.mp hrows
    have hbooks : InBooks other := inBooks_tracked other hother
    unfold restoreTrackedRows
    refine Triple.bind (Q := fun _ => Kept path token contents) ?_ fun _ => ih hrest (index + 1)
    by_cases heq : path = other
    · subst heq
      exact restoreTracked_kept (tracked_direct hpath) index row
    · have hapart : Apart path other := tracked_apart hpath hother heq
      exact kept_triple

/-- However the restore in place ends, no byte of a tracked file is lost. -/
theorem restoreBooksInPlace_keeps {w : World} {journal : Journal}
    (hjournal : w.session.journal = some journal) (hpath : path ∈ xfatcTrackedFiles)
    (hfile : FileAt path contents w.device.media) :
    Kept path journal.token contents (restoreBooksInPlace w).2 := by
  have hmarker : Apart path booksMarkerPath := tracked_apart_other hpath (by simp)
  have hsync : Apart path booksSyncPath := tracked_apart_other hpath (by simp)
  have hbooks : Apart path booksPath := tracked_apart_other hpath (by simp)
  unfold restoreBooksInPlace
  rw [bind_done (theJournal_some w journal hjournal)]
  refine (invariant_iff (I := Kept path journal.token contents)).mpr ?_ |>.keeps w (.inl hfile)
  refine Triple.bind kept_triple fun marker => Triple.bind kept_triple fun _ => ?_
  refine Triple.bind (Q := fun _ => Kept path journal.token contents) ?_ fun _ => kept_triple
  refine Triple.ite (fun _ => ?_) fun _ => Triple.pure fun _ => id
  exact restoreTrackedRows_kept hpath _ (fun row hrow => (List.of_mem_zip hrow).1) 0

omit [Foundation] in
theorem restoreBooksInPlace_keeps_rewritten :
    Kept [.books, .booksPlist] 1 [7, 8] (@restoreBooksInPlace unaryFoundation rewrittenWorld).2 :=
  @restoreBooksInPlace_keeps unaryFoundation [.books, .booksPlist] [7, 8] rewrittenWorld
    rewrittenJournal rfl (by decide) ⟨⟨.file [7, 8], 0, 0⟩, by decide, rfl⟩

end Kept

section PutBack

variable [Foundation] {token : Token} {index : ℕ} {path : Path}

/-- The local copy that a row tells of: none, or bytes of its size and digest. -/
def Copied (token : Token) (index : ℕ) : TrackedRow → Option Bytes → World → Prop
  | .absent, original, _ => original = none
  | .present row digest, original, w => ∃ contents, original = some contents ∧
      w.disk.lookup (.preimage token index) = some (.bytes contents) ∧
      contents.length = row.size ∧ digest.all (fun digest => digest == sha256 contents) = true

/-- A tracked file is as its row tells: absent, or the bytes of the local copy. -/
def PutBack (token : Token) (index : ℕ) (path : Path) (row : TrackedRow) (w : World) : Prop :=
  ∃ original, Copied token index row original w ∧ Observed path w.device.media original

theorem Copied.of_confined {row : TrackedRow} {original : Option Bytes} {w w' : World}
    (hw : Copied token index row original w) (h : Confined w w') :
    Copied token index row original w' := by
  cases row with
  | absent => exact hw
  | present row digest =>
    obtain ⟨contents, horiginal, hdisk, hrest⟩ := hw
    refine ⟨contents, horiginal, ?_, hrest⟩
    rcases h.disk (.preimage token index) rfl with hsame | ⟨hnone, -⟩
    · rw [hsame, hdisk]
    · rw [hnone] at hdisk
      cases hdisk

omit [Foundation] in
theorem Observed.of_spares {current : Option Bytes} {w w' : World}
    (hw : Observed path w.device.media current) (h : Spares path w w') :
    Observed path w'.device.media current := by
  cases current with
  | none => exact h.trans hw
  | some contents => exact FileAt.of_spares hw h

theorem PutBack.of_frames {row : TrackedRow} {w w' : World} (hw : PutBack token index path row w)
    (hconfined : Confined w w') (hspares : Spares path w w') : PutBack token index path row w' := by
  obtain ⟨original, hcopied, hobserved⟩ := hw
  exact ⟨original, hcopied.of_confined hconfined, hobserved.of_spares hspares⟩

omit [Foundation] in
theorem localRead_read (name : LocalName) :
    Triple (fun _ => True) (localRead name) (fun stored w => w.disk.lookup name = some stored)
      (fun _ _ => True) fun _ => True := by
  intro w _
  unfold localRead query
  dsimp only
  split
  · exact trivial
  · split
    · exact trivial
    · split
      · rename_i hgiven
        split at hgiven
        · split at hgiven
          · cases hgiven
            assumption
          · cases hgiven
        · cases hgiven
      · exact trivial

omit [Foundation] in
theorem localBytes_read (name : LocalName) :
    Triple (fun _ => True) (localBytes name) (fun bytes w => w.disk.lookup name = some (.bytes bytes))
      (fun _ _ => True) fun _ => True := by
  unfold localBytes
  refine Triple.bind (localRead_read name) fun stored => ?_
  cases stored with
  | bytes bytes => exact Triple.pure fun _ => id
  | journal journal => exact Triple.fail fun _ _ => trivial
  | deleteReceipt receipt => exact Triple.fail fun _ _ => trivial
  | fileReceipt receipt => exact Triple.fail fun _ _ => trivial
  | directory => exact Triple.fail fun _ _ => trivial

theorem trackedOriginal_copied (row : TrackedRow) :
    Triple (fun _ => True) (trackedOriginal token index row)
      (fun original => Copied token index row original) (fun _ _ => True) fun _ => True := by
  unfold trackedOriginal
  cases row with
  | absent => exact Triple.pure fun _ _ => rfl
  | present row digest =>
    refine Triple.bind (localBytes_read _) fun contents => require_given fun hvalid => ?_
    rw [Bool.and_eq_true, beq_iff_eq] at hvalid
    exact Triple.pure fun w hw => ⟨contents, rfl, hw, hvalid⟩

omit [Foundation] in
/-- A look at Media at the end of a program. -/
theorem Reads.ends {α : Type} {m : M α} [Keeps Looks m] {Q : Media → Prop}
    (h : ∀ media, Reads media m fun _ => Q media) :
    Triple (fun _ => True) m (fun _ s => Q s.device.media) (fun _ _ => True) fun _ => True :=
  (Reads.triple (Q := fun media _ => Q media) (fun s _ => h s.device.media)
    fun _ _ _ _ => trivial).conseq (fun _ => id) (fun _ _ hs => hs.2) (fun _ _ => id) fun _ => id

omit [Foundation] in
/-- A file that is written is read back. -/
theorem writeBooksBytes_observed (hpath : Direct path) (bytes : Bytes) :
    Triple (fun _ => True) (writeBooksBytes bytes path)
      (fun _ w => Observed path w.device.media (some bytes)) (fun _ _ => True) fun _ => True := by
  unfold writeBooksBytes
  refine Triple.bind Triple.anyway fun _ => Triple.bind Triple.anyway fun _ => ?_
  refine Triple.bind Triple.anyway fun _ => Triple.bind Triple.anyway fun _ => ?_
  refine Reads.ends (Q := fun media => Observed path media (some bytes)) fun media => ?_
  refine Reads.bind (info_reads hpath) fun found hfound => Reads.bind Reads.the fun row hrow => ?_
  rw [hfound] at hrow
  obtain ⟨entry, hentry, rfl⟩ := Option.map_eq_some_iff.mp hrow
  refine Reads.bind (readSnapshot_reads hpath hentry) fun observed hnode => ?_
  refine Triple.post Reads.require fun _ w hsame => ⟨hsame.1, entry, hentry, ?_⟩
  rw [hnode, eq_of_beq hsame.2]

omit [Foundation] in
/-- An object that is removed is looked for. -/
theorem removeOwned_observed (hpath : Direct path) (kind : Kind) :
    Triple (fun _ => True) (removeOwned path kind)
      (fun _ w => Observed path w.device.media none) (fun _ _ => True) fun _ => True := by
  have hmissing : ∀ {media : Media} {found : Option FileInfo},
      found = (media.lookup path).map Entry.info → found.isNone = true → Observed path media none := by
    intro media found hfound hnone
    rw [hfound, Option.isNone_map, Option.isNone_iff_eq_none] at hnone
    exact hnone
  unfold removeOwned
  refine Triple.bind (Reads.triple (m := info path)
    (Q := fun media found => found = (media.lookup path).map Entry.info)
    (fun _ _ => info_reads hpath) fun _ _ _ _ => trivial) fun found => ?_
  cases found with
  | none => exact Triple.pure fun w hw => hmissing hw.2 rfl
  | some row =>
    refine Triple.bind Triple.anyway fun _ => Triple.bind Triple.anyway fun _ => ?_
    refine Triple.bind Triple.anyway fun _ => ?_
    refine Reads.ends (Q := fun media => Observed path media none) fun media => ?_
    refine Reads.bind (info_reads hpath) fun left hleft => ?_
    exact Triple.post Reads.require fun _ w hnone => ⟨hnone.1, hmissing hleft hnone.2⟩

theorem restoreTracked_putBack [InBooks path] (hpath : Direct path) (row : TrackedRow) :
    Triple (fun _ => True) (restoreTracked token index path row)
      (fun _ => PutBack token index path row) (fun _ _ => True) fun _ => True := by
  have hkeeps : ∀ {original : Option Bytes} {m : M Unit} [Keeps Confined m],
      Triple (Copied token index row original) m (fun _ => Copied token index row original)
        (fun _ _ => True) fun _ => True := fun {original} {m} hm =>
    (hm.triple fun _ _ => Copied.of_confined).conseq (fun _ => id) (fun _ _ => id)
      (fun _ _ _ => trivial) fun _ _ => trivial
  unfold restoreTracked
  refine Triple.bind (trackedOriginal_copied row) fun original => ?_
  refine observed_triple hpath (fun _ _ hs hlooks => hs.of_confined hlooks.confined)
    (fun _ _ _ => trivial) (fun _ _ => trivial) fun current => ?_
  refine Triple.ite (fun heq => ?_) fun _ => ?_
  · refine Triple.pure fun w hw => ⟨original, hw.1, ?_⟩
    rw [heq]
    exact hw.2
  · refine Triple.bind (Triple.pre hkeeps fun _ hs => hs.1) fun _ => Triple.bind hkeeps fun _ => ?_
    have hframed : ∀ {m : M Unit}, Keeps Confined m → Triple (fun _ => True) m
        (fun _ w => Observed path w.device.media original) (fun _ _ => True) (fun _ => True) →
        Triple (Copied token index row original) m (fun _ => PutBack token index path row)
          (fun _ _ => True) fun _ => True := by
      intro m hm h
      exact (h.frame hm fun _ _ => Copied.of_confined).conseq (fun _ hs => ⟨hs, trivial⟩)
        (fun _ _ hs => ⟨original, hs⟩) (fun _ _ _ => trivial) fun _ _ => trivial
    cases original with
    | none => exact hframed inferInstance (removeOwned_observed hpath _)
    | some bytes => exact hframed inferInstance (writeBooksBytes_observed hpath bytes)

theorem restoreTrackedRows_spares {rows : List (Path × TrackedRow)} (hpath : path ∈ xfatcTrackedFiles)
    (hrows : ∀ row ∈ rows, row.1 ∈ xfatcTrackedFiles ∧ path ≠ row.1) :
    Keeps (Spares path) (restoreTrackedRows token rows index) := by
  induction rows generalizing index with
  | nil =>
    unfold restoreTrackedRows
    infer_instance
  | cons first rest ih =>
    obtain ⟨other, row⟩ := first
    obtain ⟨⟨hother, hne⟩, hrest⟩ := List.forall_mem_cons.mp hrows
    have hapart : Apart path other := tracked_apart hpath hother hne
    have hlater := @ih (index + 1) hrest
    unfold restoreTrackedRows
    infer_instance

/-- Each row is put back, and the rows that follow leave it so. -/
theorem restoreTrackedRows_putBack (rows : List (Path × TrackedRow))
    (hrows : ∀ row ∈ rows, row.1 ∈ xfatcTrackedFiles) (hnodup : (rows.map Prod.fst).Nodup) (index : ℕ) :
    Triple (fun _ => True) (restoreTrackedRows token rows index)
      (fun _ w => ∀ n path row, rows[n]? = some (path, row) → PutBack token (index + n) path row w)
      (fun _ _ => True) fun _ => True := by
  induction rows generalizing index with
  | nil => exact Triple.pure fun w _ n path row hrow => by cases hrow
  | cons first rest ih =>
    obtain ⟨path, row⟩ := first
    obtain ⟨hpath, hrest⟩ := List.forall_mem_cons.mp hrows
    obtain ⟨hnew, hnodup⟩ := List.nodup_cons.mp hnodup
    have hbooks : InBooks path := inBooks_tracked path hpath
    have hspares : Keeps (Spares path) (restoreTrackedRows token rest (index + 1)) :=
      restoreTrackedRows_spares hpath fun other hother => by
        refine ⟨hrest other hother, fun heq => hnew ?_⟩
        have hmem := List.mem_map_of_mem (f := Prod.fst) hother
        rw [← heq] at hmem
        exact hmem
    have hconfined : Keeps Confined (restoreTrackedRows token rest (index + 1)) :=
      restoreTrackedRows_confined token rest _ fun other hother => inBooks_tracked _ (hrest other hother)
    have hboth : Keeps (fun w w' => Confined w w' ∧ Spares path w w')
        (restoreTrackedRows token rest (index + 1)) :=
      ⟨fun w => ⟨hconfined.keeps w, hspares.keeps w⟩⟩
    unfold restoreTrackedRows
    refine Triple.bind (restoreTracked_putBack (tracked_direct hpath) row) fun _ => ?_
    refine ((ih hrest hnodup (index + 1)).frame hboth fun w w' (hw : PutBack token index path row w)
      hframes => hw.of_frames hframes.1 hframes.2).conseq (fun _ hs => ⟨hs, trivial⟩) ?_
      (fun _ _ _ => trivial) fun _ _ => trivial
    intro _ w hw n other row' hrow
    cases n with
    | zero =>
      cases hrow
      exact hw.1
    | succ n =>
      rw [List.getElem?_cons_succ] at hrow
      rw [show index + (n + 1) = index + 1 + n by omega]
      exact hw.2 n other row' hrow

omit [Foundation] in
theorem map_fst_zip_sublist {α β : Type} (items : List α) (others : List β) :
    ((items.zip others).map Prod.fst).Sublist items := by
  induction items generalizing others with
  | nil => exact List.Sublist.refl _
  | cons item rest ih =>
    cases others with
    | nil => exact List.nil_sublist _
    | cons other more => exact (ih more).cons_cons item

omit [Foundation] in
theorem nodup_tracked : xfatcTrackedFiles.Nodup := by decide

/-- When the restore in place returns, every tracked file is as its row tells. -/
theorem restoreBooksInPlace_restores {w w' : World} {journal : Journal} {row : TrackedRow}
    (hjournal : w.session.journal = some journal)
    (hstarted : journal.inPlaceManifestWriteStarted = true) (hrestored : journal.booksRestored = false)
    (hrow : (xfatcTrackedFiles.zip (journal.trackedPreimage.getD []))[index]? = some (path, row))
    (h : restoreBooksInPlace w = (.done (), w')) : PutBack journal.token index path row w' := by
  have hrows : ∀ row ∈ xfatcTrackedFiles.zip (journal.trackedPreimage.getD []),
      row.1 ∈ xfatcTrackedFiles := fun row hrow => (List.of_mem_zip hrow).1
  have hpath : path ∈ xfatcTrackedFiles := hrows _ (List.mem_of_getElem? hrow)
  have hmarker : Apart path booksMarkerPath := tracked_apart_other hpath (by simp)
  have hsync : Apart path booksSyncPath := tracked_apart_other hpath (by simp)
  have hbooks : Apart path booksPath := tracked_apart_other hpath (by simp)
  have hlast : ∀ {m : M Unit}, Keeps Confined m → Keeps (Spares path) m →
      Triple (PutBack journal.token index path row) m (fun _ => PutBack journal.token index path row)
        (fun _ _ => True) fun _ => True := by
    intro m hconfined hspares w hw
    have hkept := hw.of_frames (hconfined.keeps w) (hspares.keeps w)
    rcases heq : m w with ⟨outcome, w'⟩
    rw [heq] at hkept
    cases outcome with
    | done value => exact hkept
    | failed failure => exact trivial
    | stopped => exact trivial
  have hrun : Triple (fun _ => True) (restoreTrackedRows journal.token
      (xfatcTrackedFiles.zip (journal.trackedPreimage.getD [])) 0)
      (fun _ => PutBack journal.token index path row) (fun _ _ => True) fun _ => True := by
    refine (restoreTrackedRows_putBack _ hrows ((map_fst_zip_sublist _ _).nodup nodup_tracked) 0).post
      fun _ s hs => ?_
    have hback := hs index path row hrow
    rw [Nat.zero_add] at hback
    exact hback
  unfold restoreBooksInPlace at h
  rw [bind_done (theJournal_some w journal hjournal), hstarted, hrestored] at h
  refine Triple.of_done (P := fun _ => True) (Q := fun _ => PutBack journal.token index path row)
    (F := fun _ _ => True) (C := fun _ => True) ?_ trivial h
  refine Triple.bind Triple.anyway fun marker => Triple.bind Triple.anyway fun _ => ?_
  exact Triple.bind hrun fun _ => hlast inferInstance inferInstance

omit [Foundation] in
theorem restoreBooksInPlace_restores_rewritten :
    @PutBack unaryFoundation 1 0 [.books, .booksPlist] (.present ⟨.regular, 1, 0, 0, none⟩ (some [5]))
      (@restoreBooksInPlace unaryFoundation rewrittenWorld).2 := by
  have hdone : (@restoreBooksInPlace unaryFoundation rewrittenWorld).1 = .done () := by decide +kernel
  exact @restoreBooksInPlace_restores unaryFoundation 0 [.books, .booksPlist] rewrittenWorld _
    rewrittenJournal _ rfl rfl rfl rfl (Prod.ext hdone rfl)

end PutBack

end XitForge.Directory
