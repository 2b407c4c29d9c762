import XitForge.Directory.Calm

/-!
Putting Books back, in place or from the copy of an old transaction, stays within Books. It
writes no other object of Media, it adds local files but replaces none beside the journal, and
of the journal it changes the rows of the copy and the flag that Books is restored. What AFC
writes at one path is said once, for every relation of worlds that allows a change there.
-/
namespace XitForge.Directory

open Program Program.Prog Foundation

set_option synthInstance.maxSize 10000000

section Device

variable {device device' : Device} {now : ℕ} {path : Path}

/-- Nothing but the object at a path was changed, and the date of its parent. -/
def Device.OnlyAt (path : Path) (device device' : Device) : Prop :=
  ∀ other, other ≠ path → other ≠ path.dropLast →
    device'.media.lookup other = device.media.lookup other

theorem onlyAt_lookup {media media' : Media} {value : Option Entry}
    (h : ∀ other, media'.lookup other = if other = path then value
      else if other = path.dropLast then (media.lookup other).map (Inode.touch now)
      else media.lookup other) (other : Path) (hself : other ≠ path) (hparent : other ≠ path.dropLast) :
    media'.lookup other = media.lookup other := by
  rw [h, if_neg hself, if_neg hparent]

theorem putAt_onlyAt {entry : Entry} (h : device.putAt now entry (.media path) = some device') :
    device.OnlyAt path device' := by
  obtain ⟨media, hmedia, rfl⟩ := Option.map_eq_some_iff.mp h
  exact onlyAt_lookup (FileTree.lookup_place hmedia)

theorem dropAt_onlyAt (h : device.dropAt now (.media path) = some device') :
    device.OnlyAt path device' := by
  obtain ⟨media, hmedia, rfl⟩ := Option.map_eq_some_iff.mp h
  exact onlyAt_lookup (FileTree.lookup_remove hmedia)

theorem rewrite_onlyAt {media : Media} {entry : Entry}
    (h : device.media.rewrite path entry = some media) :
    device.OnlyAt path { device with media := media } := by
  intro other hself _
  show media.lookup other = device.media.lookup other
  rw [FileTree.lookup_rewrite h, if_neg hself]

theorem makeDirectory_onlyAt (h : device.makeDirectory now path = some device') :
    device.OnlyAt path device' := by
  unfold Device.makeDirectory at h
  split at h
  · cases h
  · exact putAt_onlyAt h

theorem openForWriting_onlyAt (h : device.openForWriting now path = some device') :
    device.OnlyAt path device' := by
  unfold Device.openForWriting at h
  split at h
  · exact putAt_onlyAt h
  · split at h
    · obtain ⟨media, hmedia, rfl⟩ := Option.map_eq_some_iff.mp h
      exact rewrite_onlyAt hmedia
    · cases h

theorem appendBytes_onlyAt {bytes : Bytes} (h : device.appendBytes now path bytes = some device') :
    device.OnlyAt path device' := by
  unfold Device.appendBytes at h
  split at h
  · obtain ⟨media, hmedia, rfl⟩ := Option.map_eq_some_iff.mp h
    exact rewrite_onlyAt hmedia
  · cases h

end Device

section Frames

/-- A relation that looking respects, and the trace. -/
class LookFrame (R : World → World → Prop) : Prop extends IsPreorder World R where
  looks : ∀ w w', Looks w w' → R w w'
  log : ∀ (w : World) (event : Event), R w (w.log event)

/-- The relation allows a change of the object at a path. -/
class Writable (R : World → World → Prop) (path : Path) : Prop where
  device : ∀ (w : World) (device : Device), w.device.OnlyAt path device → R w (w.withDevice device)

variable {R : World → World → Prop} [hframe : LookFrame R]

include hframe

instance (priority := low) frame_of_looks {α : Type} {m : M α} [hm : Keeps Looks m] : Keeps R m :=
  hm.mono hframe.looks

theorem actPartly_looks {whole : World → Except Failure World} {partly : Choice → World → World}
    {w : World} (hwhole : ∀ w', whole w.tick = .ok w' → R w.tick w')
    (hpartly : ∀ c, R w.tick (partly c w.tick)) : R w (actPartly whole partly w).2 := by
  have htick := hframe.looks _ _ (Looks.tick w)
  have hleft : R w (if w.choice.effect then partly w.choice w.tick else w.tick) := by
    split
    · exact trans_of R htick (hpartly _)
    · exact htick
  unfold actPartly
  dsimp only
  split
  · exact hleft
  · split
    · exact hleft
    · split
      · exact trans_of R htick (hwhole _ ‹_›)
      · exact htick

theorem act_looks {whole : World → Except Failure World} {w : World}
    (hwhole : ∀ w', whole w.tick = .ok w' → R w.tick w') : R w (act whole w).2 := by
  refine actPartly_looks hwhole fun _ => ?_
  cases hend : whole w.tick with
  | ok w' => exact hwhole w' hend
  | error failure => exact refl_of R w.tick

variable {path : Path} [hpath : Writable R path]

include hpath

/-- A step on the device that changes one path when it can be made. -/
theorem act_device_frame {change : World → Option Device} {failure : Failure}
    (hchange : ∀ w device, change w = some device → w.device.OnlyAt path device) :
    Keeps R (act fun w =>
      match change w with
      | some device => .ok (w.withDevice device)
      | none => .error failure) := by
  refine ⟨fun w => act_looks fun w' h => ?_⟩
  split at h
  · cases h
    exact hpath.device _ _ (hchange w.tick _ ‹_›)
  · cases h

instance afcOpenForWriting_writes : Keeps R (afcOpenForWriting path) :=
  act_device_frame fun _ _ => openForWriting_onlyAt

instance afcFileWrite_writes (bytes : Bytes) : Keeps R (afcFileWrite path bytes) := by
  refine ⟨fun w => actPartly_looks (fun w' h => ?_) fun c => ?_⟩
  · split at h
    · cases h
      exact hpath.device _ _ (appendBytes_onlyAt ‹_›)
    · cases h
  · split
    · exact hpath.device _ _ (appendBytes_onlyAt ‹_›)
    · exact refl_of R w.tick

instance afcWriteFile_writes (bytes : Bytes) : Keeps R (afcWriteFile path bytes) := by
  unfold afcWriteFile
  infer_instance

instance afcMakeDirectory_writes : Keeps R (afcMakeDirectory path) :=
  act_device_frame fun _ _ => makeDirectory_onlyAt

instance afcRemovePath_writes : Keeps R (afcRemovePath path) := by
  have hlog : Keeps R (modify fun w : World =>
      w.log (.unlinked path (w.nodeAt path) w.session.journal w.snapshot) : M Unit) :=
    ⟨fun w => hframe.log w _⟩
  have hremove : Keeps R (act fun w =>
      match w.device.removePath w.pos path with
      | some device => .ok (w.withDevice device)
      | none => .error silent) := act_device_frame fun _ _ => dropAt_onlyAt
  unfold afcRemovePath
  infer_instance

instance removeOwned_writes (kind : Kind) : Keeps R (removeOwned path kind) := by
  unfold removeOwned
  refine Keeps.bind inferInstance fun found => ?_
  cases found <;> infer_instance

instance writeOwned_writes (bytes : Bytes) : Keeps R (writeOwned bytes path) := by
  unfold writeOwned
  infer_instance

instance removeIfEmpty_writes [Foundation] : Keeps R (removeIfEmpty path) := by
  unfold removeIfEmpty
  infer_instance

instance writeBooksBytes_writes [Foundation] (bytes : Bytes) : Keeps R (writeBooksBytes bytes path) := by
  unfold writeBooksBytes
  infer_instance

end Frames

/-- The journal without what a restore of Books writes into it. -/
def Journal.besideBooks (journal : Journal) : Journal :=
  { journal with legacyBooksCopy := none, legacyCopyRestored := none, booksRestored := false }

/-- The files in which journals are kept. -/
def LocalName.isJournal : LocalName → Bool
  | .active | .direct _ => true
  | _ => false

/-- What is kept of Books: the copy of the backup, and the bytes of the daemon. -/
def LocalName.isKept : LocalName → Bool
  | .legacyBooks _ | .legacyLeaf _ _ | .syncChange _ _ => true
  | _ => false

structure Confined (w w' : World) : Prop where
  media : ∀ path, ¬ booksPath <+: path → w'.device.media.lookup path = w.device.media.lookup path
  disk : ∀ name, name.isJournal = false → w'.disk.lookup name = w.disk.lookup name ∨
    w.disk.lookup name = none ∧ name.isKept = true
  journal : w'.session.journal.map Journal.besideBooks = w.session.journal.map Journal.besideBooks

theorem Confined.refl (w : World) : Confined w w := ⟨fun _ _ => rfl, fun _ _ => .inl rfl, rfl⟩

theorem Confined.trans {w w' w'' : World} (h : Confined w w') (h' : Confined w' w'') :
    Confined w w'' := by
  refine ⟨fun path hpath => (h'.media path hpath).trans (h.media path hpath), fun name hname => ?_,
    h'.journal.trans h.journal⟩
  rcases h'.disk name hname with hsame | ⟨hnone, hkept⟩
  · rw [hsame]
    exact h.disk name hname
  · rcases h.disk name hname with hsame | hadded
    · exact .inr ⟨by rw [← hsame, hnone], hkept⟩
    · exact .inr hadded

instance : IsPreorder World Confined where
  refl := Confined.refl
  trans _ _ _ := Confined.trans

theorem activeName_isJournal (session : Session) : (activeName session).isJournal = true := by
  unfold activeName
  split <;> rfl

theorem Looks.confined {w w' : World} (h : Looks w w') : Confined w w' := by
  obtain ⟨app, hdevice⟩ := h.device
  refine ⟨fun path _ => by rw [hdevice], fun name hname => .inl ?_, by rw [h.session]⟩
  rcases h.disk with hsame | ⟨journal, -, hsaved⟩
  · rw [hsame]
  · rw [hsaved, AList.lookup_insert_ne]
    intro heq
    rw [heq, activeName_isJournal] at hname
    cases hname

instance : LookFrame Confined where
  looks _ _ := Looks.confined
  log _ _ := ⟨fun _ _ => rfl, fun _ _ => .inl rfl, rfl⟩

section Steps

/-- A path in Books. -/
class InBooks (path : Path) : Prop where
  below : booksPath <+: path

instance inBooks_root : InBooks booksPath := ⟨List.prefix_rfl⟩

instance inBooks_sync : InBooks booksSyncPath := ⟨[.sync], rfl⟩

instance inBooks_manifest : InBooks booksManifestPath := ⟨[.sync, .booksPlist], rfl⟩

instance inBooks_marker : InBooks booksMarkerPath := ⟨[.xitForgeOwner], rfl⟩

instance inBooks_below {root path : Path} [h : InBooks root] : InBooks (root ++ path) :=
  ⟨h.below.trans (List.prefix_append root path)⟩

theorem lookup_root (media : Media) : media.lookup [] = none := by
  cases hroot : media.lookup [] with
  | none => rfl
  | some entry => exact absurd rfl (media.parents [] entry hroot).1

/-- A change in Books is one outside which Media stays. -/
instance confined_writable {path : Path} [hpath : InBooks path] : Writable Confined path := by
  refine ⟨fun w device hdevice => ⟨fun other hother => ?_, fun _ _ => .inl rfl, rfl⟩⟩
  have hself : other ≠ path := by
    intro heq
    rw [heq] at hother
    exact hother hpath.below
  by_cases hparent : other = path.dropLast
  · obtain ⟨rest, hrest⟩ := hpath.below
    cases rest with
    | nil =>
      -- the parent of Books is the root, which is no entry
      rw [hparent, ← hrest]
      exact (lookup_root _).trans (lookup_root _).symm
    | cons name rest =>
      refine absurd ?_ hother
      rw [hparent, ← hrest, List.dropLast_append_of_ne_nil (List.cons_ne_nil name rest)]
      exact List.prefix_append _ _
  · exact hdevice other hself hparent

/-- A local file that was not there. -/
theorem Confined.insert {w : World} {name : LocalName} {stored : Stored} (hkept : name.isKept = true)
    (hnone : w.disk.lookup name = none) : Confined w (w.withDisk (w.disk.insert name stored)) := by
  refine ⟨fun _ _ => rfl, fun other _ => ?_, rfl⟩
  by_cases heq : other = name
  · rw [heq]
    exact .inr ⟨hnone, hkept⟩
  · exact .inl (AList.lookup_insert_ne heq)

theorem writeNewBytes_confined {name : LocalName} (hkept : name.isKept = true) (bytes : Bytes) :
    Keeps Confined (writeNewBytes name bytes) := by
  refine ⟨fun w => actPartly_looks (fun w' h => ?_) fun c => ?_⟩
  · split at h
    · cases h
    · cases h
      exact Confined.insert hkept (Option.not_isSome_iff_eq_none.mp ‹_›)
  · split
    · exact Confined.refl w.tick
    · exact Confined.insert hkept (Option.not_isSome_iff_eq_none.mp ‹_›)

instance writeLegacyLeaf_confined (token : Token) (path : Path) (bytes : Bytes) :
    Keeps Confined (writeNewBytes (.legacyLeaf token path) bytes) := writeNewBytes_confined rfl bytes

instance writeSyncChange_confined (token uuid : Token) (bytes : Bytes) :
    Keeps Confined (writeNewBytes (.syncChange token uuid) bytes) := writeNewBytes_confined rfl bytes

instance freshUUID_confined : Keeps Confined freshUUID :=
  ⟨fun _ => ⟨fun _ _ => rfl, fun _ _ => .inl rfl, rfl⟩⟩

theorem updateJournal_confined {change : Journal → Journal}
    (h : ∀ journal, (change journal).besideBooks = journal.besideBooks) :
    Keeps Confined (updateJournal change) := by
  refine ⟨fun w => ⟨fun _ _ => rfl, fun _ _ => .inl rfl, ?_⟩⟩
  show (w.session.journal.map change).map Journal.besideBooks = _
  cases w.session.journal with
  | none => rfl
  | some journal => exact congrArg some (h journal)

instance updateLegacy_confined (change : LegacyRecord → LegacyRecord) :
    Keeps Confined (updateLegacy change) := updateJournal_confined fun _ => rfl

instance booksRestored_confined :
    Keeps Confined (updateJournal fun journal => { journal with booksRestored := true }) :=
  updateJournal_confined fun _ => rfl

instance makeOwnedDirectory_confined {path : Path} [hpath : InBooks path] :
    Keeps Confined (makeOwnedDirectory path) := by
  have hshared : (path == [.airlock] || path == [.airlock, .book]) = false := by
    obtain ⟨rest, rfl⟩ := hpath.below
    rfl
  unfold makeOwnedDirectory
  refine Keeps.bind inferInstance fun found => ?_
  cases found with
  | some row => infer_instance
  | none =>
    dsimp only
    rw [hshared]
    unfold when
    simp only [Bool.false_eq_true, if_false]
    infer_instance

end Steps

section Books

variable [Foundation]

instance keepSyncChange_confined (token : Token) (current : Option Bytes) :
    Keeps Confined (keepSyncChange token current) := by
  unfold keepSyncChange
  cases current <;> infer_instance

instance restoreTracked_confined (token : Token) (index : ℕ) (path : Path) [InBooks path]
    (row : TrackedRow) : Keeps Confined (restoreTracked token index path row) := by
  unfold restoreTracked
  refine Keeps.bind inferInstance fun original => Keeps.bind inferInstance fun found =>
    Keeps.bind inferInstance fun _ => Keeps.bind inferInstance fun current => ?_
  cases original <;> infer_instance

theorem restoreTrackedRows_confined (token : Token) :
    ∀ rows index, (∀ row ∈ rows, InBooks row.1) →
      Keeps Confined (restoreTrackedRows token rows index)
  | [], _, _ => by
    unfold restoreTrackedRows
    infer_instance
  | (path, row) :: rest, index, hrows => by
    have hpath : InBooks path := hrows (path, row) (List.mem_cons_self ..)
    have ih := restoreTrackedRows_confined token rest (index + 1) fun other hother =>
      hrows other (List.mem_cons_of_mem _ hother)
    unfold restoreTrackedRows
    infer_instance

omit [Foundation] in
theorem inBooks_tracked (path : Path) (h : path ∈ xfatcTrackedFiles) : InBooks path := by
  obtain ⟨tail, -, rfl⟩ := List.mem_map.mp h
  exact inBooks_below

instance restoreBooksInPlace_confined : Keeps Confined restoreBooksInPlace := by
  have hrows : ∀ (token : Token) (rows : List TrackedRow), Keeps Confined
      (restoreTrackedRows token (xfatcTrackedFiles.zip rows) 0) := fun token rows =>
    restoreTrackedRows_confined token _ 0 fun row hrow => inBooks_tracked _ (List.of_mem_zip hrow).1
  unfold restoreBooksInPlace
  infer_instance

instance cleanManifest_confined (file : Path) [InBooks file] : Keeps Confined (cleanManifest file) := by
  unfold cleanManifest
  refine Keeps.bind inferInstance fun found => ?_
  cases found <;> infer_instance

instance cleanTemporarySync_confined (sync : Path) [InBooks sync] :
    Keeps Confined (cleanTemporarySync sync) := by
  unfold cleanTemporarySync
  refine Keeps.bind inferInstance fun found => ?_
  cases found <;> infer_instance

instance cleanExactTemporaryBooks_confined (root : Path) [InBooks root] :
    Keeps Confined (cleanExactTemporaryBooks root) := by
  unfold cleanExactTemporaryBooks
  refine Keeps.bind inferInstance fun found => ?_
  cases found <;> infer_instance

end Books

section Legacy

variable [Foundation]

instance legacyBooksSave_confined : Keeps Confined legacyBooksSave := by
  unfold legacyBooksSave
  infer_instance

instance legacyBooksKeep_confined (token : Token) (row : LegacyRow) (bytes : Bytes) :
    Keeps Confined (legacyBooksKeep token row bytes) := by
  unfold legacyBooksKeep legacyBooksCopyLeaf
  infer_instance

theorem legacyBooksCollectSource_confined (token : Token) (root : Path) :
    ∀ fuel relative acc, Keeps Confined (legacyBooksCollectSource token root fuel relative acc)
  | 0, _, _ => by
    unfold legacyBooksCollectSource
    infer_instance
  | fuel + 1, relative, (entries, total) => by
    have ih := legacyBooksCollectSource_confined token root fuel
    unfold legacyBooksCollectSource
    refine Keeps.bind inferInstance fun _ => Keeps.bind inferInstance fun found =>
      Keeps.bind inferInstance fun row => ?_
    split <;> infer_instance

omit [Foundation] in
/-- A step whose effect depends on the world in which it is made. -/
theorem confined_bind {α β : Type} {w : World} {m : M α} {next : α → M β}
    (hm : Confined w (m w).2) [hnext : ∀ value, Keeps Confined (next value)] :
    Confined w ((m >>= next) w).2 := by
  rcases h : m w with ⟨outcome, w'⟩
  rw [h] at hm
  cases outcome with
  | done value =>
    rw [bind_done h]
    exact hm.trans ((hnext value).keeps w')
  | failed error =>
    rw [bind_failed h]
    exact hm
  | stopped =>
    rw [bind_stopped h]
    exact hm

omit [Foundation] in
/-- The directory of the copies is made if it is missing. -/
theorem makeLegacyBooks_confined (token : Token) {w : World} {directory : Option Stored}
    (hdirectory : directory = w.disk.lookup (.legacyBooks token)) :
    Confined w (when directory.isNone
      (act fun w => .ok (w.withDisk (w.disk.insert (.legacyBooks token) .directory))) w).2 := by
  unfold when
  split
  · rename_i hnone
    refine act_looks fun w' h => ?_
    cases h
    refine Confined.insert rfl ?_
    rw [hdirectory] at hnone
    exact Option.isNone_iff_eq_none.mp hnone
  · exact Confined.refl w

theorem legacyBooksSnapshot_confined (token : Token) (source : Path) :
    Keeps Confined (legacyBooksSnapshot token source) := by
  have hcollect := legacyBooksCollectSource_confined
  have hcopy : ∀ entries, Keeps Confined (updateJournal fun journal =>
      { journal with
        legacyBooksCopy := some { entries := entries, treeDigest := legacyBooksTreeDigest entries } }) :=
    fun _ => updateJournal_confined fun _ => rfl
  unfold legacyBooksSnapshot
  refine Keeps.bind inferInstance fun current => Keeps.bind inferInstance fun _ => ⟨fun w => ?_⟩
  rw [bind_done (asks_apply _ w)]
  unfold require
  split
  · rw [bind_done (show (pure () : M Unit) w = (.done (), w) from rfl)]
    exact confined_bind (makeLegacyBooks_confined token rfl)
  · rw [bind_failed (show (fail silent : M Unit) w = (.failed silent, w) from rfl)]
    exact Confined.refl w

instance legacyBooksClear_confined (current : FileInfo) : Keeps Confined (legacyBooksClear current) := by
  unfold legacyBooksClear
  infer_instance

instance legacyBooksCreateRoot_confined : Keeps Confined legacyBooksCreateRoot := by
  unfold legacyBooksCreateRoot
  infer_instance

instance legacyBooksMark_confined : Keeps Confined legacyBooksMark := by
  unfold legacyBooksMark
  infer_instance

instance legacyBooksRestoreRow_confined (token : Token) (row : LegacyRow) :
    Keeps Confined (legacyBooksRestoreRow token row) := by
  unfold legacyBooksRestoreRow
  infer_instance

instance legacyBooksRoot_confined (restored : Bool) (record : LegacyRecord) (found : Option FileInfo) :
    Keeps Confined (legacyBooksRoot restored record found) := by
  unfold legacyBooksRoot
  cases found <;> infer_instance

instance legacyBooksMarked_confined (restored : Bool) : Keeps Confined (legacyBooksMarked restored) := by
  unfold legacyBooksMarked
  infer_instance

instance restoreLegacyBooksCopy_confined : Keeps Confined restoreLegacyBooksCopy := by
  have hsnapshot := legacyBooksSnapshot_confined
  have hrestored : Keeps Confined (updateJournal fun journal =>
      { journal with legacyCopyRestored := some true, booksRestored := true }) :=
    updateJournal_confined fun _ => rfl
  unfold restoreLegacyBooksCopy
  infer_instance

end Legacy

section Restore

variable [Foundation]

end Restore

end XitForge.Directory
