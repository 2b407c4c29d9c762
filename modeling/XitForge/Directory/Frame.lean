import XitForge.Directory.Calm

/-!
What a transaction does under its own token. A relation between worlds that calm
steps respect, and with them every change of the objects and the local files of a
token that is its own, is respected by all the code that finds the token in the
journal in memory. Nothing here depends on what the journal says otherwise.
-/
namespace XitForge.Directory

open Program Program.Prog Foundation

set_option synthInstance.maxSize 10000000

/-- What the slots of a token may become; those of the others stay. -/
def Device.SlotsTo (token : Token) (device device' : Device) : Prop :=
  ∀ other name, other ≠ token →
    device'.media.lookup [.state other, name] = device.media.lookup [.state other, name]

/-- The token, the directory of the link, and the operation with its target. -/
abbrev Identity := Token × AppPath × Option (Operation × AppPath)

/-- What no step of a transaction changes in its journal. -/
def Journal.identity (journal : Journal) : Identity :=
  (journal.token, journal.tail, journal.knownFile.map fun file => (file.operation, file.target))

/-- A relation that every step under an own token respects. The FileCompletes and
the removals of staged files are left to the relation. -/
class Frame [Foundation] (R : World → World → Prop) (own : outParam (Token → Prop)) : Prop
    extends IsPreorder World R where
  calm : ∀ w w', Calm w w' → R w w'
  journal : ∀ {α : Type} {next : Journal → M α},
    (∀ journal, own journal.token → Keeps R (next journal)) → Keeps R (theJournal >>= next)
  change : ∀ change : Journal → Journal, (∀ journal, (change journal).identity = journal.identity) →
    Keeps R (updateJournal change)
  report : ∀ change : Session → Session,
    (∀ session, (change session).directWriteActive = session.directWriteActive) →
    (∀ session, (change session).journal = session.journal ∨ (change session).journal = none) →
    Keeps R (updateSession change)
  device : ∀ (w : World) (token : Token) (device : Device), own token →
    w.device.SlotsTo token device → R w (w.withDevice device)
  pairs : ∀ pairs : List Move, pairs.length ≤ 2 → Keeps R (runKnownFilePairs pairs)
  inserted : ∀ (w : World) (name : LocalName) (stored : Stored), own name.token → name ≠ .active →
    R w (w.withDisk (w.disk.insert name stored))
  wrote : ∀ (w : World) (name : LocalName) (stored : Stored), own name.token → name ≠ .active →
    R w (w.log (.wrote name stored))
  closed : ∀ (w : World) (session : Session),
    R w (w.withDisk (w.disk.erase (activeName session)))

/-- A change of the file's record that leaves the operation and the target. -/
class KeepsIdentity (change : KnownFile → KnownFile) : Prop where
  identity : ∀ file, ((change file).operation, (change file).target) = (file.operation, file.target)

/-- An update of some of the fields. -/
instance keepsIdentity_update {a b c d e f g h i j : KnownFile → Bool}
    {originalDigest newDigest : KnownFile → Option Digest}
    {originalSize newSize deletedAt : KnownFile → Option ℕ}
    {absence receipt : KnownFile → Option Bool} {l m n : KnownFile → Bool} :
    KeepsIdentity fun file =>
      ⟨file.operation, file.target, a file, b file, c file, d file, e file, f file, g file, h file,
        i file, j file, originalDigest file, originalSize file, newDigest file, newSize file,
        absence file, receipt file, deletedAt file, l file, m file, n file⟩ := ⟨fun _ => rfl⟩

/-- A token that is the transaction's own, found by instance search. -/
class Owned (own : Token → Prop) (token : Token) : Prop where
  own : own token

instance owned_journal {own : Token → Prop} (journal : { journal : Journal // own journal.token }) :
    Owned own journal.1.token := ⟨journal.2⟩

section Steps

variable [Foundation] {R : World → World → Prop} {own : Token → Prop} [hframe : Frame R own]

include hframe

instance (priority := low) frame_of_calm {α : Type} {m : M α} [hm : Keeps Calm m] : Keeps R m :=
  hm.mono hframe.calm

instance frame_journal {α : Type} {next : Journal → M α}
    [hnext : ∀ journal : { journal : Journal // own journal.token }, Keeps R (next journal.1)] :
    Keeps R (theJournal >>= next) := hframe.journal fun journal h => hnext ⟨journal, h⟩

instance updateFile_frame (change : KnownFile → KnownFile) [h : KeepsIdentity change] :
    Keeps R (updateFile change) := by
  refine hframe.change _ fun journal => ?_
  unfold Journal.identity Journal.updateFile
  cases journal.knownFile with
  | none => rfl
  | some file => simp [h.identity file]

theorem tick_frame (w : World) : R w w.tick := hframe.calm _ _ (Calm.tick w)

theorem actPartly_frame {whole : World → Except Failure World} {partly : Choice → World → World}
    (hwhole : ∀ w w', whole w = .ok w' → R w w') (hpartly : ∀ c w, R w (partly c w)) :
    Keeps R (actPartly whole partly) := by
  constructor
  intro w
  have hleft : R w (if w.choice.effect then partly w.choice w.tick else w.tick) := by
    split
    · exact trans_of R (tick_frame w) (hpartly _ _)
    · exact tick_frame w
  unfold actPartly
  dsimp only
  split
  · exact hleft
  · split
    · exact hleft
    · split
      · exact trans_of R (tick_frame w) (hwhole _ _ ‹_›)
      · exact tick_frame w

theorem act_frame {whole : World → Except Failure World}
    (hwhole : ∀ w w', whole w = .ok w' → R w w') : Keeps R (act whole) := by
  refine actPartly_frame hwhole fun _ w => ?_
  cases hend : whole w with
  | ok w' => exact hwhole w w' hend
  | error failure => exact refl_of R w

theorem writeNew_frame (name : LocalName) [hname : Owned own name.token] (hactive : name ≠ .active)
    (stored : Stored) (cut : ℕ → Stored) : Keeps R (writeNew name stored cut) := by
  refine actPartly_frame (fun w w' h => ?_) fun c w => ?_
  · split at h
    · cases h
    · cases h
      exact hframe.inserted w name stored hname.own hactive
  · split
    · exact refl_of R w
    · exact hframe.inserted w name _ hname.own hactive

instance localRemove_active_frame (session : Session) :
    Keeps R (localRemove (activeName session)) := by
  refine act_frame fun w w' h => ?_
  split at h
  · cases h
    exact hframe.closed w session
  · cases h

end Steps

section Slots

variable {device device' : Device} {now : ℕ} {token : Token} {name : Name}

theorem slotsTo_of_lookup {media media' : Media} {value : Option Entry}
    (h : ∀ other, media'.lookup other = if other = [.state token, name] then value
      else if other = [Name.state token] then (media.lookup other).map (Inode.touch now)
      else media.lookup other) {other : Token} (slot : Name) (hother : other ≠ token) :
    media'.lookup [.state other, slot] = media.lookup [.state other, slot] := by
  rw [h, if_neg, if_neg]
  · simp
  · simp [hother]

theorem putAt_slots {entry : Entry}
    (h : device.putAt now entry (.media [.state token, name]) = some device') :
    device.SlotsTo token device' := by
  obtain ⟨media, hmedia, rfl⟩ := Option.map_eq_some_iff.mp h
  exact fun other slot hother => slotsTo_of_lookup (FileTree.lookup_place hmedia) slot hother

theorem rewrite_slots {media media' : Media} {entry : Entry}
    (h : media.rewrite [.state token, name] entry = some media') {other : Token} (slot : Name)
    (hother : other ≠ token) :
    media'.lookup [.state other, slot] = media.lookup [.state other, slot] := by
  rw [FileTree.lookup_rewrite h, if_neg]
  simp [hother]

theorem openForWriting_slots (h : device.openForWriting now [.state token, name] = some device') :
    device.SlotsTo token device' := by
  unfold Device.openForWriting at h
  split at h
  · exact putAt_slots h
  · split at h
    · obtain ⟨media, hmedia, rfl⟩ := Option.map_eq_some_iff.mp h
      exact fun other slot hother => rewrite_slots hmedia slot hother
    · cases h

theorem appendBytes_slots {bytes : Bytes}
    (h : device.appendBytes now [.state token, name] bytes = some device') :
    device.SlotsTo token device' := by
  unfold Device.appendBytes at h
  split at h
  · obtain ⟨media, hmedia, rfl⟩ := Option.map_eq_some_iff.mp h
    exact fun other slot hother => rewrite_slots hmedia slot hother
  · cases h

variable [Foundation] {R : World → World → Prop} {own : Token → Prop} [hframe : Frame R own]
  [howned : Owned own token]

include hframe howned

theorem afcOpenForWriting_slot : Keeps R (afcOpenForWriting [.state token, name]) := by
  refine act_frame fun w w' h => ?_
  split at h
  · cases h
    exact hframe.device w token _ howned.own (openForWriting_slots ‹_›)
  · cases h

theorem afcFileWrite_slot (bytes : Bytes) : Keeps R (afcFileWrite [.state token, name] bytes) := by
  refine actPartly_frame (fun w w' h => ?_) fun c w => ?_
  · split at h
    · cases h
      exact hframe.device w token _ howned.own (appendBytes_slots ‹_›)
    · cases h
  · split
    · exact hframe.device w token _ howned.own (appendBytes_slots ‹_›)
    · exact refl_of R w

theorem writeChunks_slot : ∀ fuel bytes, Keeps R (writeChunks [.state token, name] fuel bytes)
  | 0, _ => by
    unfold writeChunks
    infer_instance
  | fuel + 1, bytes => by
    have ih := writeChunks_slot fuel
    have hwrite : ∀ bytes, Keeps R (afcFileWrite [.state token, name] bytes) := afcFileWrite_slot
    unfold writeChunks
    infer_instance

end Slots

section KnownFile

variable [Foundation] {R : World → World → Prop} {own : Token → Prop} [hframe : Frame R own]

include hframe

instance runKnownFilePair_frame (pair : Move) : Keeps R (runKnownFilePairs [pair]) :=
  hframe.pairs _ (by simp)

instance runKnownFilePairs_frame (first second : Move) :
    Keeps R (runKnownFilePairs [first, second]) := hframe.pairs _ (by simp)

instance writeKnownIncoming_frame (data : Bytes) : Keeps R (writeKnownIncoming data) := by
  have hopen : ∀ journal : { journal : Journal // own journal.token },
      Keeps R (afcOpenForWriting (incomingPath journal.1.token)) := fun _ => afcOpenForWriting_slot
  have hchunks : ∀ (journal : { journal : Journal // own journal.token }) fuel bytes,
      Keeps R (writeChunks (incomingPath journal.1.token) fuel bytes) := fun _ => writeChunks_slot
  unfold writeKnownIncoming
  infer_instance

instance copyKnownOriginal_frame (token : Token) [howned : Owned own token] (data : Bytes) :
    Keeps R (copyKnownOriginal token data) := by
  have hname : Owned own (LocalName.original token).token := howned
  have hwrite : Keeps R (writeNewBytes (.original token) data) :=
    writeNew_frame _ LocalName.noConfusion _ _
  unfold copyKnownOriginal
  infer_instance

instance persistKnownOriginal_frame (data : Bytes) : Keeps R (persistKnownOriginal data) := by
  unfold persistKnownOriginal
  infer_instance

instance returnKnownOriginal_frame (requireDestinationAbsent : Bool) :
    Keeps R (returnKnownOriginal requireDestinationAbsent) := by
  unfold returnKnownOriginal
  infer_instance

instance returnKnownReplacement_frame : Keeps R returnKnownReplacement := by
  unfold returnKnownReplacement
  infer_instance

omit hframe in
instance preflight_looks (found : Except Failure (Option FileInfo)) :
    Keeps Looks (preflight found) := by
  unfold preflight
  cases found <;> infer_instance

instance observeKnownOriginal_frame : Keeps R observeKnownOriginal := by
  unfold observeKnownOriginal
  infer_instance

instance publishKnownManifestForBatch_frame (batch : Bool) :
    Keeps R (publishKnownManifestForBatch batch) := by
  have hmanifest : ∀ manifest, Keeps R (updateJournal fun journal =>
      { journal with fileManifest := some manifest }) := fun _ => hframe.change _ fun _ => rfl
  unfold publishKnownManifestForBatch
  infer_instance

instance keepUnexpectedReadBack_frame (token : Token) (target : AppPath) :
    Keeps R (keepUnexpectedReadBack token target) := by
  unfold keepUnexpectedReadBack
  infer_instance

instance readBackInterruptedReplacement_frame : Keeps R readBackInterruptedReplacement := by
  unfold readBackInterruptedReplacement
  infer_instance

instance placePreparedReplacementData_frame (data : Bytes) :
    Keeps R (placePreparedReplacementData data) := by
  unfold placePreparedReplacementData
  infer_instance

instance placeNewFile_frame (data : Bytes) (limit : ℕ) : Keeps R (placeNewFile data limit) := by
  unfold placeNewFile
  infer_instance

theorem updateSession_frame {change : Session → Session}
    (hdirect : ∀ session, (change session).directWriteActive = session.directWriteActive)
    (hjournal : ∀ session, (change session).journal = session.journal) :
    Keeps R (updateSession change) := hframe.report change hdirect fun session => Or.inl (hjournal session)

instance publishDeleteReceipt_frame : Keeps R publishDeleteReceipt := by
  have hwrite : ∀ (journal : { journal : Journal // own journal.token }) (file : KnownFile),
      Keeps R (writeDeleteReceipt (deleteReceipt journal.1 file)) := by
    intro journal file
    have hname : Owned own (LocalName.deleted (deleteReceipt journal.1 file).token).token :=
      ⟨journal.2⟩
    have hnew : Keeps R (writeNew (.deleted (deleteReceipt journal.1 file).token)
        (.deleteReceipt (deleteReceipt journal.1 file)) fun _ => .bytes []) :=
      writeNew_frame _ LocalName.noConfusion _ _
    unfold writeDeleteReceipt
    infer_instance
  have hsession : ∀ (token : Token) (absent : Bool), Keeps R (updateSession fun session =>
      { session with
        deletedFileBackup := some token
        deletionAbsenceConfirmed := absent }) :=
    fun _ _ => updateSession_frame (fun _ => rfl) fun _ => rfl
  unfold publishDeleteReceipt
  infer_instance

instance loadLatestDeletedBackup_frame : Keeps R loadLatestDeletedBackup := by
  have hsession : ∀ (token : Option Token) (absent : Bool), Keeps R (updateSession fun session =>
      { session with
        deletedFileBackup := token
        deletionAbsenceConfirmed := absent }) :=
    fun _ _ => updateSession_frame (fun _ => rfl) fun _ => rfl
  unfold loadLatestDeletedBackup
  refine Keeps.bind inferInstance fun _ => Keeps.bind inferInstance fun w =>
    Keeps.bind ?_ fun latest => ?_
  · refine Keeps.foldlM_inst (h := fun latest token => Keeps.bind inferInstance fun found => ?_)
    split <;> infer_instance
  · cases latest <;> infer_instance

end KnownFile

end XitForge.Directory
