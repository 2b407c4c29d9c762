import XitForge.Directory.Looks

/-!
The part of the code that stays clear of the app file: it works on Books, on the
generated link and on its own directories. App containers, the three file slots
of every transaction and the local records are left alone, and what it writes to
`active.plist` is the journal in memory with the same token and file record.
-/
namespace XitForge.Directory

open Program Program.Prog Foundation

-- an instance for a program repeats the rest of the program at each of its steps
set_option synthInstance.maxSize 10000000

/-- The places a transaction moves the app file and its replacement through. -/
def isSlot : Path → Bool
  | [.state _, .fileOriginal] | [.state _, .fileIncoming] | [.state _, .fileVerify] => true
  | _ => false

/-- The local files that outlive a transaction. -/
def LocalName.isRecord : LocalName → Bool
  | .original _ | .deleted _ | .fileReceipt _ | .retained _ => true
  | _ => false

/-- What of a journal belongs to the app file. -/
def Journal.core (journal : Journal) : Token × AppPath × Option KnownFile :=
  (journal.token, journal.tail, journal.knownFile)

/-- The fields of the object that report on an operation. -/
def Session.report (session : Session) : Session :=
  { session with journal := none, deviceID := [], afcOpen := false, atcMoveAttempted := false }

def Event.ofCalm (session : Session) : Event → Prop
  | .answered _ _ | .listed _ | .opened | .received _ _ | .appeared _ _ => True
  | .fileComplete asset destination | .moved asset destination _ =>
    ∃ token, asset = .stagedLink token ∧ destination = linkPath token
  | .unlinked path _ _ _ => isSlot path = false
  | .wrote name stored => ∃ journal, session.journal.map Journal.core = some journal.core ∧
      stored = .journal journal ∧
      ((name = .active ∧ session.directWriteActive = false) ∨ ∃ token, name = .direct token)
  | .began _ _ _ => False

structure Calm (w w' : World) : Prop where
  slots : ∀ path, isSlot path = true → w'.device.media.lookup path = w.device.media.lookup path
  records : ∀ name, name.isRecord = true → w'.disk.lookup name = w.disk.lookup name
  active : w'.disk.lookup .active = w.disk.lookup .active ∨
    ∃ journal, w.session.directWriteActive = false ∧
      w.session.journal.map Journal.core = some journal.core ∧
      w'.disk.lookup .active = some (.journal journal)
  journal : w'.session.journal.map Journal.core = w.session.journal.map Journal.core
  report : w'.session.report = w.session.report
  trace : ∃ events, w'.trace = w.trace ++ events ∧ (∀ event ∈ events, event.ofCalm w.session) ∧
    (Alone events → w'.device.app = w.device.app)

theorem Session.direct_of_report {session session' : Session}
    (h : session'.report = session.report) :
    session'.directWriteActive = session.directWriteActive := by
  have hdirect := congrArg Session.directWriteActive h
  exact hdirect

theorem Calm.direct {w w' : World} (h : Calm w w') :
    w'.session.directWriteActive = w.session.directWriteActive :=
  Session.direct_of_report h.report

theorem Event.ofCalm_congr {session session' : Session} {event : Event}
    (hjournal : session'.journal.map Journal.core = session.journal.map Journal.core)
    (hreport : session'.report = session.report) (h : event.ofCalm session') :
    event.ofCalm session := by
  have hdirect : session'.directWriteActive = session.directWriteActive :=
    Session.direct_of_report hreport
  cases event <;> simp only [Event.ofCalm, hjournal, hdirect] at h ⊢ <;> exact h

theorem Calm.refl (w : World) : Calm w w :=
  ⟨fun _ _ => rfl, fun _ _ => rfl, Or.inl rfl, rfl, rfl, [], by simp, by simp, fun _ => rfl⟩

theorem Calm.trans {w w' w'' : World} (h : Calm w w') (h' : Calm w' w'') : Calm w w'' := by
  obtain ⟨events, htrace, hevents, happ⟩ := h.trace
  obtain ⟨later, htrace', hlater, happ'⟩ := h'.trace
  have hactive := h'.active
  rw [h.journal, h.direct] at hactive
  refine ⟨fun path hslot => (h'.slots path hslot).trans (h.slots path hslot),
    fun name hrecord => (h'.records name hrecord).trans (h.records name hrecord), ?_,
    h'.journal.trans h.journal, h'.report.trans h.report, events ++ later,
    by rw [htrace', htrace, List.append_assoc], ?_, ?_⟩
  · rcases hactive with hsame | hsaved
    · rw [hsame]
      exact h.active
    · exact Or.inr hsaved
  · intro event hevent
    rcases List.mem_append.mp hevent with hevent | hevent
    · exact hevents event hevent
    · exact Event.ofCalm_congr h.journal h.report (hlater event hevent)
  · intro halone
    obtain ⟨hfirst, hsecond⟩ := alone_append.mp halone
    rw [happ' hsecond, happ hfirst]

instance : IsPreorder World Calm where
  refl := Calm.refl
  trans _ _ _ := Calm.trans

theorem Looks.calm {w w' : World} (h : Looks w w') : Calm w w' := by
  obtain ⟨events, htrace, hevents, halone⟩ := h.trace
  obtain ⟨app, hdevice⟩ := h.device
  have hrecords : ∀ name, name ≠ activeName w.session →
      w'.disk.lookup name = w.disk.lookup name := by
    intro name hname
    rcases h.disk with hsame | ⟨journal, -, hsaved⟩
    · rw [hsame]
    · rw [hsaved, AList.lookup_insert_ne hname]
  have hname : activeName w.session = .active ∧ w.session.directWriteActive = false ∨
      ∃ token, activeName w.session = .direct token := by
    unfold activeName
    split
    · exact Or.inr ⟨_, rfl⟩
    · exact Or.inr ⟨_, rfl⟩
    · exact Or.inl ⟨rfl, ‹_›⟩
  refine ⟨fun _ _ => by rw [hdevice], fun name hrecord => hrecords name ?_, ?_,
    by rw [h.session], by rw [h.session], events, htrace, fun event hevent => ?_,
    fun hall => by rw [halone hall]⟩
  · intro hsame'
    subst hsame'
    rcases hname with ⟨heq, -⟩ | ⟨token, heq⟩ <;> rw [heq] at hrecord <;> cases hrecord
  · rcases hname with ⟨heq, hdirect⟩ | ⟨token, heq⟩
    · rcases h.disk with hsame | ⟨journal, hjournal, hsaved⟩
      · exact Or.inl (by rw [hsame])
      · refine Or.inr ⟨journal, hdirect, by rw [hjournal]; rfl, ?_⟩
        rw [hsaved, heq, AList.lookup_insert]
    · exact Or.inl (hrecords _ (by rw [heq]; exact LocalName.noConfusion))
  · have hlook := hevents event hevent
    cases event with
    | wrote name stored =>
      obtain ⟨journal, hjournal, rfl, rfl⟩ := hlook
      exact ⟨journal, by rw [hjournal]; rfl, rfl, hname⟩
    | answered path answer => exact trivial
    | listed path => exact trivial
    | began token target content => exact hlook.elim
    | opened => exact hlook.elim
    | received wanted message => exact hlook.elim
    | fileComplete asset destination => exact hlook.elim
    | moved asset destination replaced => exact hlook.elim
    | appeared path entry => exact trivial
    | unlinked path found journal snapshot => exact hlook.elim

instance (priority := low) calm_of_looks {α : Type} {m : M α} [hm : Keeps Looks m] : Keeps Calm m :=
  hm.mono fun _ _ => Looks.calm

theorem Calm.tick (w : World) : Calm w w.tick := (Looks.tick w).calm

section Device

/-- What a calm step may make of the device. -/
def Device.CalmTo (device device' : Device) : Prop :=
  device'.app = device.app ∧
    ∀ path, isSlot path = true → device'.media.lookup path = device.media.lookup path

theorem Device.CalmTo.refl (device : Device) : device.CalmTo device := ⟨rfl, fun _ _ => rfl⟩

theorem Device.CalmTo.trans {first second third : Device} (h : first.CalmTo second)
    (h' : second.CalmTo third) : first.CalmTo third :=
  ⟨h'.1.trans h.1, fun path hslot => (h'.2 path hslot).trans (h.2 path hslot)⟩

theorem Calm.withDevice {w : World} {device : Device} (h : w.device.CalmTo device) :
    Calm w (w.withDevice device) :=
  ⟨h.2, fun _ _ => rfl, Or.inl rfl, rfl, rfl, [], (List.append_nil _).symm, by simp, fun _ => h.1⟩

/-- A path that is no slot and stands in none. -/
class CalmPath (path : Path) : Prop where
  self : isSlot path = false
  parent : isSlot path.dropLast = false

/-- A directory below which all paths are calm. -/
class CalmRoot (root : Path) : Prop where
  below : ∀ path, CalmPath (root ++ path)

instance calmPath_root {root : Path} [h : CalmRoot root] : CalmPath root := by
  simpa using h.below []

instance calmPath_below {root path : Path} [h : CalmRoot root] : CalmPath (root ++ path) :=
  h.below path

instance calmRoot_below {root path : Path} [h : CalmRoot root] : CalmRoot (root ++ path) :=
  ⟨fun rest => by simpa using h.below (path ++ rest)⟩

theorem isSlot_eq_false_of_head {name : Name} {path : Path} (h : ∀ token, name ≠ .state token) :
    isSlot (name :: path) = false := by
  cases name <;> first | rfl | exact absurd rfl (h _)

theorem calmRoot_of_head {name : Name} {path : Path} (h : ∀ token, name ≠ .state token) :
    CalmRoot (name :: path) := by
  refine ⟨fun rest => ⟨isSlot_eq_false_of_head h, ?_⟩⟩
  rw [List.cons_append]
  cases hrest : path ++ rest with
  | nil => rfl
  | cons second more =>
    rw [List.dropLast_cons_cons]
    exact isSlot_eq_false_of_head h

instance calmRoot_books : CalmRoot booksPath := calmRoot_of_head (by simp)

instance calmRoot_booksSync : CalmRoot booksSyncPath := calmRoot_of_head (by simp)

instance calmRoot_booksManifest : CalmRoot booksManifestPath := calmRoot_of_head (by simp)

instance calmRoot_booksMarker : CalmRoot booksMarkerPath := calmRoot_of_head (by simp)

instance calmRoot_airlock (path : Path) : CalmRoot (.airlock :: path) := calmRoot_of_head (by simp)

instance calmRoot_source (token : Token) : CalmRoot (sourcePath token) := calmRoot_of_head (by simp)

instance calmRoot_link (token : Token) : CalmRoot (linkPath token) := calmRoot_of_head (by simp)

instance calmRoot_stagedLink (token : Token) : CalmRoot (stagedLinkPath token) :=
  calmRoot_of_head (by simp)

instance calmRoot_zipMetadata (token : Token) : CalmRoot (zipMetadataPath token) :=
  calmRoot_of_head (by simp)

instance calmRoot_payload (token : Token) : CalmRoot (payloadPath token) :=
  calmRoot_of_head (by simp)

theorem calmRoot_of_state {token : Token} {name : Name} (h : isSlot [.state token, name] = false) :
    CalmRoot [.state token, name] := by
  refine ⟨fun rest => ?_⟩
  match rest with
  | [] => exact ⟨h, rfl⟩
  | [last] =>
    refine ⟨?_, h⟩
    cases name <;> rfl
  | last :: second :: more =>
    constructor
    · cases name <;> rfl
    · cases name <;> cases more <;> rfl

instance calmRoot_working (token : Token) : CalmRoot (workingPath token) := calmRoot_of_state rfl

instance calmRoot_temporary (token : Token) : CalmRoot (temporaryPath token) := calmRoot_of_state rfl

instance calmRoot_owner (token : Token) : CalmRoot (ownerPath token) := calmRoot_of_state rfl

instance calmPath_backup (token : Token) : CalmPath (backupPath token) := ⟨rfl, rfl⟩

variable {device device' : Device} {now : ℕ} {path : Path}

/-- A change of one entry and of the date of its parent is calm at a calm path. -/
theorem calm_lookup [hpath : CalmPath path] {media media' : Media} {value : Option Entry}
    (h : ∀ other, media'.lookup other = if other = path then value
      else if other = path.dropLast then (media.lookup other).map (Inode.touch now)
      else media.lookup other) (other : Path) (hslot : isSlot other = true) :
    media'.lookup other = media.lookup other := by
  have hself : other ≠ path := by
    intro heq
    subst heq
    rw [hpath.self] at hslot
    cases hslot
  have hparent : other ≠ path.dropLast := by
    intro heq
    subst heq
    rw [hpath.parent] at hslot
    cases hslot
  rw [h, if_neg hself, if_neg hparent]

theorem putAt_calm [CalmPath path] {entry : Entry}
    (h : device.putAt now entry (.media path) = some device') : device.CalmTo device' := by
  obtain ⟨media, hmedia, rfl⟩ := Option.map_eq_some_iff.mp h
  exact ⟨rfl, calm_lookup (FileTree.lookup_place hmedia)⟩

theorem dropAt_calm [CalmPath path] (h : device.dropAt now (.media path) = some device') :
    device.CalmTo device' := by
  obtain ⟨media, hmedia, rfl⟩ := Option.map_eq_some_iff.mp h
  exact ⟨rfl, calm_lookup (FileTree.lookup_remove hmedia)⟩

theorem rewrite_calm [hpath : CalmPath path] {media media' : Media} {entry : Entry}
    (h : media.rewrite path entry = some media') (other : Path) (hslot : isSlot other = true) :
    media'.lookup other = media.lookup other := by
  have hself : other ≠ path := by
    intro heq
    subst heq
    rw [hpath.self] at hslot
    cases hslot
  rw [FileTree.lookup_rewrite h, if_neg hself]

theorem makeDirectory_calm [CalmPath path] (h : device.makeDirectory now path = some device') :
    device.CalmTo device' := by
  unfold Device.makeDirectory at h
  split at h
  · cases h
  · exact putAt_calm h

theorem openForWriting_calm [CalmPath path] (h : device.openForWriting now path = some device') :
    device.CalmTo device' := by
  unfold Device.openForWriting at h
  split at h
  · exact putAt_calm h
  · split at h
    · obtain ⟨media, hmedia, rfl⟩ := Option.map_eq_some_iff.mp h
      exact ⟨rfl, rewrite_calm hmedia⟩
    · cases h

theorem appendBytes_calm [CalmPath path] {bytes : Bytes}
    (h : device.appendBytes now path bytes = some device') : device.CalmTo device' := by
  unfold Device.appendBytes at h
  split at h
  · obtain ⟨media, hmedia, rfl⟩ := Option.map_eq_some_iff.mp h
    exact ⟨rfl, rewrite_calm hmedia⟩
  · cases h

theorem extract_calm [CalmRoot path] (archive : Archive) :
    ∀ device : Device, device.CalmTo (device.extract now path archive) := by
  induction archive with
  | nil => exact fun device => Device.CalmTo.refl device
  | cons entry rest ih =>
    intro device
    refine Device.CalmTo.trans ?_ (ih _)
    cases hput : device.putAt now ⟨entry.node, now, now⟩ (.media (path ++ entry.path)) with
    | none => exact Device.CalmTo.refl device
    | some placed => exact putAt_calm hput

/-- The move of the generated link out of the archive. -/
theorem move_link_calm (token : Token) :
    device.CalmTo (device.move now (.stagedLink token) (linkPath token)) := by
  unfold Device.move
  dsimp only
  split
  · rename_i entry target _ htarget
    have htarget : target = .media (linkPath token) := (Option.some.inj htarget).symm
    subst htarget
    split
    · exact Device.CalmTo.refl device
    · split
      · exact Device.CalmTo.refl device
      · rename_i taken htaken
        have htaken : device.CalmTo taken := dropAt_calm htaken
        cases hput : taken.putAt now entry (.media (linkPath token)) with
        | none => exact Device.CalmTo.refl device
        | some placed => exact htaken.trans (putAt_calm hput)
  · exact Device.CalmTo.refl device

end Device

section Steps

theorem actPartly_calm {whole : World → Except Failure World} {partly : Choice → World → World}
    (hwhole : ∀ w w', whole w = .ok w' → Calm w w') (hpartly : ∀ c w, Calm w (partly c w)) :
    Keeps Calm (actPartly whole partly) := by
  constructor
  intro w
  have hleft : Calm w (if w.choice.effect then partly w.choice w.tick else w.tick) := by
    split
    · exact (Calm.tick w).trans (hpartly _ _)
    · exact Calm.tick w
  unfold actPartly
  dsimp only
  split
  · exact hleft
  · split
    · exact hleft
    · split
      · exact (Calm.tick w).trans (hwhole _ _ ‹_›)
      · exact Calm.tick w

theorem act_calm {whole : World → Except Failure World}
    (hwhole : ∀ w w', whole w = .ok w' → Calm w w') : Keeps Calm (act whole) := by
  refine actPartly_calm hwhole fun _ w => ?_
  cases hend : whole w with
  | ok w' => exact hwhole w w' hend
  | error failure => exact Calm.refl w

/-- A step on the device that is calm when it can be made. -/
theorem act_device_calm {change : World → Option Device} {failure : Failure}
    (hchange : ∀ w device, change w = some device → w.device.CalmTo device) :
    Keeps Calm (act fun w =>
      match change w with
      | some device => .ok (w.withDevice device)
      | none => .error failure) := by
  refine act_calm fun w w' h => ?_
  split at h
  · cases h
    exact Calm.withDevice (hchange w _ ‹_›)
  · cases h

theorem updateSession_calm {change : Session → Session}
    (hjournal : ∀ session, (change session).journal = session.journal)
    (hreport : ∀ session, (change session).report = session.report) :
    Keeps Calm (updateSession change) :=
  ⟨fun w => ⟨fun _ _ => rfl, fun _ _ => rfl, Or.inl rfl,
    by rw [show (updateSession change w).2.session = change w.session from rfl, hjournal],
    hreport w.session, [], (List.append_nil _).symm, by simp, fun _ => rfl⟩⟩

theorem updateJournal_calm {change : Journal → Journal}
    (hcore : ∀ journal, (change journal).core = journal.core) :
    Keeps Calm (updateJournal change) := by
  refine ⟨fun w => ⟨fun _ _ => rfl, fun _ _ => rfl, Or.inl rfl, ?_, rfl, [],
    (List.append_nil _).symm, by simp, fun _ => rfl⟩⟩
  show (w.session.journal.map change).map Journal.core = _
  cases w.session.journal with
  | none => rfl
  | some journal => exact congrArg some (hcore journal)

instance markMoveAttempted_calm (attempted : Bool) : Keeps Calm (markMoveAttempted attempted) :=
  updateSession_calm (fun _ => rfl) fun _ => rfl

instance closeAFC_calm : Keeps Calm closeAFC := updateSession_calm (fun _ => rfl) fun _ => rfl

theorem Calm.withSession {w : World} {session : Session}
    (hjournal : session.journal = w.session.journal) (hreport : session.report = w.session.report) :
    Calm w (w.withSession session) :=
  ⟨fun _ _ => rfl, fun _ _ => rfl, Or.inl rfl, by rw [← hjournal]; rfl, hreport, [],
    (List.append_nil _).symm, by simp, fun _ => rfl⟩

instance openAFC_calm : Keeps Calm openAFC := by
  have hopen : Keeps Calm (act fun w =>
      .ok (w.withSession { w.session with afcOpen := true })) := by
    refine act_calm fun w w' h => ?_
    cases h
    exact Calm.withSession rfl rfl
  have hdevice : ∀ uuid, Keeps Calm (updateSession fun session =>
      { session with deviceID := uuid }) :=
    fun uuid => updateSession_calm (fun _ => rfl) fun _ => rfl
  unfold openAFC
  infer_instance

theorem Calm.withStream (w : World) (stream : List Command) : Calm w (w.withStream stream) :=
  ⟨fun _ _ => rfl, fun _ _ => rfl, Or.inl rfl, rfl, rfl, [], (List.append_nil _).symm,
    by simp, fun _ => rfl⟩

theorem Calm.log {w : World} {event : Event} (h : event.ofCalm w.session) : Calm w (w.log event) :=
  ⟨fun _ _ => rfl, fun _ _ => rfl, Or.inl rfl, rfl, rfl, [event], rfl,
    by simpa using h, fun _ => rfl⟩

theorem record_calm {event : Event} (h : ∀ session, event.ofCalm session) :
    Keeps Calm (record event) := ⟨fun _ => Calm.log (h _)⟩

instance send_calm (command : Command) : Keeps Calm (send command) := by
  refine act_calm fun w w' h => ?_
  cases h
  exact Calm.withStream _ _

instance connectATC_calm : Keeps Calm connectATC := by
  refine act_calm fun w w' h => ?_
  cases h
  exact (Calm.withStream w []).trans (Calm.log trivial)

theorem Calm.withDisk {w : World} {disk : Disk}
    (h : ∀ name, name = .active ∨ name.isRecord = true → disk.lookup name = w.disk.lookup name) :
    Calm w (w.withDisk disk) :=
  ⟨fun _ _ => rfl, fun name hrecord => h name (Or.inr hrecord), Or.inl (h _ (Or.inl rfl)), rfl,
    rfl, [], (List.append_nil _).symm, by simp, fun _ => rfl⟩

theorem Calm.insert {w : World} {name : LocalName} {stored : Stored} (hactive : name ≠ .active)
    (hrecord : name.isRecord = false) : Calm w (w.withDisk (w.disk.insert name stored)) := by
  refine Calm.withDisk fun other hother => AList.lookup_insert_ne ?_
  intro heq
  subst heq
  rcases hother with rfl | hother
  · exact hactive rfl
  · rw [hother] at hrecord
    cases hrecord

theorem writeNewBytes_calm {name : LocalName} (hactive : name ≠ .active)
    (hrecord : name.isRecord = false) (bytes : Bytes) : Keeps Calm (writeNewBytes name bytes) := by
  unfold writeNewBytes writeNew
  refine actPartly_calm (fun w w' h => ?_) fun c w => ?_
  · split at h
    · cases h
    · cases h
      exact Calm.insert hactive hrecord
  · split
    · exact Calm.refl w
    · exact Calm.insert hactive hrecord

instance writePreimage_calm (token : Token) (index : ℕ) (bytes : Bytes) :
    Keeps Calm (writeNewBytes (.preimage token index) bytes) :=
  writeNewBytes_calm LocalName.noConfusion rfl bytes

instance writeSyncChange_calm (token uuid : Token) (bytes : Bytes) :
    Keeps Calm (writeNewBytes (.syncChange token uuid) bytes) :=
  writeNewBytes_calm LocalName.noConfusion rfl bytes

instance writeLegacyLeaf_calm (token : Token) (path : Path) (bytes : Bytes) :
    Keeps Calm (writeNewBytes (.legacyLeaf token path) bytes) :=
  writeNewBytes_calm LocalName.noConfusion rfl bytes

instance freshUUID_calm : Keeps Calm freshUUID :=
  ⟨fun _ => ⟨fun _ _ => rfl, fun _ _ => rfl, Or.inl rfl, rfl, rfl, [],
    (List.append_nil _).symm, by simp, fun _ => rfl⟩⟩

end Steps

section Afc

variable {path : Path}

instance afcOpenForWriting_calm [CalmPath path] : Keeps Calm (afcOpenForWriting path) :=
  act_device_calm fun _ _ => openForWriting_calm

instance afcFileWrite_calm [CalmPath path] (bytes : Bytes) : Keeps Calm (afcFileWrite path bytes) := by
  refine actPartly_calm (fun w w' h => ?_) fun c w => ?_
  · split at h
    · cases h
      exact Calm.withDevice (appendBytes_calm ‹_›)
    · cases h
  · split
    · exact Calm.withDevice (appendBytes_calm ‹_›)
    · exact Calm.refl w

instance afcWriteFile_calm [CalmPath path] (bytes : Bytes) : Keeps Calm (afcWriteFile path bytes) := by
  unfold afcWriteFile
  infer_instance

instance afcMakeDirectory_calm [CalmPath path] : Keeps Calm (afcMakeDirectory path) :=
  act_device_calm fun _ _ => makeDirectory_calm

instance afcRemovePath_calm [hpath : CalmPath path] : Keeps Calm (afcRemovePath path) := by
  have hlog : Keeps Calm (modify fun w : World =>
      w.log (.unlinked path (w.nodeAt path) w.session.journal w.snapshot) : M Unit) :=
    ⟨fun _ => Calm.log hpath.self⟩
  have hremove : Keeps Calm (act fun w =>
      match w.device.removePath w.pos path with
      | some device => .ok (w.withDevice device)
      | none => .error silent) := act_device_calm fun _ _ => dropAt_calm
  unfold afcRemovePath
  infer_instance

instance removeOwned_calm [CalmPath path] (kind : Kind) : Keeps Calm (removeOwned path kind) := by
  unfold removeOwned
  refine Keeps.bind inferInstance fun found => ?_
  cases found <;> infer_instance

instance setMkdirOwnership_calm (ownership : Ownership) :
    Keeps Calm (setMkdirOwnership path ownership) :=
  updateJournal_calm fun journal => by split <;> rfl

instance makeOwnedDirectory_calm [CalmPath path] : Keeps Calm (makeOwnedDirectory path) := by
  unfold makeOwnedDirectory
  refine Keeps.bind inferInstance fun found => ?_
  cases found <;> dsimp only <;> infer_instance

instance writeOwned_calm [CalmPath path] (bytes : Bytes) : Keeps Calm (writeOwned bytes path) := by
  unfold writeOwned
  infer_instance

end Afc

section Books

variable [Foundation]

theorem snapshotTracked_calm (token : Token) :
    ∀ paths index total, Keeps Calm (snapshotTracked token paths index total)
  | [], _, _ => by
    unfold snapshotTracked
    infer_instance
  | path :: rest, index, total => by
    have ih := snapshotTracked_calm token rest
    unfold snapshotTracked
    refine Keeps.bind inferInstance fun found => ?_
    cases found <;> infer_instance

instance snapshotBooks_calm : Keeps Calm snapshotBooks := by
  have hrows := snapshotTracked_calm
  have hroot : ∀ root : Option FileInfo, Keeps Calm (updateJournal fun journal =>
      { journal with
        booksOriginallyPresent := some root.isSome
        booksOriginalInfo := some root }) := fun _ => updateJournal_calm fun _ => rfl
  have hset : ∀ rows, Keeps Calm (updateJournal fun journal =>
      { journal with trackedPreimage := some rows }) := fun _ => updateJournal_calm fun _ => rfl
  unfold snapshotBooks
  infer_instance

instance writeBooksBytes_calm {path : Path} [CalmPath path] (bytes : Bytes) :
    Keeps Calm (writeBooksBytes bytes path) := by
  unfold writeBooksBytes
  infer_instance

instance beginBooksInPlace_calm : Keeps Calm beginBooksInPlace := by
  have hplace : Keeps Calm (updateJournal fun journal => { journal with booksInPlace := true }) :=
    updateJournal_calm fun _ => rfl
  have hsync : Keeps Calm (updateJournal fun journal =>
      { journal with inPlaceSyncCreated := true }) := updateJournal_calm fun _ => rfl
  unfold beginBooksInPlace
  infer_instance

instance isolateBooks_calm : Keeps Calm isolateBooks := by
  unfold isolateBooks
  infer_instance

instance installWorkingBooks_calm : Keeps Calm installWorkingBooks := by
  have hstarted : Keeps Calm (updateJournal fun journal =>
      { journal with inPlaceManifestWriteStarted := true }) := updateJournal_calm fun _ => rfl
  unfold installWorkingBooks
  infer_instance

instance keepSyncChange_calm (token : Token) (current : Option Bytes) :
    Keeps Calm (keepSyncChange token current) := by
  unfold keepSyncChange
  cases current <;> infer_instance

instance restoreTracked_calm (token : Token) (index : ℕ) (path : Path) [CalmPath path]
    (row : TrackedRow) : Keeps Calm (restoreTracked token index path row) := by
  unfold restoreTracked
  refine Keeps.bind inferInstance fun original => Keeps.bind inferInstance fun found =>
    Keeps.bind inferInstance fun _ => Keeps.bind inferInstance fun current => ?_
  cases original <;> infer_instance

theorem restoreTrackedRows_calm (token : Token) :
    ∀ rows index, (∀ row ∈ rows, CalmPath row.1) → Keeps Calm (restoreTrackedRows token rows index)
  | [], _, _ => by
    unfold restoreTrackedRows
    infer_instance
  | (path, row) :: rest, index, hrows => by
    have hpath : CalmPath path := hrows (path, row) (List.mem_cons_self ..)
    have ih := restoreTrackedRows_calm token rest (index + 1) fun other hother =>
      hrows other (List.mem_cons_of_mem _ hother)
    unfold restoreTrackedRows
    infer_instance

omit [Foundation] in
theorem calmPath_tracked (path : Path) (h : path ∈ xfatcTrackedFiles) : CalmPath path := by
  obtain ⟨tail, -, rfl⟩ := List.mem_map.mp h
  exact calmPath_below

instance removeIfEmpty_calm (path : Path) [CalmPath path] : Keeps Calm (removeIfEmpty path) := by
  unfold removeIfEmpty
  infer_instance

instance restoreBooksInPlace_calm : Keeps Calm restoreBooksInPlace := by
  have hrows : ∀ (token : Token) (rows : List TrackedRow), Keeps Calm
      (restoreTrackedRows token (xfatcTrackedFiles.zip rows) 0) := fun token rows =>
    restoreTrackedRows_calm token _ 0 fun row hrow => calmPath_tracked _ (List.of_mem_zip hrow).1
  have hrestored : Keeps Calm (updateJournal fun journal =>
      { journal with booksRestored := true }) := updateJournal_calm fun _ => rfl
  unfold restoreBooksInPlace
  infer_instance

instance cleanManifest_calm (file : Path) [CalmPath file] : Keeps Calm (cleanManifest file) := by
  unfold cleanManifest
  refine Keeps.bind inferInstance fun found => ?_
  cases found <;> infer_instance

instance cleanTemporarySync_calm (sync : Path) [CalmRoot sync] :
    Keeps Calm (cleanTemporarySync sync) := by
  unfold cleanTemporarySync
  refine Keeps.bind inferInstance fun found => ?_
  cases found <;> infer_instance

instance cleanExactTemporaryBooks_calm (root : Path) [CalmRoot root] :
    Keeps Calm (cleanExactTemporaryBooks root) := by
  unfold cleanExactTemporaryBooks
  refine Keeps.bind inferInstance fun found => ?_
  cases found <;> infer_instance

end Books

section Legacy

variable [Foundation]

instance legacyBooksSave_calm : Keeps Calm legacyBooksSave := by
  unfold legacyBooksSave
  infer_instance

instance updateLegacy_calm (change : LegacyRecord → LegacyRecord) :
    Keeps Calm (updateLegacy change) := updateJournal_calm fun _ => rfl

instance legacyBooksLocalBytes_looks (token : Token) (row : LegacyRow) :
    Keeps Looks (legacyBooksLocalBytes token row) := by
  unfold legacyBooksLocalBytes
  infer_instance

instance legacyBooksKeep_calm (token : Token) (row : LegacyRow) (bytes : Bytes) :
    Keeps Calm (legacyBooksKeep token row bytes) := by
  unfold legacyBooksKeep legacyBooksCopyLeaf
  infer_instance

theorem legacyBooksCollectSource_calm (token : Token) (root : Path) :
    ∀ fuel relative acc, Keeps Calm (legacyBooksCollectSource token root fuel relative acc)
  | 0, _, _ => by
    unfold legacyBooksCollectSource
    infer_instance
  | fuel + 1, relative, (entries, total) => by
    have ih := legacyBooksCollectSource_calm token root fuel
    unfold legacyBooksCollectSource
    refine Keeps.bind inferInstance fun _ => Keeps.bind inferInstance fun found =>
      Keeps.bind inferInstance fun row => ?_
    split <;> infer_instance

theorem legacyBooksVerifyTree_looks (root : Path) (entries : List LegacyRow)
    (source ignoreMarker : Bool) :
    ∀ fuel relative seen,
      Keeps Looks (legacyBooksVerifyTree root entries source ignoreMarker fuel relative seen)
  | 0, _, _ => by
    unfold legacyBooksVerifyTree
    infer_instance
  | fuel + 1, relative, seen => by
    have ih := legacyBooksVerifyTree_looks root entries source ignoreMarker fuel
    unfold legacyBooksVerifyTree
    refine Keeps.bind inferInstance fun row => Keeps.bind inferInstance fun found =>
      Keeps.bind inferInstance fun now => Keeps.bind inferInstance fun _ => ?_
    split <;> infer_instance

instance legacyBooksVerifyRoot_looks (root : Path) (entries : List LegacyRow)
    (source complete ignoreMarker : Bool) :
    Keeps Looks (legacyBooksVerifyRoot root entries source complete ignoreMarker) := by
  have htree := legacyBooksVerifyTree_looks
  unfold legacyBooksVerifyRoot
  infer_instance

instance legacyBooksTemporaryExact_looks : Keeps Looks legacyBooksTemporaryExact := by
  unfold legacyBooksTemporaryExact
  refine Keeps.bind inferInstance fun _ => Keeps.bind inferInstance fun _ =>
    Keeps.bind inferInstance fun _ => Keeps.bind inferInstance fun sync => ?_
  cases sync <;> infer_instance

instance legacyBooksSnapshot_calm (token : Token) (source : Path) :
    Keeps Calm (legacyBooksSnapshot token source) := by
  have hcollect := legacyBooksCollectSource_calm
  have hdirectory : Keeps Calm (act fun w =>
      .ok (w.withDisk (w.disk.insert (.legacyBooks token) .directory))) := by
    refine act_calm fun w w' h => ?_
    cases h
    exact Calm.insert LocalName.noConfusion rfl
  have hcopy : ∀ entries, Keeps Calm (updateJournal fun journal =>
      { journal with
        legacyBooksCopy := some { entries := entries, treeDigest := legacyBooksTreeDigest entries } }) :=
    fun _ => updateJournal_calm fun _ => rfl
  unfold legacyBooksSnapshot
  infer_instance

instance legacyBooksEmptied_looks (record : LegacyRecord) (current : FileInfo) :
    Keeps Looks (legacyBooksEmptied record current) := by
  unfold legacyBooksEmptied
  dsimp only
  split
  · refine Keeps.bind inferInstance fun found => ?_
    cases found <;> infer_instance
  · infer_instance

instance legacyBooksClear_calm (current : FileInfo) : Keeps Calm (legacyBooksClear current) := by
  unfold legacyBooksClear
  infer_instance

instance legacyBooksCreateRoot_calm : Keeps Calm legacyBooksCreateRoot := by
  unfold legacyBooksCreateRoot
  infer_instance

instance legacyBooksMark_calm : Keeps Calm legacyBooksMark := by
  unfold legacyBooksMark
  infer_instance

instance legacyBooksRestoreRow_calm (token : Token) (row : LegacyRow) :
    Keeps Calm (legacyBooksRestoreRow token row) := by
  unfold legacyBooksRestoreRow
  infer_instance

instance legacyBooksRoot_calm (restored : Bool) (record : LegacyRecord) (found : Option FileInfo) :
    Keeps Calm (legacyBooksRoot restored record found) := by
  unfold legacyBooksRoot
  cases found <;> infer_instance

instance legacyBooksMarked_calm (restored : Bool) : Keeps Calm (legacyBooksMarked restored) := by
  unfold legacyBooksMarked
  infer_instance

instance restoreLegacyBooksCopy_calm : Keeps Calm restoreLegacyBooksCopy := by
  have hrestored : Keeps Calm (updateJournal fun journal =>
      { journal with legacyCopyRestored := some true, booksRestored := true }) :=
    updateJournal_calm fun _ => rfl
  unfold restoreLegacyBooksCopy
  infer_instance

end Legacy

section AirTraffic

variable [Foundation]

instance receive_calm (wanted : Command) : Keeps Calm (receive wanted) := by
  have hreceived : ∀ message, Keeps Calm (record (.received wanted message)) :=
    fun _ => record_calm fun _ => trivial
  unfold receive
  infer_instance

theorem waitMessages_calm (wanted : Command) :
    ∀ fuel support, Keeps Calm (waitMessages wanted fuel support)
  | 0, _ => by
    unfold waitMessages
    infer_instance
  | fuel + 1, support => by
    have ih := waitMessages_calm wanted fuel
    unfold waitMessages
    refine Keeps.bind inferInstance fun message => ?_
    split <;> infer_instance

instance waitFor_calm (wanted : Command) : Keeps Calm (waitFor wanted) := by
  have hmessages := waitMessages_calm
  unfold waitFor
  infer_instance

instance prepareSession_calm : Keeps Calm prepareSession := by
  unfold prepareSession
  infer_instance

omit [Foundation] in
instance sendLink_calm (token : Token) :
    Keeps Calm (sendFileComplete (.stagedLink token) (linkPath token)) := by
  constructor
  intro w
  have hsent : Calm w (w.tick.log (.fileComplete (.stagedLink token) (linkPath token))) :=
    (Calm.tick w).trans (Calm.log ⟨token, rfl, rfl⟩)
  have hmoved : ∀ now replaced, Calm w
      (((w.tick.log (.fileComplete (.stagedLink token) (linkPath token))).withDevice
        (w.tick.device.move now (.stagedLink token) (linkPath token))).log
          (.moved (.stagedLink token) (linkPath token) replaced)) := fun now replaced =>
    (hsent.trans (Calm.withDevice (move_link_calm token))).trans (Calm.log ⟨token, rfl, rfl⟩)
  unfold sendFileComplete
  dsimp only
  split
  · split
    · exact hmoved _ _
    · exact hsent
  · split
    · split
      · exact hmoved _ _
      · exact hsent
    · split
      · exact hsent
      · exact hmoved _ _

instance linkSession_calm (journal : Journal) : Keeps Calm (linkSession journal) := by
  unfold linkSession
  infer_instance

instance runATCOnce_calm : Keeps Calm runATCOnce := by
  have hlink := verifyLinkRounds_looks
  unfold runATCOnce
  infer_instance

omit [Foundation] in
theorem retryAttempts_keeps {R : World → World → Prop} [IsPreorder World R] {operation : M Unit}
    (hoperation : Keeps R operation) (hlooks : ∀ w w', Looks w w' → R w w')
    (hmark : ∀ attempted, Keeps R (markMoveAttempted attempted)) :
    ∀ left, Keeps R (retryAttempts operation left)
  | 0 => Keeps.fail _
  | left + 1 => by
    have ih := retryAttempts_keeps hoperation hlooks hmark left
    have hpause : Keeps R pause := pause_looks.mono hlooks
    unfold retryAttempts
    refine Keeps.bind (hmark false) fun _ => Keeps.bind inferInstance fun result => ?_
    cases result <;> infer_instance

instance runATC_calm : Keeps Calm runATC :=
  retryAttempts_keeps inferInstance (fun _ _ => Looks.calm) inferInstance 3

instance stageZip_calm (archive : Archive) : Keeps Calm (stageZip archive) := by
  have hextract : ∀ (token : Token) (entries : Archive), Keeps Calm (actPartly
      (fun w => .ok (w.withDevice (w.device.extract w.pos (sourcePath token) entries)))
      (fun c w => w.withDevice (w.device.extract w.pos (sourcePath token)
        (entries.take (c.short.getD entries.length))))) := by
    refine fun token entries => actPartly_calm (fun w w' h => ?_) fun c w => ?_
    · cases h
      exact Calm.withDevice (extract_calm entries w.device)
    · exact Calm.withDevice (extract_calm _ w.device)
  unfold stageZip
  infer_instance

end AirTraffic

section Transaction

variable [Foundation]

instance restoreBatchLinkForAutomaticRecovery_calm :
    Keeps Calm restoreBatchLinkForAutomaticRecovery := by
  unfold restoreBatchLinkForAutomaticRecovery
  refine Keeps.bind inferInstance fun journal => Keeps.bind inferInstance fun file => ?_
  split
  · infer_instance
  · refine Keeps.bind inferInstance fun found => ?_
    cases found <;> infer_instance

instance observeTarget_calm : Keeps Calm observeTarget := by
  unfold observeTarget
  refine Keeps.bind inferInstance fun _ => Keeps.bind inferInstance fun _ =>
    Keeps.bind inferInstance fun destination => Keeps.bind inferInstance fun found => ?_
  rcases found with failure | row
  · infer_instance
  · cases row <;> infer_instance

instance restoreBooks_calm : Keeps Calm restoreBooks := by
  have hrestored : Keeps Calm (updateJournal fun journal =>
      { journal with booksRestored := true }) := updateJournal_calm fun _ => rfl
  unfold restoreBooks
  infer_instance

omit [Foundation] in
theorem validateGeneratedTree_looks (allowed : List (Path × Kind)) :
    ∀ fuel path, Keeps Looks (validateGeneratedTree allowed fuel path)
  | 0, _ => by
    unfold validateGeneratedTree
    infer_instance
  | fuel + 1, path => by
    have ih := validateGeneratedTree_looks allowed fuel
    unfold validateGeneratedTree
    refine Keeps.bind inferInstance fun found => ?_
    cases found <;> infer_instance

instance removeGeneratedLink_calm (tail : AppPath) (link : Path) [CalmPath link] :
    Keeps Calm (removeGeneratedLink tail link) := by
  unfold removeGeneratedLink
  refine Keeps.bind inferInstance fun found => ?_
  cases found <;> infer_instance

instance removeZipMetadata_calm (token : Token) : Keeps Calm (removeZipMetadata token) := by
  unfold removeZipMetadata
  refine Keeps.bind inferInstance fun found => ?_
  cases found <;> infer_instance

instance removePayload_calm (token : Token) : Keeps Calm (removePayload token) := by
  unfold removePayload
  refine Keeps.bind inferInstance fun found => ?_
  cases found <;> infer_instance

instance cleanGeneratedStage_calm : Keeps Calm cleanGeneratedStage := by
  have hvalid := validateGeneratedTree_looks
  have hdirectories : ∀ (token : Token) (tail : AppPath), Keeps Calm
      (each (fun path => removeOwned path .directory)
        ((stageDirectories token tail).insertionSort removedBefore)) := by
    refine fun token tail => Keeps.each _ fun path hpath => ?_
    obtain ⟨below, -, rfl⟩ := List.mem_map.mp ((List.mem_insertionSort _).mp hpath)
    infer_instance
  unfold cleanGeneratedStage
  infer_instance

instance cleanSharedDirectory_calm (path : Path) [CalmPath path] (ownership : Option Ownership) :
    Keeps Calm (cleanSharedDirectory path ownership) := by
  unfold cleanSharedDirectory
  cases ownership with
  | none => infer_instance
  | some row =>
    refine Keeps.bind inferInstance fun found => ?_
    rcases found with failure | current
    · infer_instance
    · cases current with
      | none => infer_instance
      | some current =>
        dsimp only
        split
        · refine Keeps.bind inferInstance fun left => ?_
          split <;> infer_instance
        · infer_instance

instance cleanCreatedAirlock_calm : Keeps Calm cleanCreatedAirlock := by
  unfold cleanCreatedAirlock
  infer_instance

instance removeBackup_calm (token : Token) : Keeps Calm (removeBackup token) := by
  unfold removeBackup
  refine Keeps.bind inferInstance fun found => ?_
  rcases found with failure | row
  · infer_instance
  · cases row with
    | none => infer_instance
    | some row =>
      refine Keeps.bind inferInstance fun left => ?_
      cases left <;> infer_instance

instance cleanUp_calm (committedDelete : Bool) : Keeps Calm (cleanUp committedDelete) := by
  unfold cleanUp
  infer_instance

instance reserveNames_looks (code : ℤ) (token : Token) : Keeps Looks (reserveNames code token) := by
  unfold reserveNames
  infer_instance

instance makeBackup_calm : Keeps Calm makeBackup := by
  unfold makeBackup
  infer_instance

instance booksUnchanged_looks : Keeps Looks booksUnchanged := by
  unfold booksUnchanged
  infer_instance

instance beginIsolation_calm : Keeps Calm beginIsolation := by
  have hstarted : Keeps Calm (updateJournal fun journal =>
      { journal with booksIsolationStarted := true }) := updateJournal_calm fun _ => rfl
  unfold beginIsolation
  infer_instance

instance stageLink_calm (code : ℤ) : Keeps Calm (stageLink code) := by
  unfold stageLink
  infer_instance

instance openTransaction_calm : Keeps Calm openTransaction := by
  unfold openTransaction
  infer_instance

instance createJournalDirectory_looks : Keeps Looks createJournalDirectory := by
  unfold createJournalDirectory
  infer_instance

end Transaction

end XitForge.Directory
