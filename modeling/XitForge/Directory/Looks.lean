import XitForge.Directory.Operations

/-!
The part of the code that only looks: it asks the device and the local directory,
passes time, and may write the journal in memory down. It leaves the device and
the object as they were, and the local directory up to `active.plist`.
-/
namespace XitForge.Directory

open Program Program.Prog Foundation

/-- What a looking step leaves in the trace. -/
def Event.ofLook (session : Session) : Event → Prop
  | .answered _ _ | .listed _ | .appeared _ _ => True
  | .wrote name stored => ∃ journal, session.journal = some journal ∧
      name = activeName session ∧ stored = .journal journal
  | _ => False

/-- Something another party did. -/
def Event.isArrival : Event → Bool
  | .appeared _ _ => true
  | _ => false

/-- No other party acted. -/
def Alone (events : List Event) : Prop := ∀ event ∈ events, event.isArrival = false

theorem alone_append {first second : List Event} :
    Alone (first ++ second) ↔ Alone first ∧ Alone second := List.forall_mem_append

structure Looks (w w' : World) : Prop where
  device : ∃ app, w'.device = { w.device with app := app }
  session : w'.session = w.session
  stream : w'.stream = w.stream
  disk : w'.disk = w.disk ∨ ∃ journal, w.session.journal = some journal ∧
    w'.disk = w.disk.insert (activeName w.session) (.journal journal)
  trace : ∃ events, w'.trace = w.trace ++ events ∧ (∀ event ∈ events, event.ofLook w.session) ∧
    (Alone events → w'.device = w.device)

theorem Looks.refl (w : World) : Looks w w :=
  ⟨⟨w.device.app, rfl⟩, rfl, rfl, Or.inl rfl, [], by simp, by simp, fun _ => rfl⟩

theorem Looks.trans {w w' w'' : World} (h : Looks w w') (h' : Looks w' w'') : Looks w w'' := by
  obtain ⟨events, htrace, hevents, halone⟩ := h.trace
  obtain ⟨later, htrace', hlater, halone'⟩ := h'.trace
  have hdisk := h'.disk
  rw [h.session] at hlater hdisk
  refine ⟨?_, h'.session.trans h.session, h'.stream.trans h.stream, ?_, events ++ later,
    by rw [htrace', htrace, List.append_assoc], ?_, ?_⟩
  · obtain ⟨app, happ⟩ := h.device
    obtain ⟨app', happ'⟩ := h'.device
    exact ⟨app', by rw [happ', happ]⟩
  · rcases hdisk with hsame | ⟨journal, hjournal, hsaved⟩
    · rw [hsame]
      exact h.disk
    · refine Or.inr ⟨journal, hjournal, ?_⟩
      rcases h.disk with hsame | ⟨earlier, -, hearlier⟩
      · rw [hsaved, hsame]
      · rw [hsaved, hearlier, AList.insert_insert]
  · intro event hevent
    rcases List.mem_append.mp hevent with hevent | hevent
    · exact hevents event hevent
    · exact hlater event hevent
  · intro hall
    obtain ⟨hfirst, hsecond⟩ := alone_append.mp hall
    rw [halone' hsecond, halone hfirst]

instance : IsPreorder World Looks where
  refl := Looks.refl
  trans _ _ _ := Looks.trans

/-- What other parties create changes the app containers only. -/
theorem appear_app (created : List (AppPath × Entry)) (device : Device) :
    ∃ app, created.foldl Device.appear device = { device with app := app } := by
  induction created generalizing device with
  | nil => exact ⟨device.app, rfl⟩
  | cons first rest ih =>
    obtain ⟨app, happ⟩ := ih (device.appear first)
    refine ⟨app, ?_⟩
    rw [List.foldl_cons, happ, Device.appear]
    split <;> rfl

/-- Time passing is looked at by nobody. -/
theorem Looks.tick (w : World) : Looks w w.tick := by
  refine ⟨appear_app w.choice.appeared w.device, rfl, rfl, Or.inl rfl, _, rfl, ?_, ?_⟩
  · intro event hevent
    obtain ⟨created, -, rfl⟩ := List.mem_map.mp hevent
    exact trivial
  · intro halone
    have hnone : w.choice.appeared = [] := by
      cases hcreated : w.choice.appeared with
      | nil => rfl
      | cons first rest =>
        rw [hcreated] at halone
        exact absurd (halone _ List.mem_cons_self) (by simp [Event.isArrival])
    rw [World.tick, hnone]
    rfl

instance query_looks {α : Type} (answer : Choice → World → Except Failure α) :
    Keeps Looks (query answer) := by
  constructor
  intro w
  unfold query
  dsimp only
  split
  · exact Looks.tick w
  · split
    · exact Looks.tick w
    · split <;> exact Looks.tick w

instance when_keeps {R : World → World → Prop} [IsPreorder World R] {condition : Bool}
    {body : M Unit} [Keeps R body] : Keeps R (when condition body) := by
  unfold when
  infer_instance

instance asks_looks {α : Type} (read : World → α) : Keeps Looks (asks read) := by
  unfold asks
  infer_instance

instance require_looks (failure : Failure) (condition : Bool) :
    Keeps Looks (require failure condition) := by
  unfold require
  infer_instance

instance the_looks {α : Type} (failure : Failure) (value : Option α) :
    Keeps Looks (the failure value) := by
  unfold the
  cases value <;> infer_instance

theorem asks_apply {α : Type} (read : World → α) (w : World) : asks read w = (.done (read w), w) := rfl

theorem theJournal_some (w : World) (journal : Journal) (h : w.session.journal = some journal) :
    theJournal w = (.done journal, w) := by
  unfold theJournal
  rw [bind_done (asks_apply _ w), h]
  rfl

theorem theJournal_none (w : World) (h : w.session.journal = none) :
    theJournal w = (.failed silent, w) := by
  unfold theJournal
  rw [bind_done (asks_apply _ w), h]
  rfl

instance theJournal_looks : Keeps Looks theJournal := by
  unfold theJournal
  infer_instance

instance theFile_looks : Keeps Looks theFile := by
  unfold theFile
  infer_instance

theorem record_looks {event : Event} (h : ∀ session, event.ofLook session) :
    Keeps Looks (record event) := by
  constructor
  intro w
  refine ⟨⟨_, rfl⟩, rfl, rfl, Or.inl rfl, [event], rfl, ?_, fun _ => rfl⟩
  intro other hother
  rw [List.mem_singleton] at hother
  rw [hother]
  exact h _

instance answered_looks (path : Path) (answer : Device.Answer) :
    Keeps Looks (record (.answered path answer)) := record_looks fun _ => trivial

instance listed_looks (path : Path) : Keeps Looks (record (.listed path)) :=
  record_looks fun _ => trivial

instance rounds_looks : Keeps Looks rounds := by
  unfold rounds
  infer_instance

instance rethrow_looks {α : Type} (result : Except Failure α) : Keeps Looks (rethrow result) := by
  unfold rethrow
  cases result <;> infer_instance

section Local

instance xfatcSyncURL_looks : Keeps Looks xfatcSyncURL := by
  unfold xfatcSyncURL
  infer_instance

instance localExists_looks (name : LocalName) : Keeps Looks (localExists name) := by
  unfold localExists
  infer_instance

instance localRead_looks (name : LocalName) : Keeps Looks (localRead name) := by
  unfold localRead
  infer_instance

instance localBytes_looks (name : LocalName) : Keeps Looks (localBytes name) := by
  unfold localBytes
  infer_instance

/-- Whatever comes of an atomic write, the file is the old one or the new one. -/
theorem writeAtomic_ends (name : LocalName) (stored : Stored) (w : World) :
    (writeAtomic name stored w).2 = w.tick ∨
      (writeAtomic name stored w).2 =
        (w.tick.withDisk (w.disk.insert name stored)).log (.wrote name stored) := by
  unfold writeAtomic act actPartly
  dsimp only
  split
  · split
    · exact Or.inr rfl
    · exact Or.inl rfl
  · split
    · split
      · exact Or.inr rfl
      · exact Or.inl rfl
    · exact Or.inr rfl

theorem writeAtomic_journal (w : World) (journal : Journal) (h : w.session.journal = some journal) :
    Looks w (writeAtomic (activeName w.session) (.journal journal) w).2 := by
  rcases writeAtomic_ends (activeName w.session) (.journal journal) w with heq | heq
  · rw [heq]
    exact Looks.tick w
  · rw [heq]
    have hwrite : Looks w.tick ((w.tick.withDisk (w.tick.disk.insert (activeName w.session)
        (.journal journal))).log (.wrote (activeName w.session) (.journal journal))) := by
      refine ⟨⟨_, rfl⟩, rfl, rfl, Or.inr ⟨journal, h, rfl⟩,
        [.wrote (activeName w.session) (.journal journal)], rfl, ?_, fun _ => rfl⟩
      intro event hevent
      rw [List.mem_singleton] at hevent
      rw [hevent]
      exact ⟨journal, h, rfl, rfl⟩
    exact (Looks.tick w).trans hwrite

/-- `saveJournal` is one atomic write of the journal in memory and what follows it. -/
theorem saveJournal_eq (w : World) (journal : Journal) (h : w.session.journal = some journal) :
    saveJournal w = ((writeAtomic (activeName w.session) (.journal journal)) >>= fun _ =>
      when journal.knownFile.isSome (do xfatcSyncURL; xfatcSyncURL)) w := by
  unfold saveJournal
  rw [bind_done (theJournal_some w journal h), bind_done (asks_apply _ w)]

theorem saveJournal_none (w : World) (h : w.session.journal = none) :
    saveJournal w = (.failed silent, w) := by
  unfold saveJournal
  rw [bind_failed (theJournal_none w h)]

instance saveJournal_looks : Keeps Looks saveJournal := by
  constructor
  intro w
  cases hjournal : w.session.journal with
  | none =>
    rw [saveJournal_none w hjournal]
    exact Looks.refl w
  | some journal =>
    rw [saveJournal_eq w journal hjournal]
    have hwrite := writeAtomic_journal w journal hjournal
    show Looks w (Prog.bind _ _ w).2
    unfold Prog.bind
    rcases heq : writeAtomic (activeName w.session) (.journal journal) w with ⟨outcome, w'⟩
    rw [heq] at hwrite
    cases outcome with
    | done value =>
      have hrest : Keeps Looks (when journal.knownFile.isSome (do xfatcSyncURL; xfatcSyncURL)) :=
        inferInstance
      exact hwrite.trans (hrest.keeps w')
    | failed error => exact hwrite
    | stopped => exact hwrite

end Local

section Afc

instance openServiceTunnel_looks : Keeps Looks openServiceTunnel := by
  unfold openServiceTunnel
  infer_instance

instance afcGetFileInfo_looks (path : Path) : Keeps Looks (afcGetFileInfo path) := by
  unfold afcGetFileInfo
  refine Keeps.bind inferInstance fun answer => Keeps.bind inferInstance fun _ => ?_
  cases answer <;> infer_instance

instance info_looks (path : Path) : Keeps Looks (info path) := by
  unfold info
  refine Keeps.bind inferInstance fun found => ?_
  cases found <;> infer_instance

instance names_looks (path : Path) : Keeps Looks (names path) := by
  unfold names
  infer_instance

theorem readChunks_looks (path : Path) (size : ℕ) :
    ∀ fuel out, Keeps Looks (readChunks path size fuel out)
  | 0, out => by
    unfold readChunks
    infer_instance
  | fuel + 1, out => by
    have ih := readChunks_looks path size fuel
    unfold readChunks
    infer_instance

instance readSnapshot_looks (path : Path) (size : ℕ) : Keeps Looks (readSnapshot path size) := by
  have hchunks := readChunks_looks path size
  unfold readSnapshot
  infer_instance

instance afcFileClose_looks : Keeps Looks afcFileClose := by
  unfold afcFileClose
  infer_instance

theorem waitRounds_looks (path : Path) (missing : Bool) :
    ∀ fuel, Keeps Looks (waitRounds path missing fuel)
  | 0 => by
    unfold waitRounds
    infer_instance
  | fuel + 1 => by
    have ih := waitRounds_looks path missing fuel
    unfold waitRounds
    infer_instance

instance waitKnownFile_looks (path : Path) (missing : Bool) :
    Keeps Looks (waitKnownFile path missing) := by
  have hrounds := waitRounds_looks path missing
  unfold waitKnownFile
  infer_instance

instance readKnownStage_looks (path : Path) (limit : ℕ) : Keeps Looks (readKnownStage path limit) := by
  unfold readKnownStage
  infer_instance

end Afc

section Checks

variable [Foundation]

instance succeeds_keeps {R : World → World → Prop} [IsPreorder World R] {body : M Unit}
    [Keeps R body] : Keeps R (succeeds body) := by
  unfold succeeds
  refine Keeps.bind inferInstance fun result => ?_
  cases result <;> infer_instance

instance booksOwnerMatches_looks (root : Path) : Keeps Looks (booksOwnerMatches root) := by
  unfold booksOwnerMatches
  infer_instance

instance preimageRowMatches_looks (token : Token) (index : ℕ) (path : Path) (row : TrackedRow) :
    Keeps Looks (preimageRowMatches token index path row) := by
  unfold preimageRowMatches
  refine Keeps.bind inferInstance fun observed => ?_
  cases row <;> cases observed <;> infer_instance

omit [Foundation] in
theorem preimageRows_looks (token : Token) (root : Path) :
    ∀ rows index, Keeps Looks (preimageRows token root rows index)
  | [], _ => by
    unfold preimageRows
    infer_instance
  | (tail, row) :: rest, index => by
    have ih := preimageRows_looks token root rest
    unfold preimageRows
    infer_instance

instance preimageMatches_looks (root : Path) : Keeps Looks (preimageMatches root) := by
  have hrows := preimageRows_looks
  unfold preimageMatches
  infer_instance

instance resumesBooks_looks (marker : Option FileInfo) (journal : Journal) :
    Keeps Looks (resumesBooks marker journal) := by
  unfold resumesBooks
  infer_instance

instance booksReady_looks (journal : Journal) (root : Except Failure (Option FileInfo))
    (resuming : Bool) : Keeps Looks (booksReady journal root resuming) := by
  unfold booksReady
  infer_instance

instance trackedCurrent_looks (path : Path) (found : Option FileInfo) :
    Keeps Looks (trackedCurrent path found) := by
  unfold trackedCurrent
  cases found <;> infer_instance

instance restorableBooks_looks (journal : Journal) (marker : Option FileInfo) :
    Keeps Looks (restorableBooks journal marker) := by
  unfold restorableBooks
  infer_instance

instance trackedOriginal_looks (token : Token) (index : ℕ) (row : TrackedRow) :
    Keeps Looks (trackedOriginal token index row) := by
  unfold trackedOriginal
  cases row <;> infer_instance

instance verifyRemoteOwner_looks : Keeps Looks verifyRemoteOwner := by
  unfold verifyRemoteOwner
  refine Keeps.bind inferInstance fun journal => Keeps.bind inferInstance fun _ =>
    Keeps.bind inferInstance fun _ => Keeps.bind inferInstance fun found => ?_
  cases found with
  | none => infer_instance
  | some row =>
    refine Keeps.bind inferInstance fun _ => Keeps.bind inferInstance fun owner => ?_
    cases owner <;> infer_instance

instance pause_looks : Keeps Looks pause := by
  unfold pause
  infer_instance

omit [Foundation] in
theorem verifyLinkRounds_looks (token : Token) (tail : AppPath) :
    ∀ fuel, Keeps Looks (verifyLinkRounds token tail fuel)
  | 0 => by
    unfold verifyLinkRounds
    infer_instance
  | fuel + 1 => by
    have ih := verifyLinkRounds_looks token tail fuel
    unfold verifyLinkRounds
    refine Keeps.bind inferInstance fun found => ?_
    cases found <;> infer_instance

instance verifyKnownTargetLink_looks : Keeps Looks verifyKnownTargetLink := by
  unfold verifyKnownTargetLink
  infer_instance

instance knownFileDestination_looks : Keeps Looks knownFileDestination := by
  unfold knownFileDestination
  infer_instance

instance requireProbeDestinationAbsent_looks : Keeps Looks requireProbeDestinationAbsent := by
  unfold requireProbeDestinationAbsent
  refine Keeps.bind inferInstance fun _ => Keeps.bind inferInstance fun destination =>
    Keeps.bind inferInstance fun found => ?_
  rcases found with failure | row
  · infer_instance
  · cases row <;> infer_instance

instance checkDestination_looks (journal : Journal) (file : KnownFile) :
    Keeps Looks (checkDestination journal file) := by
  unfold checkDestination
  infer_instance

instance validatedLocalOriginal_looks (token : Token) (digest : Option Digest) (size : Option ℕ) :
    Keeps Looks (validatedLocalOriginal token digest size) := by
  unfold validatedLocalOriginal
  infer_instance

instance verifyBatchStagedLink_looks : Keeps Looks verifyBatchStagedLink := by
  unfold verifyBatchStagedLink
  infer_instance

instance knownTargetAbsenceAfterMove_looks : Keeps Looks knownTargetAbsenceAfterMove := by
  unfold knownTargetAbsenceAfterMove
  refine Keeps.bind inferInstance fun _ => Keeps.bind inferInstance fun destination =>
    Keeps.bind inferInstance fun found => ?_
  rcases found with failure | row
  · infer_instance
  · cases row <;> infer_instance

end Checks

end XitForge.Directory
