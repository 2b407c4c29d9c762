import XitForge.Directory.Looks

/-!
What is seen of AirTraffic during one call: the streams it opens, the messages it
receives on each and the FileCompletes it sends. The preparation of a stream is
followed through its three waits, and the attempts of a call through the flag
that a FileComplete sets.
-/
namespace XitForge.Directory

open Program Program.Prog Foundation

/-- The events of AirTraffic streams. -/
def Event.isProtocol : Event → Bool
  | .opened | .received _ _ | .fileComplete _ _ => true
  | _ => false

def World.protocol (w : World) : List Event := w.trace.filter Event.isProtocol

/-- A message that a wait passes over: not the awaited one, nor one that ends it. -/
def passedOver (wanted : Command) (message : Message) : Prop :=
  message.name ≠ some wanted ∧ message.name ≠ some .syncFinished ∧
    (message.name = some .syncFailed → message.errorCode = some 4 ∧ wanted ≠ .assetManifest)

/-- A wait for a command that ended with it. -/
def Waited (wanted : Command) (message : Message) (events : List Event) : Prop :=
  ∃ skipped : List Message, (∀ other ∈ skipped, passedOver wanted other) ∧
    message.name = some wanted ∧
    events = skipped.map (.received wanted) ++ [.received wanted message]

/-- Nothing but messages was seen on the stream. -/
def Idle (events : List Event) : Prop :=
  ∀ event ∈ events, ∃ wanted message, event = .received wanted message

/-- SyncAllowed, ReadyForSync and the manifest were received in this order, each
while waiting for it, and the manifest lists the assets for download. -/
def Prepared (assets : List AssetID) (events : List Event) : Prop :=
  ∃ (allowed ready manifest : List Event) (first second message : Message),
    events = allowed ++ ready ++ manifest ∧ Waited .syncAllowed first allowed ∧
    Waited .readyForSync second ready ∧ Waited .assetManifest message manifest ∧
    ∀ asset ∈ assets, message.authorizes asset = true

def Move.event (move : Move) : Event := .fileComplete move.asset move.destination

/-- The streams of one call: attempts that completed nothing, and perhaps a last
one that was prepared and completed the first of the moves in their order. -/
inductive CallLog (moves : List Move) : List Event → Prop where
  | nothing : CallLog moves []
  | idle {events rest : List Event} (hidle : Idle events) (hrest : CallLog moves rest) :
      CallLog moves (.opened :: events ++ rest)
  | completed {events : List Event} (hprepared : Prepared (moves.map Move.asset) events)
      (sent : List Move) (hsent : sent <+: moves) :
      CallLog moves (.opened :: events ++ sent.map Move.event)

/-- The events of AirTraffic so far, and whether a FileComplete was attempted. -/
abbrev Progress := List Event × Bool

def World.progress (w : World) : Progress := (w.protocol, w.session.atcMoveAttempted)

def AtProgress (journal : Option Journal) (progress : Progress) (w : World) : Prop :=
  w.progress = progress ∧ w.session.journal = journal

theorem Looks.progress {w w' : World} (h : Looks w w') : w'.progress = w.progress := by
  obtain ⟨events, htrace, hevents, -⟩ := h.trace
  have hnone : events.filter Event.isProtocol = [] := by
    rw [List.filter_eq_nil_iff]
    intro event hevent
    have hlook := hevents event hevent
    cases event <;> simp_all [Event.ofLook, Event.isProtocol]
  simp only [World.progress, World.protocol, htrace, h.session, List.filter_append, hnone,
    List.append_nil]

theorem atProgress_looks {journal : Option Journal} {progress : Progress} (w w' : World)
    (h : AtProgress journal progress w) (hlooks : Looks w w') : AtProgress journal progress w' :=
  ⟨hlooks.progress.trans h.1, by rw [hlooks.session, h.2]⟩

theorem atProgress_tick {journal : Option Journal} {progress : Progress} {w : World}
    (h : AtProgress journal progress w) : AtProgress journal progress w.tick :=
  atProgress_looks w w.tick h (Looks.tick w)

theorem atProgress_log {current : Option Journal} {events : List Event} {attempted : Bool}
    {w w' : World} {event : Event} (h : AtProgress current (events, attempted) w)
    (hprotocol : event.isProtocol = true) (htrace : w'.trace = w.trace ++ [event])
    (hsession : w'.session = w.session) :
    AtProgress current (events ++ [event], attempted) w' := by
  obtain ⟨hprogress, hjournal⟩ := h
  simp only [World.progress, World.protocol, Prod.mk.injEq] at hprogress
  refine ⟨?_, by rw [hsession, hjournal]⟩
  simp [World.progress, World.protocol, htrace, hsession, hprogress.1, hprogress.2,
    List.filter_append, hprotocol]

/-- What is not part of the protocol may be seen in between. -/
theorem atProgress_silent {current : Option Journal} {progress : Progress} {w : World}
    {event : Event} (h : AtProgress current progress w) (hprotocol : event.isProtocol = false) :
    AtProgress current progress (w.log event) := by
  refine ⟨?_, h.2⟩
  rw [← h.1]
  simp [World.progress, World.protocol, World.log, List.filter_append, hprotocol]

section Waiting

variable {current : Option Journal} {events : List Event} {attempted : Bool}

/-- What was seen while waiting, whatever the wait came to. -/
def Seen (events : List Event) (attempted : Bool) (progress : Progress) : Prop :=
  ∃ more, Idle more ∧ progress = (events ++ more, attempted)

theorem Seen.refl (events : List Event) (attempted : Bool) :
    Seen events attempted (events, attempted) := ⟨[], by simp [Idle], by simp⟩

theorem Seen.after {more : List Event} {progress : Progress} (hmore : Idle more)
    (h : Seen (events ++ more) attempted progress) : Seen events attempted progress := by
  obtain ⟨later, hlater, rfl⟩ := h
  refine ⟨more ++ later, ?_, by rw [List.append_assoc]⟩
  intro event hevent
  rcases List.mem_append.mp hevent with hevent | hevent
  · exact hmore event hevent
  · exact hlater event hevent

theorem idle_received (wanted : Command) (messages : List Message) :
    Idle (messages.map (.received wanted)) := by
  intro event hevent
  obtain ⟨message, -, rfl⟩ := List.mem_map.mp hevent
  exact ⟨wanted, message, rfl⟩

theorem Waited.idle {wanted : Command} {message : Message} {more : List Event}
    (h : Waited wanted message more) : Idle more := by
  obtain ⟨skipped, -, -, rfl⟩ := h
  simpa using idle_received wanted (skipped ++ [message])

variable [Foundation]

theorem receive_tracks (wanted : Command) :
    Tracks (AtProgress current) (events, attempted) (receive wanted)
      (fun message progress => progress = (events ++ [.received wanted message], attempted))
      (Seen events attempted) (Seen events attempted) := by
  unfold receive
  refine Tracks.skip (K := Looks) atProgress_looks (Seen.refl _ _) (Seen.refl _ _) fun message => ?_
  refine Tracks.bind (Q := fun _ progress => progress = (events ++ [.received wanted message],
    attempted)) ?_ fun _ progress h => Tracks.pure h
  intro w hw
  exact ⟨_, atProgress_log hw rfl rfl rfl, rfl⟩

omit [Foundation] in
theorem send_tracks (command : Command) {progress : Progress} {F C : Progress → Prop}
    (hF : F progress) (hC : C progress) :
    Tracks (AtProgress current) progress (send command) (fun _ progress' => progress' = progress) F C := by
  intro w hw
  have hw := atProgress_tick hw
  unfold send act actPartly
  dsimp only
  split
  · refine ⟨progress, ?_, hC⟩
    split <;> exact hw
  · split
    · refine ⟨progress, ?_, hF⟩
      split <;> exact hw
    · exact ⟨progress, hw, rfl⟩

/-- The commands that are waited for. -/
def Command.isAwaited (wanted : Command) : Prop :=
  wanted = .syncAllowed ∨ wanted = .readyForSync ∨ wanted = .assetManifest

omit [Foundation] in
theorem passedOver_of_decision {wanted : Command} {message : Message} (hwanted : wanted.isAwaited)
    (h : xfatcDecisionForMessage wanted message.name message.errorCode = .continue ∨
      xfatcDecisionForMessage wanted message.name message.errorCode = .pong) :
    passedOver wanted message := by
  unfold xfatcDecisionForMessage at h
  unfold passedOver
  rcases hname : message.name with _ | command
  · simp
  · simp only [hname] at h
    rcases hwanted with rfl | rfl | rfl <;> cases command <;> simp_all <;> split_ifs at h <;> simp_all

omit [Foundation] in
theorem name_of_accept {wanted : Command} {message : Message}
    (h : xfatcDecisionForMessage wanted message.name message.errorCode = .accept) :
    message.name = some wanted := by
  unfold xfatcDecisionForMessage at h
  rcases hname : message.name with _ | command
  · simp [hname] at h
  · simp only [hname] at h
    split_ifs at h with _ _ _ _ heq
    rw [heq]

omit [Foundation] in
/-- A message passed over before the rest of a wait belongs to the wait. -/
theorem Waited.cons {wanted : Command} {message other : Message} {more : List Event}
    (hother : passedOver wanted other) (h : Waited wanted message more) :
    Waited wanted message (.received wanted other :: more) := by
  obtain ⟨skipped, hskipped, hname, rfl⟩ := h
  exact ⟨other :: skipped, List.forall_mem_cons.mpr ⟨hother, hskipped⟩, hname, rfl⟩

/-- Each round receives one message: the induction is on the rounds left. -/
theorem waitMessages_tracks (wanted : Command) (hwanted : wanted.isAwaited) (fuel : ℕ) :
    ∀ (events : List Event) (support : Option GrappaSupport),
      Tracks (AtProgress current) (events, attempted) (waitMessages wanted fuel support)
        (fun result progress => ∃ more, Waited wanted result.1 more ∧
          progress = (events ++ more, attempted))
        (Seen events attempted) (Seen events attempted) := by
  induction fuel with
  | zero => exact fun events support => Tracks.fail (Seen.refl _ _)
  | succ fuel ih =>
    intro events support
    unfold waitMessages
    refine Tracks.bind (receive_tracks wanted) ?_
    intro message _ heq
    subst heq
    have hidle : Idle [.received wanted message] := idle_received wanted [message]
    have hagain : passedOver wanted message → ∀ support,
        Tracks (AtProgress current) (events ++ [.received wanted message], attempted)
          (waitMessages wanted fuel support)
          (fun result progress => ∃ more, Waited wanted result.1 more ∧
            progress = (events ++ more, attempted))
          (Seen events attempted) (Seen events attempted) := by
      intro hpassed support
      refine (ih _ support).conseq ?_ (fun _ => Seen.after hidle) fun _ => Seen.after hidle
      intro result _ h
      obtain ⟨more, hmore, rfl⟩ := h
      exact ⟨.received wanted message :: more, hmore.cons hpassed, by simp⟩
    have hseen : Seen events attempted (events ++ [.received wanted message], attempted) :=
      Seen.after hidle (Seen.refl _ _)
    split
    · rename_i hdecision
      refine Tracks.bind (send_tracks .pong hseen hseen) ?_
      intro _ _ heq
      subst heq
      exact hagain (passedOver_of_decision hwanted (Or.inr hdecision)) _
    · rename_i hdecision
      exact Tracks.pure ⟨[.received wanted message],
        ⟨[], by simp, name_of_accept hdecision, rfl⟩, rfl⟩
    · exact Tracks.fail hseen
    · exact Tracks.fail hseen
    · rename_i hdecision
      exact hagain (passedOver_of_decision hwanted (Or.inl hdecision)) _

theorem waitFor_tracks (wanted : Command) (hwanted : wanted.isAwaited) :
    Tracks (AtProgress current) (events, attempted) (waitFor wanted)
      (fun result progress => ∃ more, Waited wanted result.1 more ∧
        progress = (events ++ more, attempted))
      (Seen events attempted) (Seen events attempted) := by
  unfold waitFor
  exact Tracks.skip (K := Looks) atProgress_looks (Seen.refl _ _) (Seen.refl _ _) fun limit =>
    waitMessages_tracks wanted hwanted (limit + 1) events none

end Waiting

section Sessions

variable [Foundation] {current : Option Journal} {events : List Event} {attempted : Bool}

omit [Foundation] in
theorem idle_append {first second : List Event} (h : Idle first) (h' : Idle second) :
    Idle (first ++ second) := fun event hevent =>
  (List.mem_append.mp hevent).elim (h event) (h' event)

omit [Foundation] in
theorem Prepared.idle {assets : List AssetID} {more : List Event} (h : Prepared assets more) :
    Idle more := by
  obtain ⟨_, _, _, _, _, _, rfl, hallowed, hready, hmanifest, -⟩ := h
  exact idle_append (idle_append hallowed.idle hready.idle) hmanifest.idle

/-- The three waits of a session; what it returns is the manifest message. -/
theorem prepareSession_tracks (assets : List AssetID) :
    Tracks (AtProgress current) (events, attempted) prepareSession
      (fun message progress => ∃ more, Idle more ∧
        ((∀ asset ∈ assets, message.authorizes asset = true) → Prepared assets more) ∧
        progress = (events ++ more, attempted))
      (Seen events attempted) (Seen events attempted) := by
  unfold prepareSession
  refine Tracks.bind (waitFor_tracks .syncAllowed (Or.inl rfl)) ?_
  rintro ⟨first, _⟩ _ ⟨allowed, hallowed, rfl⟩
  have hafter : ∀ progress, Seen (events ++ allowed) attempted progress →
      Seen events attempted progress := fun _ => Seen.after hallowed.idle
  have hseen := hafter _ (Seen.refl _ _)
  refine Tracks.skip (K := Looks) atProgress_looks hseen hseen fun _ => ?_
  refine Tracks.skip (K := Looks) atProgress_looks hseen hseen fun _ => ?_
  refine Tracks.bind (send_tracks .hostInfo hseen hseen) ?_
  intro _ _ heq
  subst heq
  refine Tracks.bind (send_tracks .requestingSync hseen hseen) ?_
  intro _ _ heq
  subst heq
  refine Tracks.bind ((waitFor_tracks .readyForSync (Or.inr (Or.inl rfl))).conseq
    (fun _ _ => id) hafter hafter) ?_
  rintro ⟨second, _⟩ _ ⟨ready, hready, rfl⟩
  have hafter' : ∀ progress, Seen (events ++ allowed ++ ready) attempted progress →
      Seen events attempted progress := fun _ h => hafter _ (Seen.after hready.idle h)
  have hseen' := hafter' _ (Seen.refl _ _)
  refine Tracks.bind (send_tracks .finishedSyncingMetadata hseen' hseen') ?_
  intro _ _ heq
  subst heq
  refine Tracks.bind ((waitFor_tracks .assetManifest (Or.inr (Or.inr rfl))).conseq
    (fun _ _ => id) hafter' hafter') ?_
  rintro ⟨message, _⟩ _ ⟨manifest, hmanifest, rfl⟩
  refine Tracks.pure ⟨allowed ++ ready ++ manifest,
    idle_append (idle_append hallowed.idle hready.idle) hmanifest.idle, fun hassets => ?_, by simp⟩
  exact ⟨allowed, ready, manifest, first, second, message, rfl, hallowed, hready, hmanifest,
    hassets⟩

omit [Foundation] in
theorem markMoveAttempted_tracks (flag : Bool) {F C : Progress → Prop} :
    Tracks (AtProgress current) (events, attempted) (markMoveAttempted flag)
      (fun _ progress => progress = (events, flag)) F C := by
  intro w hw
  obtain ⟨hprogress, hjournal⟩ := hw
  simp only [World.progress, Prod.mk.injEq] at hprogress
  exact ⟨(events, flag), ⟨Prod.ext hprogress.1 rfl, hjournal⟩, rfl⟩

omit [Foundation] in
theorem sendFileComplete_tracks (move : Move) :
    Tracks (AtProgress current) (events, attempted) (sendFileComplete move.asset move.destination)
      (fun _ progress => progress = (events ++ [move.event], attempted))
      (fun progress => progress = (events ++ [move.event], attempted))
      (fun progress => progress = (events ++ [move.event], attempted)) := by
  intro w hw
  have hsent : AtProgress current (events ++ [move.event], attempted) (w.tick.log move.event) :=
    atProgress_log (atProgress_tick hw) rfl rfl rfl
  have hat : ∀ device replaced, AtProgress current (events ++ [move.event], attempted)
      (((w.tick.log move.event).withDevice device).log
        (.moved move.asset move.destination replaced)) := fun device replaced =>
    atProgress_silent (w := (w.tick.log move.event).withDevice device) hsent rfl
  unfold sendFileComplete
  dsimp only
  split
  · split
    · exact ⟨_, hat _ _, rfl⟩
    · exact ⟨_, hsent, rfl⟩
  · split
    · split
      · exact ⟨_, hat _ _, rfl⟩
      · exact ⟨_, hsent, rfl⟩
    · split
      · exact ⟨_, hsent, rfl⟩
      · exact ⟨_, hat _ _, rfl⟩

/-- The first of the moves were sent, and the flag tells whether any was. -/
def Sent (moves : List Move) (events : List Event) (attempted : Bool) (progress : Progress) : Prop :=
  ∃ sent, sent <+: moves ∧
    progress = (events ++ sent.map Move.event, attempted || !sent.isEmpty)

omit [Foundation] in
theorem Sent.none (moves : List Move) (events : List Event) (attempted : Bool) :
    Sent moves events attempted (events, attempted) :=
  ⟨[], List.nil_prefix, by simp⟩

omit [Foundation] in
theorem Sent.cons {move : Move} {rest : List Move} {progress : Progress}
    (h : Sent rest (events ++ [move.event]) true progress) :
    Sent (move :: rest) events attempted progress := by
  obtain ⟨sent, hsent, rfl⟩ := h
  exact ⟨move :: sent, List.prefix_cons_inj move |>.mpr hsent, by simp⟩

omit [Foundation] in
theorem completePair_tracks (grouped : Bool) (move : Move) :
    Tracks (AtProgress current) (events, attempted) (completePair grouped move)
      (fun _ progress => progress = (events ++ [move.event], true))
      (fun progress => progress = (events, attempted) ∨ progress = (events ++ [move.event], true))
      (fun progress => progress = (events, attempted) ∨ progress = (events ++ [move.event], true)) := by
  unfold completePair
  refine Tracks.skip (K := Looks) atProgress_looks (Or.inl rfl) (Or.inl rfl) fun journal => ?_
  refine Tracks.skip (K := Looks) atProgress_looks (Or.inl rfl) (Or.inl rfl) fun file => ?_
  refine Tracks.skip (K := Looks) atProgress_looks (Or.inl rfl) (Or.inl rfl) fun _ => ?_
  refine Tracks.skip (K := Looks) atProgress_looks (Or.inl rfl) (Or.inl rfl) fun _ => ?_
  refine Tracks.bind (markMoveAttempted_tracks true) ?_
  intro _ _ heq
  subst heq
  exact (sendFileComplete_tracks move).conseq (fun _ _ => id) (fun _ => Or.inr) fun _ => Or.inr

omit [Foundation] in
/-- The moves of a session are completed one after the other, up to the first failure. -/
theorem completePairs_tracks (grouped : Bool) (moves : List Move) :
    ∀ (events : List Event) (attempted : Bool),
      Tracks (AtProgress current) (events, attempted) (each (completePair grouped) moves)
        (fun _ => Sent moves events attempted) (Sent moves events attempted)
        (Sent moves events attempted) := by
  induction moves with
  | nil => exact fun events attempted => Tracks.pure (Sent.none [] events attempted)
  | cons move rest ih =>
    intro events attempted
    have hone : ∀ progress, progress = (events, attempted) ∨
        progress = (events ++ [move.event], true) → Sent (move :: rest) events attempted progress := by
      intro progress hcase
      rcases hcase with rfl | rfl
      · exact Sent.none _ _ _
      · exact (Sent.none rest _ _).cons
    unfold each
    refine Tracks.bind ((completePair_tracks grouped move).conseq (fun _ _ => id) hone hone) ?_
    intro _ _ heq
    subst heq
    exact (ih _ true).conseq (fun _ _ => Sent.cons) (fun _ => Sent.cons) fun _ => Sent.cons

/-- What one opened stream comes to: idle, or prepared with the first moves sent. -/
def Streamed (moves : List Move) (events : List Event) (progress : Progress) : Prop :=
  (∃ more, Idle more ∧ progress = (events ++ more, false)) ∨
    ∃ more sent, Prepared (moves.map Move.asset) more ∧ sent <+: moves ∧
      progress = (events ++ more ++ sent.map Move.event, true)

omit [Foundation] in
theorem Streamed.of_seen {moves : List Move} {progress : Progress}
    (h : Seen events false progress) : Streamed moves events progress := Or.inl h

omit [Foundation] in
theorem Streamed.of_sent {moves : List Move} {more : List Event} {progress : Progress}
    (hidle : Idle more) (hprepared : Prepared (moves.map Move.asset) more)
    (h : Sent moves (events ++ more) false progress) : Streamed moves events progress := by
  obtain ⟨sent, hsent, rfl⟩ := h
  cases sent with
  | nil => exact Or.inl ⟨more, hidle, by simp⟩
  | cons move rest => exact Or.inr ⟨more, move :: rest, hprepared, hsent, by simp⟩

theorem pairsSession_tracks (grouped : Bool) (moves : List Move) :
    Tracks (AtProgress current) (events, false) (pairsSession grouped moves)
      (fun _ => Streamed moves events) (Streamed moves events) (Streamed moves events) := by
  unfold pairsSession
  refine Tracks.bind ((prepareSession_tracks (moves.map Move.asset)).conseq (fun _ _ => id)
    (fun _ => Streamed.of_seen) fun _ => Streamed.of_seen) ?_
  intro message _ h
  obtain ⟨more, hidle, hprepared, rfl⟩ := h
  have hseen : Streamed moves events (events ++ more, false) := Or.inl ⟨more, hidle, rfl⟩
  unfold require
  split
  · rename_i hlisted
    rw [Bool.and_eq_true, List.all_eq_true] at hlisted
    have hprepared := hprepared (List.forall_mem_map.mpr hlisted.2)
    have hsent : ∀ progress, Sent moves (events ++ more) false progress →
        Streamed moves events progress := fun _ => Streamed.of_sent hidle hprepared
    refine Tracks.skip (K := Looks) atProgress_looks hseen hseen fun _ => ?_
    exact (completePairs_tracks grouped moves _ false).conseq (fun _ => hsent) hsent hsent
  · exact Tracks.bind (Tracks.fail hseen (Q := fun _ _ => False)) fun _ _ => False.elim

theorem linkSession_tracks (journal : Journal) :
    Tracks (AtProgress current) (events, false) (linkSession journal)
      (fun _ => Streamed [⟨.stagedLink journal.token, linkPath journal.token⟩] events)
      (Streamed [⟨.stagedLink journal.token, linkPath journal.token⟩] events)
      (Streamed [⟨.stagedLink journal.token, linkPath journal.token⟩] events) := by
  unfold linkSession
  refine Tracks.bind ((prepareSession_tracks [.stagedLink journal.token]).conseq (fun _ _ => id)
    (fun _ => Streamed.of_seen) fun _ => Streamed.of_seen) ?_
  intro message _ h
  obtain ⟨more, hidle, hprepared, rfl⟩ := h
  have hseen : Streamed [⟨.stagedLink journal.token, linkPath journal.token⟩] events
      (events ++ more, false) := Or.inl ⟨more, hidle, rfl⟩
  unfold require
  split
  · rename_i hlisted
    have hprepared := hprepared (List.forall_mem_singleton.mpr hlisted)
    refine Tracks.skip (K := Looks) atProgress_looks hseen hseen fun _ => ?_
    refine Tracks.skip (K := Looks) atProgress_looks hseen hseen fun _ => ?_
    refine Tracks.bind (markMoveAttempted_tracks true) ?_
    intro _ _ heq
    subst heq
    have hsent : ∀ progress,
        progress = (events ++ more ++ [Event.fileComplete (.stagedLink journal.token)
          (linkPath journal.token)], true) →
        Streamed [⟨.stagedLink journal.token, linkPath journal.token⟩] events progress := by
      intro _ heq
      subst heq
      exact Or.inr ⟨more, _, hprepared, List.prefix_refl _, rfl⟩
    exact (sendFileComplete_tracks ⟨.stagedLink journal.token, linkPath journal.token⟩).conseq
      (fun _ => hsent) hsent hsent
  · exact Tracks.bind (Tracks.fail hseen (Q := fun _ _ => False)) fun _ _ => False.elim

omit [Foundation] in
theorem connectATC_tracks {F C : Progress → Prop} (hF : F (events, attempted))
    (hF' : F (events ++ [.opened], attempted)) (hC : C (events, attempted))
    (hC' : C (events ++ [.opened], attempted)) :
    Tracks (AtProgress current) (events, attempted) connectATC
      (fun _ progress => progress = (events ++ [.opened], attempted)) F C := by
  intro w hw
  have hw := atProgress_tick hw
  have hat : AtProgress current (events ++ [.opened], attempted)
      ((w.tick.withStream []).log .opened) := atProgress_log hw rfl rfl rfl
  unfold connectATC act actPartly
  dsimp only
  split
  · split
    · exact ⟨_, hat, hC'⟩
    · exact ⟨_, hw, hC⟩
  · split
    · split
      · exact ⟨_, hat, hF'⟩
      · exact ⟨_, hw, hF⟩
    · exact ⟨_, hat, rfl⟩

/-- What one attempt comes to: no stream, or one stream. -/
def Attempted (moves : List Move) (events : List Event) (progress : Progress) : Prop :=
  progress = (events, false) ∨ Streamed moves (events ++ [.opened]) progress

omit [Foundation] in
theorem Attempted.opened (moves : List Move) (events : List Event) :
    Attempted moves events (events ++ [.opened], false) :=
  Or.inr (Or.inl ⟨[], by simp [Idle], by simp⟩)

omit [Foundation] in
/-- A session on a fresh stream, and what both callers do before and after it. -/
theorem stream_tracks {moves : List Move} {session : M Unit} (rest : Except Failure Unit → M Unit)
    (hsession : ∀ events, Tracks (AtProgress current) (events, false) session (fun _ => Streamed moves events)
      (Streamed moves events) (Streamed moves events))
    [∀ result, Keeps Looks (rest result)] :
    Tracks (AtProgress current) (events, false)
      (do
        openServiceTunnel
        connectATC
        let result ← attempt session
        pause
        rest result)
      (fun _ => Attempted moves events) (Attempted moves events) (Attempted moves events) := by
  refine Tracks.skip (K := Looks) atProgress_looks (Or.inl rfl) (Or.inl rfl) fun _ => ?_
  refine Tracks.bind (connectATC_tracks (Or.inl rfl) (Attempted.opened _ _) (Or.inl rfl)
    (Attempted.opened _ _)) ?_
  intro _ _ heq
  subst heq
  have hopened : ∀ progress, Streamed moves (events ++ [.opened]) progress →
      Attempted moves events progress := fun _ => Or.inr
  refine Tracks.bind (Tracks.attempt_always ((hsession _).conseq (fun _ => hopened) hopened hopened))
    fun result progress h => ?_
  exact Tracks.keeps (K := Looks) atProgress_looks (fun _ => h) h h

theorem runKnownFilePairsOnce_tracks (moves : List Move) :
    Tracks (AtProgress current) (events, false) (runKnownFilePairsOnce moves)
      (fun _ => Attempted moves events) (Attempted moves events) (Attempted moves events) := by
  unfold runKnownFilePairsOnce
  refine Tracks.skip (K := Looks) atProgress_looks (Or.inl rfl) (Or.inl rfl) fun journal => ?_
  refine Tracks.skip (K := Looks) atProgress_looks (Or.inl rfl) (Or.inl rfl) fun file => ?_
  refine Tracks.skip (K := Looks) atProgress_looks (Or.inl rfl) (Or.inl rfl) fun _ => ?_
  refine Tracks.skip (K := Looks) atProgress_looks (Or.inl rfl) (Or.inl rfl) fun _ => ?_
  refine Tracks.skip (K := Looks) atProgress_looks (Or.inl rfl) (Or.inl rfl) fun _ => ?_
  refine Tracks.skip (K := Looks) atProgress_looks (Or.inl rfl) (Or.inl rfl) fun _ => ?_
  exact stream_tracks rethrow fun _ => pairsSession_tracks _ moves

/-- The one move of `runATC:`, if a transaction is open. -/
def linkMoves (current : Option Journal) : List Move :=
  (current.map fun journal => ⟨.stagedLink journal.token, linkPath journal.token⟩).toList

theorem runATCOnce_tracks :
    Tracks (AtProgress current) (events, false) runATCOnce
      (fun _ => Attempted (linkMoves current) events) (Attempted (linkMoves current) events)
      (Attempted (linkMoves current) events) := by
  intro w hw
  unfold runATCOnce
  cases current with
  | none =>
    rw [bind_failed (theJournal_none w hw.2)]
    exact ⟨_, hw, Or.inl rfl⟩
  | some journal =>
    rw [bind_done (theJournal_some w journal hw.2)]
    have hlink := fun limit => verifyLinkRounds_looks journal.token journal.tail (limit + 1)
    exact stream_tracks (fun result => do
      rethrow result
      let limit ← rounds
      verifyLinkRounds journal.token journal.tail (limit + 1))
      (fun _ => linkSession_tracks journal) w hw

/-- What a call has shown so far. -/
def Called (moves : List Move) (events : List Event) (progress : Progress) : Prop :=
  ∃ more, CallLog moves more ∧ progress.1 = events ++ more

omit [Foundation] in
theorem Called.of_attempted {moves : List Move} {progress : Progress}
    (h : Attempted moves events progress) : Called moves events progress := by
  rcases h with rfl | ⟨more, hidle, rfl⟩ | ⟨more, sent, hprepared, hsent, rfl⟩
  · exact ⟨[], .nothing, by simp⟩
  · exact ⟨.opened :: more ++ [], .idle hidle .nothing, by simp⟩
  · exact ⟨.opened :: more ++ sent.map Move.event, .completed hprepared sent hsent, by simp⟩

omit [Foundation] in
/-- An attempt without a FileComplete is followed by what the next ones show. -/
theorem Called.after {moves : List Move} {progress progress' : Progress}
    (h : Attempted moves events progress) (hflag : progress.2 = false)
    (hrest : Called moves progress.1 progress') : Called moves events progress' := by
  obtain ⟨more, hmore, hevents⟩ := hrest
  rcases h with rfl | ⟨idle, hidle, rfl⟩ | ⟨_, _, _, _, rfl⟩
  · exact ⟨more, hmore, hevents⟩
  · exact ⟨.opened :: idle ++ more, .idle hidle hmore, by simpa using hevents⟩
  · cases hflag

omit [Foundation] in
theorem get_tracks {progress : Progress} {F C : Progress → Prop} :
    Tracks (AtProgress current) progress (get : M World)
      (fun w progress' => progress' = progress ∧ w.progress = progress) F C :=
  fun _ hw => ⟨progress, hw, rfl, hw.1⟩

omit [Foundation] in
/-- Another attempt follows only while the flag of a FileComplete is down. -/
theorem retryAttempts_tracks {moves : List Move} {operation : M Unit}
    (hoperation : ∀ events, Tracks (AtProgress current) (events, false) operation
      (fun _ => Attempted moves events) (Attempted moves events) (Attempted moves events))
    (left : ℕ) : ∀ (events : List Event) (attempted : Bool),
      Tracks (AtProgress current) (events, attempted) (retryAttempts operation left)
        (fun _ => Called moves events) (Called moves events) (Called moves events) := by
  induction left with
  | zero => exact fun events attempted => Tracks.fail ⟨[], .nothing, by simp⟩
  | succ left ih =>
    intro events attempted
    unfold retryAttempts
    refine Tracks.bind (markMoveAttempted_tracks false) ?_
    intro _ _ heq
    subst heq
    refine Tracks.bind (Tracks.attempt_always ((hoperation events).conseq (fun _ _ => id)
      (fun _ => id) fun _ => Called.of_attempted)) fun result progress h => ?_
    cases result with
    | ok value => exact Tracks.pure (Called.of_attempted h)
    | error failure =>
      have hcalled := Called.of_attempted h
      refine Tracks.bind get_tracks ?_
      intro w progress' hgiven
      obtain ⟨hsame, hw⟩ := hgiven
      subst hsame
      refine Tracks.ite (fun hretry => ?_) fun _ => Tracks.fail hcalled
      have hflag : progress'.2 = false := by
        rw [← hw]
        simp only [xfatcShouldRetryPreparation, Bool.and_eq_true, Bool.not_eq_true'] at hretry
        exact hretry.2
      refine Tracks.skip (K := Looks) atProgress_looks hcalled hcalled fun _ => ?_
      exact (ih progress'.1 progress'.2).conseq (fun _ _ => Called.after h hflag)
        (fun _ => Called.after h hflag) fun _ => Called.after h hflag

theorem runATC_tracks :
    Tracks (AtProgress current) (events, attempted) runATC (fun _ => Called (linkMoves current) events)
      (Called (linkMoves current) events) (Called (linkMoves current) events) :=
  retryAttempts_tracks (fun _ => runATCOnce_tracks) 3 events attempted

theorem runKnownFilePairs_tracks (moves : List Move) :
    Tracks (AtProgress current) (events, attempted) (runKnownFilePairs moves)
      (fun _ => Called moves events) (Called moves events) (Called moves events) :=
  retryAttempts_tracks (fun _ => runKnownFilePairsOnce_tracks moves) 3 events attempted

end Sessions

/-- However it ends, a call that tracks its streams adds a call's log to the trace. -/
theorem callLog_of_tracks {moves : List Move} {body : M Unit} (w : World)
    (h : Tracks (AtProgress w.session.journal) w.progress body (fun _ => Called moves w.protocol)
      (Called moves w.protocol) (Called moves w.protocol)) :
    ∃ events, CallLog moves events ∧ (body w).2.protocol = w.protocol ++ events := by
  have hend := h w ⟨rfl, rfl⟩
  rcases heq : body w with ⟨outcome, w'⟩
  rw [heq] at hend
  have hcalled : ∃ progress, AtProgress w.session.journal progress w' ∧
      Called moves w.protocol progress := by
    cases outcome <;> exact hend
  obtain ⟨progress, hat, events, hlog, hevents⟩ := hcalled
  exact ⟨events, hlog, by rw [← hevents, ← hat.1]; rfl⟩

/-- From any state, whatever the device answers and wherever the call ends, the
streams of `runATC:` and of `runKnownFilePairs:` are those of a `CallLog`. -/
theorem airTraffic_moves_authorised [Foundation] (w : World) :
    (∃ events, CallLog (linkMoves w.session.journal) events ∧
      (runATC w).2.protocol = w.protocol ++ events) ∧
    ∀ moves, ∃ events, CallLog moves events ∧
      (runKnownFilePairs moves w).2.protocol = w.protocol ++ events :=
  ⟨callLog_of_tracks w runATC_tracks, fun moves =>
    callLog_of_tracks w (runKnownFilePairs_tracks moves)⟩

end XitForge.Directory
