import Mathlib.Algebra.BigOperators.Group.List.Basic
import Mathlib.Algebra.Ring.Int.Defs
import Mathlib.Data.Int.Cast.Basic
import XitForge.Http2.Client

/-!
Flow control of what is sent. Each window is what the peer has granted less what
was sent, as if every stream had one from the start: the entry of a stream is made
when a frame first needs it, and until then nothing has been granted or sent.
-/
namespace XitForge.Http2

open Program

/-- The increments of the connection. -/
def Event.connectionIncrement : Event → ℤ
  | .received (.windowUpdate frame) => if frame.streamId = 0 then frame.incrementSize else 0
  | _ => 0

/-- The increments of a stream; stream 0 is the connection. -/
def Event.streamIncrement (streamId : ℕ) : Event → ℤ
  | .received (.windowUpdate frame) =>
    if frame.streamId ≠ 0 ∧ frame.streamId = streamId then frame.incrementSize else 0
  | _ => 0

def Event.octets : Event → ℤ
  | .wrote (.data frame) => frame.payload.length
  | _ => 0

def Event.octetsOn (streamId : ℕ) : Event → ℤ
  | .wrote (.data frame) => if frame.streamId = streamId then frame.payload.length else 0
  | _ => 0

/-- The window that streams start with, after one more setting. -/
def Setting.initialWindow (initial : ℕ) : Setting → ℕ
  | .initialWindowSize new => new
  | .maxConcurrentStreams _ => initial

/-- An acknowledgement of settings sets nothing. -/
def Event.initialWindow (initial : ℕ) : Event → ℕ
  | .received (.settings frame) =>
    if frame.flags ≠ 1 then frame.settings.foldl Setting.initialWindow initial else initial
  | _ => initial

/-- The current `InitialWindowSize` of the peer. -/
def initialWindow (log : List Event) : ℕ := log.foldl Event.initialWindow defaultWindow

/-- What may still be sent on the connection. -/
def connectionWindow (log : List Event) : ℤ :=
  defaultWindow + (log.map Event.connectionIncrement).sum - (log.map Event.octets).sum

/-- What may still be sent on a stream. -/
def streamWindow (streamId : ℕ) (log : List Event) : ℤ :=
  initialWindow log + (log.map (Event.streamIncrement streamId)).sum -
    (log.map (Event.octetsOn streamId)).sum

/-- The window of a stream in the client: its entry, or the window it would start with. -/
def Client.streamSendWindow (client : Client) (streamId : ℕ) : Int64 :=
  (client.streamSendWindows streamId).getD client.peerInitialWindow

/-- The frame fits the windows, unless it is empty. -/
def Fits (before : List Event) (frame : DataFrame) : Prop :=
  frame.payload.length ≤ 16384 ∧
    (frame.payload ≠ [] →
      (frame.payload.length : ℤ) ≤ (Int64.ofInt (connectionWindow before)).toInt ∧
      (frame.payload.length : ℤ) ≤ (Int64.ofInt (streamWindow frame.streamId before)).toInt)

/-- The windows are those of the log, and every DATA frame fitted them. -/
structure Controlled (w : World) : Prop where
  connection : w.client.connSendWindow = Int64.ofInt (connectionWindow w.log)
  stream : ∀ streamId, w.client.streamSendWindow streamId = Int64.ofInt (streamWindow streamId w.log)
  initial : w.client.peerInitialWindow = Int64.ofNat (initialWindow w.log)
  unused : ∀ streamId, w.client.streamSendWindows streamId = none →
    (w.log.map (Event.streamIncrement streamId)).sum = (w.log.map (Event.octetsOn streamId)).sum
  fits : ∀ before frame after, w.log = before ++ .wrote (.data frame) :: after → Fits before frame

section Windows

variable {log : List Event} {event : Event}

theorem initialWindow_snoc :
    initialWindow (log ++ [event]) = event.initialWindow (initialWindow log) := by
  simp [initialWindow]

theorem connectionWindow_snoc :
    connectionWindow (log ++ [event]) =
      connectionWindow log + event.connectionIncrement - event.octets := by
  simp only [connectionWindow, List.map_append, List.map_cons, List.map_nil, List.sum_append,
    List.sum_cons, List.sum_nil]
  omega

theorem streamWindow_snoc (streamId : ℕ) :
    streamWindow streamId (log ++ [event]) = streamWindow streamId log +
      ((event.initialWindow (initialWindow log) : ℤ) - initialWindow log) +
        event.streamIncrement streamId - event.octetsOn streamId := by
  simp only [streamWindow, initialWindow_snoc, List.map_append, List.map_cons, List.map_nil,
    List.sum_append, List.sum_cons, List.sum_nil]
  omega

/-- A log that ends in a DATA frame is fitted by it and by those before. -/
theorem fits_snoc (h : ∀ before frame after, log = before ++ .wrote (.data frame) :: after →
      Fits before frame)
    (hevent : ∀ frame, event = .wrote (.data frame) → Fits log frame) :
    ∀ before frame after, log ++ [event] = before ++ .wrote (.data frame) :: after →
      Fits before frame := by
  intro before frame after heq
  rcases after.eq_nil_or_concat with rfl | ⟨front, last, rfl⟩
  · obtain ⟨rfl, hlast⟩ := List.append_inj' heq rfl
    exact hevent frame (List.singleton_inj.mp hlast)
  · rw [List.concat_eq_append, ← List.cons_append, ← List.append_assoc] at heq
    obtain ⟨hlog, -⟩ := List.append_inj' heq rfl
    exact h before frame front hlog

/-- One more event, and what the client makes of it. -/
theorem Controlled.step {w w' : World} (h : Controlled w) (hlog : w'.log = w.log ++ [event])
    (hconnection : w'.client.connSendWindow = w.client.connSendWindow +
      Int64.ofInt (event.connectionIncrement - event.octets))
    (hinitial : w'.client.peerInitialWindow =
      Int64.ofNat (event.initialWindow (initialWindow w.log)))
    (hstream : ∀ streamId, w'.client.streamSendWindow streamId =
      w.client.streamSendWindow streamId + Int64.ofInt
        (((event.initialWindow (initialWindow w.log) : ℤ) - initialWindow w.log) +
          event.streamIncrement streamId - event.octetsOn streamId))
    (hunused : ∀ streamId, w'.client.streamSendWindows streamId = none →
      w.client.streamSendWindows streamId = none ∧
        event.streamIncrement streamId = event.octetsOn streamId)
    (hfits : ∀ frame, event = .wrote (.data frame) → Fits w.log frame) : Controlled w' := by
  constructor
  · rw [hconnection, h.connection, hlog, connectionWindow_snoc, ← Int64.ofInt_add, Int.add_sub_assoc]
  · intro streamId
    rw [hstream, h.stream, hlog, streamWindow_snoc, ← Int64.ofInt_add]
    congr 1
    omega
  · rw [hinitial, hlog, initialWindow_snoc]
  · intro streamId hnone
    obtain ⟨hbefore, hevent⟩ := hunused streamId hnone
    rw [hlog]
    simp only [List.map_append, List.map_cons, List.map_nil, List.sum_append, List.sum_cons,
      List.sum_nil]
    rw [h.unused streamId hbefore, hevent]
  · rw [hlog]
    exact fits_snoc h.fits hfits

/-- An event that grants nothing and takes nothing. -/
structure Event.Quiet (event : Event) : Prop where
  initial : ∀ initial, event.initialWindow initial = initial
  increment : event.connectionIncrement = 0
  increments : ∀ streamId, event.streamIncrement streamId = 0
  octets : event.octets = 0
  octetsOn : ∀ streamId, event.octetsOn streamId = 0

/-- Such an event, and a client whose windows are as before. -/
theorem Controlled.quiet {w w' : World} (h : Controlled w) (hlog : w'.log = w.log ++ [event])
    (hquiet : event.Quiet) (hconnection : w'.client.connSendWindow = w.client.connSendWindow)
    (hinitial : w'.client.peerInitialWindow = w.client.peerInitialWindow)
    (hstreams : w'.client.streamSendWindows = w.client.streamSendWindows)
    (hfits : ∀ frame, event = .wrote (.data frame) → Fits w.log frame) : Controlled w' := by
  refine h.step hlog ?_ ?_ ?_ ?_ hfits
  · rw [hconnection, hquiet.increment, hquiet.octets]
    simp
  · rw [hinitial, hquiet.initial]
    exact h.initial
  · intro streamId
    unfold Client.streamSendWindow
    rw [hstreams, hinitial, hquiet.initial, hquiet.increments, hquiet.octetsOn]
    simp
  · intro streamId hnone
    rw [hstreams] at hnone
    exact ⟨hnone, by rw [hquiet.increments, hquiet.octetsOn]⟩

theorem Controlled.congr {w w' : World} (h : Controlled w) (hlog : w'.log = w.log)
    (hconnection : w'.client.connSendWindow = w.client.connSendWindow)
    (hinitial : w'.client.peerInitialWindow = w.client.peerInitialWindow)
    (hstreams : w'.client.streamSendWindows = w.client.streamSendWindows) : Controlled w' := by
  constructor
  · rw [hconnection, hlog]
    exact h.connection
  · intro streamId
    unfold Client.streamSendWindow
    rw [hstreams, hinitial, hlog]
    exact h.stream streamId
  · rw [hinitial, hlog]
    exact h.initial
  · intro streamId hnone
    rw [hstreams] at hnone
    rw [hlog]
    exact h.unused streamId hnone
  · rw [hlog]
    exact h.fits

end Windows

section Settings

theorem applySettings_windows (settings : List Setting) (client : Client) (initial : ℕ)
    (window : ℕ → ℤ) (hinitial : client.peerInitialWindow = Int64.ofNat initial)
    (hwindow : ∀ streamId, client.streamSendWindow streamId = Int64.ofInt (window streamId)) :
    let client' := client.applySettings settings
    let new := settings.foldl Setting.initialWindow initial
    client'.connSendWindow = client.connSendWindow ∧ client'.peerInitialWindow = Int64.ofNat new ∧
      (∀ streamId, client'.streamSendWindow streamId =
        Int64.ofInt (window streamId + ((new : ℤ) - initial))) ∧
      ∀ streamId, client'.streamSendWindows streamId = none →
        client.streamSendWindows streamId = none := by
  induction settings generalizing client initial window with
  | nil =>
    refine ⟨rfl, hinitial, ?_, fun _ h => h⟩
    intro streamId
    simpa [Client.applySettings] using hwindow streamId
  | cons setting settings ih =>
    cases setting with
    | maxConcurrentStreams value => exact ih client initial window hinitial hwindow
    | initialWindowSize new =>
      have hdelta : Int64.ofNat new - client.peerInitialWindow =
          Int64.ofInt ((new : ℤ) - initial) := by
        rw [hinitial, ← Int64.ofInt_eq_ofNat, ← Int64.ofInt_eq_ofNat, ← Int64.ofInt_sub]
      have hwindow' : ∀ streamId, (client.applySetting (.initialWindowSize new)).streamSendWindow
          streamId = Int64.ofInt (window streamId + ((new : ℤ) - initial)) := by
        intro streamId
        have hold := hwindow streamId
        unfold Client.streamSendWindow at hold
        simp only [Client.streamSendWindow, Client.applySetting, hdelta]
        cases hentry : client.streamSendWindows streamId with
        | none =>
          rw [hentry, Option.getD_none, hinitial, ← Int64.ofInt_eq_ofNat] at hold
          rw [Option.map_none, Option.getD_none, Int64.ofInt_add, ← hold, ← Int64.ofInt_add,
            ← Int64.ofInt_eq_ofNat]
          congr 1
          omega
        | some entry =>
          rw [hentry, Option.getD_some] at hold
          rw [Option.map_some, Option.getD_some, hold, ← Int64.ofInt_add]
      obtain ⟨hconnection, hpeer, hstreams, hnone⟩ :=
        ih (client.applySetting (.initialWindowSize new)) new
          (fun streamId => window streamId + ((new : ℤ) - initial)) rfl hwindow'
      refine ⟨hconnection, hpeer, ?_, ?_⟩
      · intro streamId
        refine (hstreams streamId).trans ?_
        congr 1
        simp only [List.foldl_cons, Setting.initialWindow]
        omega
      · intro streamId h
        have hmap := hnone streamId h
        simpa [Client.applySetting] using hmap

/-- SETTINGS of the peer move all windows by the same difference. -/
theorem controlled_settings {w : World} (h : Controlled w) (settings : SettingsFrame)
    (hflags : settings.flags ≠ 1) :
    Controlled ((w.change (·.applySettings settings.settings)).note
      (.received (.settings settings))) := by
  obtain ⟨hconnection, hpeer, hstreams, hnone⟩ := applySettings_windows settings.settings w.client
    (initialWindow w.log) (streamWindow · w.log) h.initial h.stream
  have hevent : Event.initialWindow (initialWindow w.log) (.received (.settings settings)) =
      settings.settings.foldl Setting.initialWindow (initialWindow w.log) := if_pos hflags
  refine h.step rfl ?_ ?_ ?_ ?_ nofun
  · refine hconnection.trans ?_
    simp [Event.connectionIncrement, Event.octets]
  · rw [hevent]
    exact hpeer
  · intro streamId
    rw [hevent, h.stream, ← Int64.ofInt_add]
    simp only [Event.streamIncrement, Event.octetsOn, Int.add_zero, Int.sub_zero]
    exact hstreams streamId
  · intro streamId hentry
    exact ⟨hnone streamId hentry, rfl⟩

/-- A WINDOW_UPDATE widens the window it names. -/
theorem controlled_windowUpdate {w : World} (h : Controlled w) (update : WindowUpdateFrame) :
    Controlled ((w.change (·.applyWindowUpdate update)).note (.received (.windowUpdate update))) := by
  by_cases hzero : update.streamId = 0
  · refine h.step rfl ?_ ?_ ?_ ?_ nofun
    · simp [World.note, World.change, Client.applyWindowUpdate, hzero, Event.connectionIncrement,
        Event.octets, Int64.ofInt_eq_ofNat]
    · simp only [World.note, World.change, Client.applyWindowUpdate, hzero, if_true]
      exact h.initial
    · intro streamId
      simp [World.note, World.change, Client.applyWindowUpdate, hzero, Event.streamIncrement,
        Event.octetsOn, Event.initialWindow, Client.streamSendWindow]
    · intro streamId hnone
      simp only [World.note, World.change, Client.applyWindowUpdate, hzero, if_true] at hnone
      exact ⟨hnone, by simp [Event.streamIncrement, Event.octetsOn, hzero]⟩
  · refine h.step rfl ?_ ?_ ?_ ?_ nofun
    · simp [World.note, World.change, Client.applyWindowUpdate, hzero, Event.connectionIncrement,
        Event.octets]
    · simp only [World.note, World.change, Client.applyWindowUpdate, hzero, if_false]
      exact h.initial
    · intro streamId
      by_cases hstream : update.streamId = streamId
      · subst hstream
        simp [World.note, World.change, Client.applyWindowUpdate, hzero, Event.streamIncrement,
          Event.octetsOn, Event.initialWindow, Client.streamSendWindow, Int64.ofInt_eq_ofNat]
      · have hother : streamId ≠ update.streamId := fun heq => hstream heq.symm
        simp [World.note, World.change, Client.applyWindowUpdate, hzero, Event.streamIncrement,
          Event.octetsOn, Event.initialWindow, Client.streamSendWindow, hstream,
          Function.update_of_ne hother]
    · intro streamId hnone
      simp only [World.note, World.change, Client.applyWindowUpdate, hzero, if_false] at hnone
      by_cases hstream : update.streamId = streamId
      · subst hstream
        simp at hnone
      · have hother : streamId ≠ update.streamId := fun heq => hstream heq.symm
        rw [Function.update_of_ne hother] at hnone
        exact ⟨hnone, by simp [Event.streamIncrement, Event.octetsOn, hstream]⟩

end Settings

section Steps

/-- The windows, and the log. -/
def SameWindows (w w' : World) : Prop :=
  w'.log = w.log ∧ w'.client.connSendWindow = w.client.connSendWindow ∧
    w'.client.peerInitialWindow = w.client.peerInitialWindow ∧
      w'.client.streamSendWindows = w.client.streamSendWindows

instance : IsPreorder World SameWindows where
  refl _ := ⟨rfl, rfl, rfl, rfl⟩
  trans _ _ _ h h' := ⟨h'.1.trans h.1, h'.2.1.trans h.2.1, h'.2.2.1.trans h.2.2.1,
    h'.2.2.2.trans h.2.2.2⟩

instance controlled_of_same {α : Type} {m : H2 α} [hm : Keeps SameWindows m] :
    Keeps (Program.Preserved Controlled) m :=
  hm.mono fun _ _ ⟨hlog, hconnection, hinitial, hstreams⟩ h =>
    h.congr hlog hconnection hinitial hstreams

instance await_sameWindows : Keeps SameWindows await := by
  constructor
  intro w
  unfold await
  split
  · exact ⟨rfl, rfl, rfl, rfl⟩
  · exact ⟨rfl, rfl, rfl, rfl⟩
  · exact ⟨rfl, rfl, rfl, rfl⟩
  · exact ⟨rfl, rfl, rfl, rfl⟩

instance flush_sameWindows : Keeps SameWindows flush := by
  unfold flush
  infer_instance

instance readSocket_sameWindows : Keeps SameWindows readSocket := by
  unfold readSocket
  refine Keeps.bind inferInstance fun bytes => Keeps.bind ?_ fun _ => inferInstance
  exact Keeps.modify fun w => ⟨rfl, rfl, rfl, rfl⟩

instance nextFrame_sameWindows (rounds : ℕ) : Keeps SameWindows (nextFrame rounds) := by
  induction rounds with
  | zero =>
    unfold nextFrame
    infer_instance
  | succ rounds ih =>
    unfold nextFrame
    refine Keeps.bind inferInstance fun w => ?_
    split
    · infer_instance
    · refine Keeps.bind ?_ fun _ => inferInstance
      exact Keeps.modify fun w => ⟨rfl, rfl, rfl, rfl⟩
    · refine Keeps.bind inferInstance fun bytes => ?_
      have hbuffer : Keeps SameWindows (Prog.modify (World.change fun client =>
          { client with recvBuf := client.recvBuf ++ bytes }) : H2 Unit) :=
        Keeps.modify fun w => ⟨rfl, rfl, rfl, rfl⟩
      infer_instance

/-- A frame other than DATA takes nothing off the windows. -/
theorem writeAll_controlled {frame : Written} (hquiet : (Event.wrote frame).Quiet)
    (hfits : ∀ w, Controlled w → ∀ data, frame = .data data → Fits w.log data) :
    Keeps (Program.Preserved Controlled) (writeAll frame) := by
  unfold writeAll
  refine Keeps.bind inferInstance fun _ => Keeps.modify fun w h => ?_
  exact h.quiet rfl hquiet rfl rfl rfl fun data heq => hfits w h data (Event.wrote.inj heq)

instance writeAll_settings_controlled (frame : SettingsFrame) :
    Keeps (Program.Preserved Controlled) (writeAll (.settings frame)) :=
  writeAll_controlled ⟨fun _ => rfl, rfl, fun _ => rfl, rfl, fun _ => rfl⟩ nofun

instance writeAll_windowUpdate_controlled (frame : WindowUpdateFrame) :
    Keeps (Program.Preserved Controlled) (writeAll (.windowUpdate frame)) :=
  writeAll_controlled ⟨fun _ => rfl, rfl, fun _ => rfl, rfl, fun _ => rfl⟩ nofun

instance writeAll_headers_controlled (streamId : ℕ) :
    Keeps (Program.Preserved Controlled) (writeAll (.headers streamId)) :=
  writeAll_controlled ⟨fun _ => rfl, rfl, fun _ => rfl, rfl, fun _ => rfl⟩ nofun

/-- An empty DATA frame takes nothing off the windows, and is sent whatever they are. -/
instance writeAll_empty_controlled (streamId : ℕ) (endStream : Bool) :
    Keeps (Program.Preserved Controlled) (writeAll (.data ⟨streamId, [], endStream⟩)) := by
  refine writeAll_controlled ⟨fun _ => rfl, rfl, fun _ => rfl, rfl, ?_⟩ ?_
  · intro other
    simp [Event.octetsOn]
  · intro w _ data heq
    cases heq
    exact ⟨Nat.zero_le _, fun hne => absurd rfl hne⟩

/-- A frame that changes no window is received. -/
theorem receive_controlled {frame : Frame} {f : Client → Client}
    (hquiet : (Event.received frame).Quiet)
    (hsame : ∀ client, (f client).connSendWindow = client.connSendWindow ∧
      (f client).peerInitialWindow = client.peerInitialWindow ∧
        (f client).streamSendWindows = client.streamSendWindows) :
    Keeps (Program.Preserved Controlled) (receive frame f) := by
  unfold receive
  refine Keeps.modify fun w h => ?_
  obtain ⟨hconnection, hinitial, hstreams⟩ := hsame w.client
  exact h.quiet rfl hquiet hconnection hinitial hstreams nofun

instance pump_controlled (rounds : ℕ) : Keeps (Program.Preserved Controlled) (pump rounds) := by
  unfold pump
  refine Keeps.bind inferInstance fun frame => ?_
  cases frame with
  | settings settings =>
    by_cases hflags : settings.flags ≠ 1
    · dsimp only
      rw [if_pos hflags]
      refine Keeps.bind ?_ fun _ => inferInstance
      exact Keeps.modify fun w h => controlled_settings h settings hflags
    · dsimp only
      rw [if_neg hflags]
      refine receive_controlled ⟨fun _ => if_neg hflags, rfl, fun _ => rfl, rfl, fun _ => rfl⟩ ?_
      exact fun client => ⟨rfl, rfl, rfl⟩
  | windowUpdate update => exact Keeps.modify fun w h => controlled_windowUpdate h update
  | rstStream streamId =>
    refine Keeps.bind inferInstance fun w => Keeps.bind ?_ fun _ => inferInstance
    refine receive_controlled ⟨fun _ => rfl, rfl, fun _ => rfl, rfl, fun _ => rfl⟩ ?_
    exact fun client => ⟨rfl, rfl, rfl⟩
  | data data =>
    refine Keeps.bind ?_ fun _ => inferInstance
    refine receive_controlled ⟨fun _ => rfl, rfl, fun _ => rfl, rfl, fun _ => rfl⟩ ?_
    exact fun client => ⟨rfl, rfl, rfl⟩
  | headers streamId =>
    refine receive_controlled ⟨fun _ => rfl, rfl, fun _ => rfl, rfl, fun _ => rfl⟩ ?_
    exact fun client => ⟨rfl, rfl, rfl⟩

instance readLoop_controlled (streamIds : List ℕ) (rounds pumpRounds : ℕ) :
    Keeps (Program.Preserved Controlled) (readLoop streamIds rounds pumpRounds) := by
  induction rounds with
  | zero =>
    unfold readLoop
    infer_instance
  | succ rounds ih =>
    unfold readLoop
    refine Keeps.bind inferInstance fun w => ?_
    split
    · refine Keeps.bind (Keeps.modify fun s h => ?_) fun _ => inferInstance
      exact h.quiet rfl ⟨fun _ => rfl, rfl, fun _ => rfl, rfl, fun _ => rfl⟩ rfl rfl rfl nofun
    · exact Keeps.bind inferInstance fun _ => ih

instance openCache_controlled (streamId : ℕ) :
    Keeps SameWindows (Prog.modify (World.change (·.openCache streamId)) : H2 Unit) :=
  Keeps.modify fun _ => ⟨rfl, rfl, rfl, rfl⟩

instance readAny_controlled (rounds : ℕ) (streamIds : List ℕ) :
    Keeps (Program.Preserved Controlled) (readAny rounds streamIds) := by
  unfold readAny
  infer_instance

/-- The entry of a stream is what its window was without one. -/
theorem seedWindow_streamSendWindow (client : Client) (streamId other : ℕ) :
    (client.seedWindow streamId).streamSendWindow other = client.streamSendWindow other := by
  unfold Client.streamSendWindow Client.seedWindow
  by_cases hother : other = streamId
  · subst hother
    simp
  · simp [Function.update_of_ne hother]

theorem controlled_seedWindow {w : World} (h : Controlled w) (streamId : ℕ) :
    Controlled (w.change (·.seedWindow streamId)) := by
  constructor
  · exact h.connection
  · intro other
    exact (seedWindow_streamSendWindow w.client streamId other).trans (h.stream other)
  · exact h.initial
  · intro other hnone
    refine h.unused other ?_
    by_cases hother : other = streamId
    · subst hother
      simp [World.change, Client.seedWindow] at hnone
    · simpa [World.change, Client.seedWindow, Function.update_of_ne hother] using hnone
  · exact h.fits

/-- The windows that were awaited are wide enough, and the stream has its entry. -/
structure Roomy (streamId : ℕ) (need : Int64) (w : World) : Prop extends Controlled w where
  wide : ¬ w.client.connSendWindow < need
  wideStream : ¬ w.client.streamSendWindow streamId < need
  seeded : w.client.streamSendWindows streamId = some (w.client.streamSendWindow streamId)

theorem awaitWindows_roomy (streamId : ℕ) (need : Int64) (rounds pumpRounds : ℕ) :
    Triple Controlled (awaitWindows streamId need rounds pumpRounds)
      (fun _ => Roomy streamId need) (fun _ => Controlled) Controlled := by
  induction rounds with
  | zero => exact fun _ h => h
  | succ rounds ih =>
    have hpump : Triple Controlled (pump pumpRounds) (fun _ => Controlled) (fun _ => Controlled)
        Controlled := invariant_iff.mp inferInstance
    unfold awaitWindows
    refine Triple.bind (Q := fun w s => s = w ∧ Controlled s)
      (Triple.get fun s h => ⟨rfl, h⟩) fun w => ?_
    refine Triple.ite (fun _ => ?_) fun hwide => ?_
    · exact Triple.bind (hpump.pre fun _ h => h.2) fun _ => ih
    refine Triple.bind (Q := fun _ s => s = w.change (·.seedWindow streamId) ∧ Controlled s)
      (Triple.modify ?_) fun _ => ?_
    · intro s hstate
      obtain ⟨hs, h⟩ := hstate
      subst hs
      exact ⟨rfl, controlled_seedWindow h streamId⟩
    refine Triple.ite (fun _ => ?_) fun hstream => ?_
    · exact Triple.bind (hpump.pre fun _ h => h.2) fun _ => ih
    refine Triple.pure fun s hstate => ?_
    obtain ⟨hs, h⟩ := hstate
    subst hs
    have hwindow := seedWindow_streamSendWindow w.client streamId streamId
    refine ⟨h, hwide, ?_, ?_⟩
    · show ¬ (w.client.seedWindow streamId).streamSendWindow streamId < need
      rw [hwindow]
      exact hstream
    · show (w.client.seedWindow streamId).streamSendWindows streamId =
        some ((w.client.seedWindow streamId).streamSendWindow streamId)
      rw [hwindow]
      simp [Client.seedWindow, Client.streamSendWindow]

/-- A window that is not narrower than the payload has room for it. -/
theorem le_window {payload : Bytes} {window : Int64} (hlength : payload.length ≤ 16384)
    (h : ¬ window < Int64.ofNat payload.length) : (payload.length : ℤ) ≤ window.toInt := by
  rw [Int64.lt_iff_toInt_lt, Int64.toInt_ofNat_of_lt (by omega)] at h
  omega

theorem Roomy.of_same {streamId : ℕ} {need : Int64} {w w' : World} (h : Roomy streamId need w)
    (hsame : SameWindows w w') : Roomy streamId need w' := by
  obtain ⟨hlog, hconnection, hinitial, hstreams⟩ := hsame
  have hwindow : w'.client.streamSendWindow streamId = w.client.streamSendWindow streamId := by
    unfold Client.streamSendWindow
    rw [hstreams, hinitial]
  refine ⟨h.congr hlog hconnection hinitial hstreams, ?_, ?_, ?_⟩
  · rw [hconnection]
    exact h.wide
  · rw [hwindow]
    exact h.wideStream
  · rw [hstreams, hwindow]
    exact h.seeded

/-- What a DATA frame takes off the windows. -/
theorem controlled_sendData {w : World} {frame : DataFrame} {window : Int64}
    (hlength : frame.payload.length ≤ 16384)
    (h : Roomy frame.streamId (Int64.ofNat frame.payload.length) w)
    (hwindow : w.client.streamSendWindows frame.streamId = some window) :
    Controlled ((w.change fun client => { client with
      connSendWindow := client.connSendWindow - Int64.ofNat frame.payload.length
      streamSendWindows := Function.update client.streamSendWindows frame.streamId
        (some (window - Int64.ofNat frame.payload.length)) }).note (.wrote (.data frame))) := by
  have hentry : w.client.streamSendWindow frame.streamId = window := by
    unfold Client.streamSendWindow
    rw [hwindow, Option.getD_some]
  refine h.toControlled.step rfl ?_ ?_ ?_ ?_ ?_
  · simp [World.note, World.change, Event.connectionIncrement, Event.octets, Int64.sub_eq_add_neg,
      Int64.ofInt_neg, Int64.ofInt_eq_ofNat]
  · exact h.initial
  · intro streamId
    by_cases hstream : frame.streamId = streamId
    · subst hstream
      rw [hentry]
      simp [World.note, World.change, Client.streamSendWindow, Event.initialWindow,
        Event.streamIncrement, Event.octetsOn, Int64.sub_eq_add_neg, Int64.ofInt_neg,
        Int64.ofInt_eq_ofNat]
    · have hother : streamId ≠ frame.streamId := fun heq => hstream heq.symm
      simp [World.note, World.change, Client.streamSendWindow, Event.initialWindow,
        Event.streamIncrement, Event.octetsOn, hstream, Function.update_of_ne hother]
  · intro streamId hnone
    have hother : streamId ≠ frame.streamId := by
      intro heq
      subst heq
      simp [World.note, World.change] at hnone
    have hbefore : w.client.streamSendWindows streamId = none := by
      simpa [World.note, World.change, Function.update_of_ne hother] using hnone
    exact ⟨hbefore, (if_neg fun heq => hother heq.symm).symm⟩
  · intro data heq
    cases heq
    refine ⟨hlength, fun _ => ⟨?_, ?_⟩⟩
    · rw [← h.connection]
      exact le_window hlength h.wide
    · rw [← h.stream]
      exact le_window hlength h.wideStream

theorem sendData_controlled (frame : DataFrame) (hlength : frame.payload.length ≤ 16384) :
    Triple (Roomy frame.streamId (Int64.ofNat frame.payload.length)) (sendData frame)
      (fun _ => Controlled) (fun _ => Controlled) Controlled := by
  have hawait := Keeps.triple await_sameWindows fun w w'
    (h : Roomy frame.streamId (Int64.ofNat frame.payload.length) w) hsame => h.of_same hsame
  unfold sendData
  refine Triple.bind (hawait.conseq (fun _ => id) (fun _ _ => id) (fun _ _ h => h.toControlled)
    fun _ h => h.toControlled) fun _ => ?_
  refine Triple.bind (Q := fun w s => s = w ∧
    Roomy frame.streamId (Int64.ofNat frame.payload.length) s) (Triple.get fun s h => ⟨rfl, h⟩)
      fun w => ?_
  split
  · exact Triple.fail fun _ h => h.2.toControlled
  · rename_i window hwindow
    refine Triple.modify fun s hstate => ?_
    obtain ⟨hs, h⟩ := hstate
    subst hs
    exact controlled_sendData hlength h hwindow

/-- The pieces are not longer than a frame, not empty, and together the payload. -/
theorem chunksFrom_spec (count : ℕ) (bytes : Bytes) (hcount : bytes.length ≤ count) :
    (chunksFrom count bytes).flatten = bytes ∧
      ∀ chunk ∈ chunksFrom count bytes, chunk.length ≤ maxFrameSize ∧ chunk ≠ [] := by
  induction count generalizing bytes with
  | zero =>
    have hempty : bytes = [] := List.length_eq_zero_iff.mp (by omega)
    subst hempty
    exact ⟨rfl, by simp [chunksFrom]⟩
  | succ count ih =>
    by_cases hempty : bytes = []
    · subst hempty
      exact ⟨by simp [chunksFrom], by simp [chunksFrom]⟩
    · have hpositive : 0 < bytes.length := List.length_pos_iff.mpr hempty
      obtain ⟨hflatten, hchunks⟩ := ih (bytes.drop maxFrameSize) (by
        rw [List.length_drop, maxFrameSize]
        omega)
      simp only [chunksFrom, if_neg hempty]
      constructor
      · rw [List.flatten_cons, hflatten, List.take_append_drop]
      · intro chunk hchunk
        rcases List.mem_cons.mp hchunk with rfl | hmem
        · refine ⟨List.length_take_le .., fun htake => ?_⟩
          have hlength := congrArg List.length htake
          rw [List.length_take, List.length_nil, maxFrameSize] at hlength
          omega
        · exact hchunks chunk hmem

theorem sendChunks_controlled (rounds streamId : ℕ) (endStream : Bool) (chunks : List Bytes)
    (hchunks : ∀ chunk ∈ chunks, chunk.length ≤ maxFrameSize) :
    Keeps (Program.Preserved Controlled) (sendChunks rounds streamId endStream chunks) := by
  induction chunks with
  | nil =>
    unfold sendChunks
    infer_instance
  | cons chunk rest ih =>
    unfold sendChunks
    refine Keeps.restore (awaitWindows_roomy streamId _ rounds rounds) fun _ => ?_
    refine Triple.bind (sendData_controlled ⟨streamId, chunk, endStream && rest.isEmpty⟩
      (hchunks chunk (List.mem_cons_self ..))) fun _ => ?_
    exact invariant_iff.mp (ih fun other hother => hchunks other (List.mem_cons_of_mem _ hother))

instance sendInner_controlled (rounds : ℕ) (payload : Bytes) (streamId : ℕ) (endStream : Bool) :
    Keeps (Program.Preserved Controlled) (sendInner rounds payload streamId endStream) := by
  have hchunks := sendChunks_controlled rounds streamId endStream (chunks payload)
    fun chunk hchunk => ((chunksFrom_spec _ payload (Nat.le_refl _)).2 chunk hchunk).1
  unfold sendInner
  infer_instance

theorem call_controlled (rounds : ℕ) (call : Call) :
    Keeps (Program.Preserved Controlled) (call.run rounds) := by
  cases call with
  | setSettings settings streamId =>
    exact Keeps.bind inferInstance fun _ => inferInstance
  | windowUpdate incrementSize streamId =>
    exact Keeps.bind inferInstance fun _ => inferInstance
  | openStream streamId =>
    refine Keeps.bind inferInstance fun _ => ?_
    exact Keeps.bind inferInstance fun _ => inferInstance
  | send payload streamId => exact sendInner_controlled rounds payload streamId false
  | sendEndStream payload streamId =>
    have hfinish : Keeps SameWindows (Prog.modify (World.change fun client => { client with
        finishedFileTransferStreams := insert streamId client.finishedFileTransferStreams }) : H2 Unit) :=
      Keeps.modify fun w => ⟨rfl, rfl, rfl, rfl⟩
    exact Keeps.bind inferInstance fun _ => sendInner_controlled rounds payload streamId true
  | read streamId =>
    refine Keeps.bind ?_ fun _ => inferInstance
    exact Keeps.bind (readAny_controlled rounds [streamId]) fun _ => inferInstance
  | readAny streamIds =>
    exact Keeps.bind (readAny_controlled rounds streamIds) fun _ => inferInstance

end Steps

theorem runCalls_controlled (rounds : ℕ) (answers : List Answer) (calls : List Call) :
    Controlled (runCalls rounds calls (World.new answers)) := by
  have hnew : Controlled (World.new answers) := by
    refine ⟨rfl, fun _ => rfl, rfl, fun _ _ => rfl, ?_⟩
    intro before frame after hlog
    exact absurd (congrArg List.length hlog) (by simp [World.new])
  have hrun : ∀ w, Controlled w → Controlled (runCalls rounds calls w) := by
    induction calls with
    | nil => exact fun _ h => h
    | cons call calls ih =>
      intro w h
      exact ih _ ((call_controlled rounds call).keeps w h)
  exact hrun _ hnew

section Calls

def Event.data? : Event → Option DataFrame
  | .wrote (.data frame) => some frame
  | _ => none

/-- The DATA frames that were sent. -/
def dataFrames (log : List Event) : List DataFrame := log.filterMap Event.data?

/-- The payload, the stream and whether the stream ends, of a call that sends. -/
def Call.sends : Call → Option (Bytes × ℕ × Bool)
  | .send payload streamId => some (payload, streamId, false)
  | .sendEndStream payload streamId => some (payload, streamId, true)
  | _ => none

/-- The frames carry the payload on one stream, and at most the last one ends it. -/
structure Carries (payload : Bytes) (streamId : ℕ) (endStream : Bool) (frames : List DataFrame) :
    Prop where
  payload : (frames.map DataFrame.payload).flatten = payload
  stream : ∀ frame ∈ frames, frame.streamId = streamId
  ending : ∃ front last, frames = front ++ [last] ∧ last.endStream = endStream ∧
    ∀ frame ∈ front, frame.endStream = false

/-- A call that sends has sent the first of its frames, and all of them if it returns. -/
def SendsWhole (rounds : ℕ) (call : Call) (w : World) : Prop :=
  match call.sends with
  | none => True
  | some (payload, streamId, endStream) =>
    let result := call.run rounds w
    ∃ frames rest, dataFrames result.2.log = dataFrames w.log ++ frames ∧
      Carries payload streamId endStream (frames ++ rest) ∧ (result.1 = .done () → rest = [])

/-- No DATA frame is sent. -/
def SameSent (w w' : World) : Prop := dataFrames w'.log = dataFrames w.log

instance : IsPreorder World SameSent where
  refl _ := rfl
  trans _ _ _ h h' := h'.trans h

instance sameSent_of_same {α : Type} {m : H2 α} [hm : Keeps SameWindows m] : Keeps SameSent m :=
  hm.mono fun _ _ hsame => congrArg dataFrames hsame.1

theorem dataFrames_snoc (log : List Event) (event : Event) :
    dataFrames (log ++ [event]) = dataFrames log ++ event.data?.toList := by
  unfold dataFrames
  rw [List.filterMap_append]
  cases hdata : event.data? with
  | none => simp [hdata]
  | some frame => simp [hdata]

theorem sameSent_note {event : Event} (hdata : event.data? = none) (f : Client → Client) (w : World) :
    SameSent w ((w.change f).note event) := by
  unfold SameSent
  show dataFrames (w.log ++ [event]) = _
  rw [dataFrames_snoc, hdata, Option.toList_none, List.append_nil]

theorem writeAll_sameSent {frame : Written} (hdata : (Event.wrote frame).data? = none) :
    Keeps SameSent (writeAll frame) := by
  unfold writeAll
  exact Keeps.bind inferInstance fun _ => Keeps.modify fun w => sameSent_note hdata id w

instance receive_sameSent (frame : Frame) (f : Client → Client) : Keeps SameSent (receive frame f) :=
  Keeps.modify fun w => sameSent_note rfl f w

instance pump_sameSent (rounds : ℕ) : Keeps SameSent (pump rounds) := by
  have hsettings : ∀ frame, Keeps SameSent (writeAll (.settings frame)) :=
    fun _ => writeAll_sameSent rfl
  have hupdate : ∀ frame, Keeps SameSent (writeAll (.windowUpdate frame)) :=
    fun _ => writeAll_sameSent rfl
  unfold pump
  refine Keeps.bind inferInstance fun frame => ?_
  cases frame with
  | settings settings =>
    dsimp only
    infer_instance
  | windowUpdate update =>
    dsimp only
    infer_instance
  | rstStream streamId =>
    dsimp only
    infer_instance
  | data data =>
    dsimp only
    infer_instance
  | headers streamId =>
    dsimp only
    infer_instance

instance awaitWindows_sameSent (streamId : ℕ) (need : Int64) (rounds pumpRounds : ℕ) :
    Keeps SameSent (awaitWindows streamId need rounds pumpRounds) := by
  induction rounds with
  | zero =>
    unfold awaitWindows
    infer_instance
  | succ rounds ih =>
    have hseed : Keeps SameSent (Prog.modify (World.change (·.seedWindow streamId)) : H2 Unit) :=
      Keeps.modify fun w => rfl
    unfold awaitWindows
    infer_instance

/-- The frames that `sendChunks` is to send. -/
def chunkFrames (streamId : ℕ) (endStream : Bool) : List Bytes → List DataFrame
  | [] => []
  | chunk :: rest => ⟨streamId, chunk, endStream && rest.isEmpty⟩ ::
      chunkFrames streamId endStream rest

/-- After the base, some first frames of those in `frames` were sent. -/
def SentSome (base frames : List DataFrame) (w : World) : Prop :=
  ∃ sent rest, sent ++ rest = frames ∧ dataFrames w.log = base ++ sent

theorem SentSome.none {base frames : List DataFrame} {w : World} (h : dataFrames w.log = base) :
    SentSome base frames w := ⟨[], frames, rfl, by rw [h, List.append_nil]⟩

theorem SentSome.cons {base frames : List DataFrame} {frame : DataFrame} {w : World}
    (h : SentSome (base ++ [frame]) frames w) : SentSome base (frame :: frames) w := by
  obtain ⟨sent, rest, hframes, hlog⟩ := h
  refine ⟨frame :: sent, rest, by rw [← hframes]; rfl, ?_⟩
  rw [hlog, List.append_assoc]
  rfl

/-- A program that sends no DATA frame, in the midst of a call. -/
theorem sent_of_same {α : Type} {m : H2 α} [hm : Keeps SameSent m] (base frames : List DataFrame) :
    Triple (fun w => dataFrames w.log = base) m (fun _ w => dataFrames w.log = base)
      (fun _ => SentSome base frames) (SentSome base frames) :=
  (Keeps.triple hm fun _ _ hbase hsame => Eq.trans hsame hbase).conseq (fun _ => id) (fun _ _ => id)
    (fun _ _ h => .none h) fun _ h => .none h

theorem sendData_sent (base frames : List DataFrame) (frame : DataFrame) :
    Triple (fun w => dataFrames w.log = base) (sendData frame)
      (fun _ w => dataFrames w.log = base ++ [frame]) (fun _ => SentSome base frames)
      (SentSome base frames) := by
  unfold sendData
  refine Triple.bind (sent_of_same base frames) fun _ => ?_
  refine Triple.bind (sent_of_same base frames) fun w => ?_
  split
  · exact Triple.fail fun _ h => .none h
  · refine Triple.modify fun s h => ?_
    show dataFrames (s.log ++ [.wrote (.data frame)]) = _
    rw [dataFrames_snoc, h]
    rfl

theorem sendChunks_sent (rounds streamId : ℕ) (endStream : Bool) (chunks : List Bytes)
    (base : List DataFrame) :
    Triple (fun w => dataFrames w.log = base) (sendChunks rounds streamId endStream chunks)
      (fun _ w => dataFrames w.log = base ++ chunkFrames streamId endStream chunks)
      (fun _ => SentSome base (chunkFrames streamId endStream chunks))
      (SentSome base (chunkFrames streamId endStream chunks)) := by
  induction chunks generalizing base with
  | nil =>
    unfold sendChunks
    refine (sent_of_same base []).post fun _ w h => ?_
    rw [h, chunkFrames, List.append_nil]
  | cons chunk rest ih =>
    unfold sendChunks
    refine Triple.bind (sent_of_same base _) fun _ => ?_
    refine Triple.bind (sendData_sent base _ _) fun _ => ?_
    have hcons : ∀ w, SentSome (base ++ [⟨streamId, chunk, endStream && rest.isEmpty⟩])
        (chunkFrames streamId endStream rest) w →
          SentSome base (chunkFrames streamId endStream (chunk :: rest)) w := fun _ h => h.cons
    refine (ih (base ++ [⟨streamId, chunk, endStream && rest.isEmpty⟩])).conseq (fun _ => id) ?_
      (fun _ => hcons) hcons
    intro _ w h
    rw [h, List.append_assoc]
    rfl

theorem chunkFrames_carries (streamId : ℕ) (endStream : Bool) (chunks : List Bytes)
    (hchunks : chunks ≠ []) :
    Carries chunks.flatten streamId endStream (chunkFrames streamId endStream chunks) := by
  induction chunks with
  | nil => exact absurd rfl hchunks
  | cons chunk rest ih =>
    by_cases hrest : rest = []
    · subst hrest
      exact ⟨by simp [chunkFrames], by simp [chunkFrames], [], ⟨streamId, chunk, endStream⟩,
        by simp [chunkFrames], rfl, by simp⟩
    · obtain ⟨hpayload, hstream, front, last, hframes, hlast, hfront⟩ := ih hrest
      constructor
      · simp only [chunkFrames, List.map_cons, List.flatten_cons, hpayload]
      · intro frame hframe
        rcases List.mem_cons.mp hframe with rfl | hmem
        · rfl
        · exact hstream frame hmem
      · have hempty : rest.isEmpty = false := List.isEmpty_eq_false_iff.mpr hrest
        refine ⟨⟨streamId, chunk, false⟩ :: front, last, ?_, hlast, ?_⟩
        · simp only [chunkFrames, hframes, hempty, Bool.and_false, List.cons_append]
        · intro frame hframe
          rcases List.mem_cons.mp hframe with rfl | hmem
          · rfl
          · exact hfront frame hmem

/-- All frames of a call. -/
def callFrames (payload : Bytes) (streamId : ℕ) (endStream : Bool) : List DataFrame :=
  if chunks payload = [] then [⟨streamId, [], endStream⟩]
  else chunkFrames streamId endStream (chunks payload)

theorem callFrames_carries (payload : Bytes) (streamId : ℕ) (endStream : Bool) :
    Carries payload streamId endStream (callFrames payload streamId endStream) := by
  have hflatten := (chunksFrom_spec _ payload (Nat.le_refl _)).1
  unfold callFrames
  split
  · rename_i hempty
    have hpayload : payload = [] := by
      rw [← hflatten]
      exact congrArg List.flatten hempty
    subst hpayload
    exact ⟨rfl, by simp, [], ⟨streamId, [], endStream⟩, rfl, rfl, by simp⟩
  · rename_i hchunks
    have hcarries := chunkFrames_carries streamId endStream (chunks payload) hchunks
    rwa [show (chunks payload).flatten = payload from hflatten] at hcarries

theorem sendInner_sent (rounds : ℕ) (payload : Bytes) (streamId : ℕ) (endStream : Bool)
    (base : List DataFrame) :
    Triple (fun w => dataFrames w.log = base) (sendInner rounds payload streamId endStream)
      (fun _ w => dataFrames w.log = base ++ callFrames payload streamId endStream)
      (fun _ => SentSome base (callFrames payload streamId endStream))
      (SentSome base (callFrames payload streamId endStream)) := by
  unfold sendInner callFrames
  split
  · refine Triple.bind (Q := fun _ w => dataFrames w.log = base ++ [⟨streamId, [], endStream⟩]) ?_ fun _ => ?_
    · unfold writeAll
      refine Triple.bind (sent_of_same base _) fun _ => Triple.modify fun w h => ?_
      show dataFrames (w.log ++ [.wrote (.data ⟨streamId, [], endStream⟩)]) = _
      rw [dataFrames_snoc, h]
      rfl
    · refine (Keeps.triple flush_sameWindows fun w w' h hsame => ?_).conseq (fun _ => id)
        (fun _ _ => id) ?_ ?_
      · exact (congrArg dataFrames hsame.1).trans h
      · exact fun _ w h => ⟨_, [], List.append_nil _, h⟩
      · exact fun w h => ⟨_, [], List.append_nil _, h⟩
  · exact sendChunks_sent rounds streamId endStream (chunks payload) base

theorem sendsWhole_of_triple {rounds : ℕ} {call : Call} {payload : Bytes} {streamId : ℕ}
    {endStream : Bool} (hsends : call.sends = some (payload, streamId, endStream)) (w : World)
    (h : Triple (fun s => dataFrames s.log = dataFrames w.log) (call.run rounds)
      (fun _ s => dataFrames s.log = dataFrames w.log ++ callFrames payload streamId endStream)
      (fun _ => SentSome (dataFrames w.log) (callFrames payload streamId endStream))
      (SentSome (dataFrames w.log) (callFrames payload streamId endStream))) :
    SendsWhole rounds call w := by
  have hcarries := callFrames_carries payload streamId endStream
  have hends := h w rfl
  unfold SendsWhole
  rw [hsends]
  dsimp only
  rcases heq : call.run rounds w with ⟨outcome, w'⟩
  rw [heq] at hends
  have hsome : SentSome (dataFrames w.log) (callFrames payload streamId endStream) w' →
      outcome ≠ .done () → ∃ frames rest, dataFrames w'.log = dataFrames w.log ++ frames ∧
        Carries payload streamId endStream (frames ++ rest) ∧ (outcome = .done () → rest = []) := by
    intro ⟨sent, rest, hframes, hlog⟩ hdone
    refine ⟨sent, rest, hlog, ?_, fun hdone' => absurd hdone' hdone⟩
    rwa [hframes]
  cases outcome with
  | done value =>
    refine ⟨callFrames payload streamId endStream, [], hends, ?_, fun _ => rfl⟩
    rwa [List.append_nil]
  | failed error => exact hsome hends nofun
  | stopped => exact hsome hends nofun

theorem call_sendsWhole (rounds : ℕ) (call : Call) (w : World) : SendsWhole rounds call w := by
  cases call with
  | send payload streamId =>
    exact sendsWhole_of_triple rfl w (sendInner_sent rounds payload streamId false _)
  | sendEndStream payload streamId =>
    refine sendsWhole_of_triple rfl w (Triple.bind ?_ fun _ =>
      sendInner_sent rounds payload streamId true _)
    exact Triple.modify fun _ h => h
  | setSettings | windowUpdate | openStream | read | readAny => exact True.intro

end Calls

/-- In every run the windows are those of the log and every DATA frame fitted them; a
call that sends from there sends its payload. -/
theorem runCalls_flow (rounds : ℕ) (answers : List Answer) (calls : List Call) :
    Controlled (runCalls rounds calls (World.new answers)) ∧
      ∀ call, SendsWhole rounds call (runCalls rounds calls (World.new answers)) :=
  ⟨runCalls_controlled rounds answers calls, fun call => call_sendsWhole rounds call _⟩

/-- SETTINGS with `InitialWindowSize` 0 reach a stream on which an octet was sent, and
an empty frame is sent on it. -/
theorem emptyFrame_exceeds :
    ∃ before frame after, (runCalls 2 [.send [1] 1, .read 1, .send [] 1]
        (World.new [.ready [], .ready [], .ready [0, 0, 6, 4, 0, 0, 0, 0, 0, 0, 4, 0, 0, 0, 0],
          .ready [], .ready [], .dropped, .ready [], .ready []])).log =
        before ++ .wrote (.data frame) :: after ∧
      ¬ (frame.payload.length : ℤ) ≤ streamWindow frame.streamId before := by
  refine ⟨[.wrote (.data ⟨1, [1], false⟩), .received (.settings ⟨[.initialWindowSize 0], 0, 0⟩),
    .wrote (.settings ⟨[], 0, 1⟩)], ⟨1, [], false⟩, [], ?_, ?_⟩
  · decide
  · decide

end XitForge.Http2
