import XitForge.Http2.Client

/-!
What arrives on a stream is returned or is in the cache. The payloads are judged by
the frames that the client has taken out of its buffer, and these frames by the
bytes that the socket has handed over, in whatever pieces it did.
-/
namespace XitForge.Http2

open Program

/-- The bytes begin with these frames, and end in the rest. -/
inductive Framed : Bytes → List Frame → Bytes → Prop
  | none (bytes : Bytes) : Framed bytes [] bytes
  | next {bytes rest : Bytes} {frame : Frame} {consumed : ℕ} {frames : List Frame}
      (hframe : Frame.parse bytes = .ok (some (frame, consumed)))
      (hrest : Framed (bytes.drop consumed) frames rest) : Framed bytes (frame :: frames) rest

def Event.frame? : Event → Option Frame
  | .received frame => some frame
  | _ => none

/-- The frames that were taken out of the buffer. -/
def framesOf (log : List Event) : List Frame := log.filterMap Event.frame?

def Frame.payloadOn (streamId : ℕ) : Frame → Option Bytes
  | .data frame => if frame.streamId = streamId then some frame.payload else none
  | _ => none

/-- The DATA payloads of a stream. -/
def payloadsOn (streamId : ℕ) (frames : List Frame) : List Bytes :=
  frames.filterMap (Frame.payloadOn streamId)

def Event.returnedOn (streamId : ℕ) : Event → Option Bytes
  | .returned id payload => if id = streamId then some payload else none
  | _ => none

/-- What was returned of a stream. -/
def returnedOn (streamId : ℕ) (log : List Event) : List Bytes :=
  log.filterMap (Event.returnedOn streamId)

def Client.cached (client : Client) (streamId : ℕ) : List Bytes := (client.cache streamId).getD []

/-- Nothing that was received is lost, doubled or out of order. -/
structure Delivered (w : World) : Prop where
  framed : Framed w.received (framesOf w.log) w.client.recvBuf
  payloads : ∀ streamId, returnedOn streamId w.log ++ w.client.cached streamId =
    payloadsOn streamId (framesOf w.log)

section Framing

variable {bytes rest : Bytes} {frames : List Frame}

theorem parse_eq_some_iff {frame : Frame} {consumed : ℕ} :
    Frame.parse bytes = .ok (some (frame, consumed)) ↔
      9 ≤ bytes.length ∧ consumed = frameTotal bytes ∧ frameTotal bytes ≤ bytes.length ∧
        frameAt bytes = .ok frame := by
  unfold Frame.parse
  by_cases hheader : bytes.length < 9
  · rw [if_pos hheader]
    exact iff_of_false nofun fun h => absurd h.1 (by omega)
  by_cases hbody : bytes.length < frameTotal bytes
  · rw [if_neg hheader, if_pos hbody]
    exact iff_of_false nofun fun h => absurd h.2.2.1 (by omega)
  rw [if_neg hheader, if_neg hbody]
  cases frameAt bytes with
  | error error => exact iff_of_false nofun fun h => nomatch h.2.2.2
  | ok other =>
    constructor
    · intro h
      cases h
      exact ⟨by omega, rfl, by omega, rfl⟩
    · intro ⟨_, hconsumed, _, hframe⟩
      cases hframe
      rw [hconsumed]

/-- The bytes of a frame do not depend on what is behind them. -/
theorem frameTotal_append (hlength : 9 ≤ bytes.length) (more : Bytes) :
    frameTotal (bytes ++ more) = frameTotal bytes := by
  unfold frameTotal
  rw [List.take_append_of_le_length (by omega)]

theorem frameAt_append (hlength : 9 ≤ bytes.length) (htotal : frameTotal bytes ≤ bytes.length)
    (more : Bytes) : frameAt (bytes ++ more) = frameAt bytes := by
  have hbyte : ∀ index, index < 9 → (bytes ++ more).getD index 0 = bytes.getD index 0 := by
    intro index hindex
    rw [List.getD_eq_getElem?_getD, List.getD_eq_getElem?_getD,
      List.getElem?_append_left (by omega)]
  unfold frameAt
  rw [frameTotal_append hlength, hbyte 3 (by omega), hbyte 4 (by omega),
    List.drop_append_of_le_length (by omega),
    List.take_append_of_le_length (by rw [List.length_drop]; omega),
    List.take_append_of_le_length htotal]

theorem parse_consumed_le {frame : Frame} {consumed : ℕ}
    (h : Frame.parse bytes = .ok (some (frame, consumed))) : consumed ≤ bytes.length := by
  obtain ⟨_, rfl, hle, _⟩ := parse_eq_some_iff.mp h
  exact hle

/-- More bytes behind a whole frame do not change it. -/
theorem parse_append {frame : Frame} {consumed : ℕ} (more : Bytes)
    (h : Frame.parse bytes = .ok (some (frame, consumed))) :
    Frame.parse (bytes ++ more) = .ok (some (frame, consumed)) := by
  obtain ⟨hlength, htotal, hle, hframe⟩ := parse_eq_some_iff.mp h
  refine parse_eq_some_iff.mpr ⟨?_, ?_, ?_, ?_⟩
  · rw [List.length_append]
    omega
  · rw [frameTotal_append hlength, htotal]
  · rw [frameTotal_append hlength, List.length_append]
    omega
  · rw [frameAt_append hlength hle, hframe]

theorem Framed.append (h : Framed bytes frames rest) (more : Bytes) :
    Framed (bytes ++ more) frames (rest ++ more) := by
  induction h with
  | none bytes => exact .none (bytes ++ more)
  | next hframe hrest ih =>
    refine .next (parse_append more hframe) ?_
    rw [List.drop_append_of_le_length (parse_consumed_le hframe)]
    exact ih

theorem Framed.snoc {frame : Frame} {consumed : ℕ} (h : Framed bytes frames rest)
    (hframe : Frame.parse rest = .ok (some (frame, consumed))) :
    Framed bytes (frames ++ [frame]) (rest.drop consumed) := by
  induction h with
  | none bytes => exact .next hframe (.none _)
  | next hfirst hrest ih => exact .next hfirst (ih hframe)

end Framing

section Steps

/-- A frame is taken out of the buffer and not acted on yet. -/
structure Taken (frame : Frame) (w : World) : Prop where
  framed : Framed w.received (framesOf w.log ++ [frame]) w.client.recvBuf
  payloads : ∀ streamId, returnedOn streamId w.log ++ w.client.cached streamId =
    payloadsOn streamId (framesOf w.log)

/-- What the invariant looks at stays as it is. -/
def SameData (w w' : World) : Prop :=
  w'.received = w.received ∧ framesOf w'.log = framesOf w.log ∧
    (∀ streamId, returnedOn streamId w'.log = returnedOn streamId w.log) ∧
    w'.client.recvBuf = w.client.recvBuf ∧
    ∀ streamId, w'.client.cached streamId = w.client.cached streamId

instance : IsPreorder World SameData where
  refl _ := ⟨rfl, rfl, fun _ => rfl, rfl, fun _ => rfl⟩
  trans _ _ _ h h' := ⟨h'.1.trans h.1, h'.2.1.trans h.2.1,
    fun streamId => (h'.2.2.1 streamId).trans (h.2.2.1 streamId), h'.2.2.2.1.trans h.2.2.2.1,
    fun streamId => (h'.2.2.2.2 streamId).trans (h.2.2.2.2 streamId)⟩

theorem Delivered.of_same {w w' : World} (h : Delivered w) (hsame : SameData w w') : Delivered w' := by
  obtain ⟨hreceived, hframes, hreturned, hbuf, hcached⟩ := hsame
  constructor
  · rw [hreceived, hframes, hbuf]
    exact h.framed
  · intro streamId
    rw [hreturned, hcached, hframes]
    exact h.payloads streamId

instance await_keeps : Keeps SameData await := by
  constructor
  intro w
  unfold await
  split
  · exact ⟨rfl, rfl, fun _ => rfl, rfl, fun _ => rfl⟩
  · exact ⟨rfl, rfl, fun _ => rfl, rfl, fun _ => rfl⟩
  · exact ⟨rfl, rfl, fun _ => rfl, rfl, fun _ => rfl⟩
  · exact ⟨rfl, rfl, fun _ => rfl, rfl, fun _ => rfl⟩

instance flush_keeps : Keeps SameData flush := by
  unfold flush
  infer_instance

theorem sameData_wrote (w : World) (frame : Written) :
    framesOf (w.note (.wrote frame)).log = framesOf w.log ∧
      ∀ streamId, returnedOn streamId (w.note (.wrote frame)).log = returnedOn streamId w.log := by
  simp [World.note, framesOf, returnedOn, Event.frame?, Event.returnedOn]

instance writeAll_keeps (frame : Written) : Keeps SameData (writeAll frame) := by
  unfold writeAll
  refine Keeps.bind inferInstance fun _ => Keeps.modify fun w => ?_
  obtain ⟨hframes, hreturned⟩ := sameData_wrote w frame
  exact ⟨rfl, hframes, hreturned, rfl, fun _ => rfl⟩

instance sendData_keeps (frame : DataFrame) : Keeps SameData (sendData frame) := by
  unfold sendData
  refine Keeps.bind inferInstance fun _ => Keeps.bind inferInstance fun w => ?_
  split
  · infer_instance
  · refine Keeps.modify fun w => ?_
    obtain ⟨hframes, hreturned⟩ := sameData_wrote w (.data frame)
    exact ⟨rfl, hframes, hreturned, rfl, fun _ => rfl⟩

instance delivered_of_same {α : Type} {m : H2 α} [hm : Keeps SameData m] :
    Keeps (Program.Preserved Delivered) m :=
  hm.mono fun _ _ hsame h => h.of_same hsame

/-- Bytes were read and are not in the buffer yet. -/
structure Arriving (bytes : Bytes) (w : World) : Prop where
  framed : Framed w.received (framesOf w.log) (w.client.recvBuf ++ bytes)
  payloads : ∀ streamId, returnedOn streamId w.log ++ w.client.cached streamId =
    payloadsOn streamId (framesOf w.log)

theorem readSocket_arriving :
    Triple Delivered readSocket Arriving (fun _ => Delivered) Delivered := by
  unfold readSocket
  refine Triple.bind (invariant_iff.mp (delivered_of_same (m := await))) fun bytes => ?_
  refine Triple.bind (Q := fun _ => Arriving (bytes.take 16384)) (Triple.modify ?_) fun _ => ?_
  · intro w h
    exact ⟨h.framed.append _, h.payloads⟩
  · exact Triple.pure fun _ => id

theorem nextFrame_taken (rounds : ℕ) :
    Triple Delivered (nextFrame rounds) Taken (fun _ => Delivered) Delivered := by
  induction rounds with
  | zero => exact fun _ h => h
  | succ rounds ih =>
    unfold nextFrame
    refine Triple.bind (Q := fun w s => s = w ∧ Delivered s)
      (Triple.get fun s h => ⟨rfl, h⟩) fun w => ?_
    split
    · exact Triple.fail fun _ h => h.2
    · rename_i frame consumed hparse
      refine Triple.bind (Q := fun _ => Taken frame) (Triple.modify ?_) fun _ => ?_
      · intro s ⟨hs, h⟩
        subst hs
        exact ⟨h.framed.snoc hparse, h.payloads⟩
      · exact Triple.pure fun _ => id
    · refine Triple.bind (readSocket_arriving.pre fun _ h => h.2) fun bytes => ?_
      refine Triple.ite (fun hempty => Triple.fail fun s h => ?_) fun _ => ?_
      · rw [List.isEmpty_iff] at hempty
        rw [hempty] at h
        exact ⟨by simpa using h.framed, h.payloads⟩
      · refine Triple.bind (Q := fun _ => Delivered) (Triple.modify ?_) fun _ => ih
        intro s h
        exact ⟨h.framed, h.payloads⟩

/-- The frame is logged and acted on. Only DATA changes the cache. -/
theorem receive_delivers {frame : Frame} {f : Client → Client}
    (hbuf : ∀ client, (f client).recvBuf = client.recvBuf)
    (hcache : ∀ client streamId, (f client).cached streamId =
      client.cached streamId ++ (frame.payloadOn streamId).toList) :
    Triple (Taken frame) (receive frame f) (fun _ => Delivered) (fun _ => Delivered) Delivered := by
  unfold receive
  refine Triple.modify fun w h => ?_
  have hframes : framesOf ((w.change f).note (.received frame)).log = framesOf w.log ++ [frame] := by
    simp [World.note, World.change, framesOf, Event.frame?]
  constructor
  · rw [hframes]
    show Framed w.received _ (f w.client).recvBuf
    rw [hbuf]
    exact h.framed
  · intro streamId
    have hreturned : returnedOn streamId ((w.change f).note (.received frame)).log =
        returnedOn streamId w.log := by
      simp [World.note, World.change, returnedOn, Event.returnedOn]
    rw [hframes, hreturned]
    show returnedOn streamId w.log ++ (f w.client).cached streamId = _
    rw [hcache, ← List.append_assoc, h.payloads streamId]
    cases hpayload : frame.payloadOn streamId with
    | none => simp [payloadsOn, hpayload]
    | some payload => simp [payloadsOn, hpayload]

theorem applySetting_cache (client : Client) (setting : Setting) :
    (client.applySetting setting).cache = client.cache ∧
      (client.applySetting setting).recvBuf = client.recvBuf := by
  cases setting with
  | maxConcurrentStreams value => exact ⟨rfl, rfl⟩
  | initialWindowSize new => exact ⟨rfl, rfl⟩

theorem applySettings_cache (client : Client) (settings : List Setting) :
    (client.applySettings settings).cache = client.cache ∧
      (client.applySettings settings).recvBuf = client.recvBuf := by
  unfold Client.applySettings
  induction settings generalizing client with
  | nil => exact ⟨rfl, rfl⟩
  | cons setting settings ih =>
    obtain ⟨hcache, hbuf⟩ := applySetting_cache client setting
    obtain ⟨hcache', hbuf'⟩ := ih (client.applySetting setting)
    exact ⟨hcache'.trans hcache, hbuf'.trans hbuf⟩

theorem applyWindowUpdate_cache (client : Client) (frame : WindowUpdateFrame) :
    (client.applyWindowUpdate frame).cache = client.cache ∧
      (client.applyWindowUpdate frame).recvBuf = client.recvBuf := by
  unfold Client.applyWindowUpdate
  split
  · exact ⟨rfl, rfl⟩
  · exact ⟨rfl, rfl⟩

theorem pushCache_cached (client : Client) (streamId : ℕ) (payload : Bytes) (other : ℕ) :
    (client.pushCache streamId payload).cached other =
      client.cached other ++ if streamId = other then [payload] else [] := by
  unfold Client.pushCache Client.cached
  by_cases hother : other = streamId
  · subst hother
    simp
  · rw [if_neg (fun h => hother h.symm)]
    simp [Function.update_of_ne hother]

theorem openCache_cached (client : Client) (streamId other : ℕ) :
    (client.openCache streamId).cached other = client.cached other := by
  unfold Client.openCache Client.cached
  by_cases hother : other = streamId
  · subst hother
    simp
  · simp [Function.update_of_ne hother]

instance pump_delivers (rounds : ℕ) : Keeps (Program.Preserved Delivered) (pump rounds) := by
  unfold pump
  refine Keeps.restore (nextFrame_taken rounds) fun frame => ?_
  cases frame with
  | settings settings =>
    refine Triple.ite (fun _ => ?_) fun _ => ?_
    · refine Triple.bind (receive_delivers ?_ ?_) fun _ => invariant_iff.mp inferInstance
      · intro client
        exact (applySettings_cache client _).2
      · intro client streamId
        simp [Client.cached, (applySettings_cache client _).1, Frame.payloadOn]
    · exact receive_delivers (fun _ => rfl) fun _ _ => by simp [Frame.payloadOn]
  | windowUpdate update =>
    refine receive_delivers ?_ ?_
    · intro client
      exact (applyWindowUpdate_cache client update).2
    · intro client streamId
      simp [Client.cached, (applyWindowUpdate_cache client update).1, Frame.payloadOn]
  | rstStream streamId =>
    refine Triple.bind (Q := fun _ => Taken (.rstStream streamId)) (Triple.get fun _ h => h) fun w => ?_
    refine Triple.bind (receive_delivers (fun _ => rfl) fun client other => ?_) fun _ =>
      invariant_iff.mp inferInstance
    simp [Client.cached, Frame.payloadOn]
  | data data =>
    refine Triple.bind (receive_delivers (fun _ => rfl) fun client streamId => ?_) fun _ =>
      invariant_iff.mp inferInstance
    rw [pushCache_cached]
    by_cases hstream : data.streamId = streamId
    · simp [Frame.payloadOn, hstream]
    · simp [Frame.payloadOn, hstream]
  | headers streamId => exact receive_delivers (fun _ => rfl) fun _ _ => by simp [Frame.payloadOn]

theorem firstCached_eq {client : Client} {streamIds : List ℕ} {streamId : ℕ} {payload : Bytes}
    {rest : List Bytes} (h : firstCached client streamIds = some (streamId, payload, rest)) :
    client.cache streamId = some (payload :: rest) := by
  induction streamIds with
  | nil => cases h
  | cons first streamIds ih =>
    unfold firstCached at h
    split at h
    · rename_i hcache
      cases h
      exact hcache
    · exact ih h

/-- A payload is taken out of the cache and returned. -/
theorem returned_delivers {w : World} (h : Delivered w) {streamId : ℕ} {payload : Bytes}
    {rest : List Bytes} (hcache : w.client.cache streamId = some (payload :: rest)) :
    Delivered ((w.change fun client => { client with
      cache := Function.update client.cache streamId (some rest) }).note
        (.returned streamId payload)) := by
  have hframes : ∀ f, framesOf ((w.change f).note (.returned streamId payload)).log =
      framesOf w.log := by
    intro f
    simp [World.note, World.change, framesOf, Event.frame?]
  constructor
  · rw [hframes]
    exact h.framed
  · intro other
    have hbefore := h.payloads other
    rw [hframes, ← hbefore]
    by_cases hother : other = streamId
    · subst hother
      simp [World.note, World.change, returnedOn, Event.returnedOn, Client.cached, hcache]
    · have hne : streamId ≠ other := fun heq => hother heq.symm
      simp [World.note, World.change, returnedOn, Event.returnedOn, Client.cached, hne,
        Function.update_of_ne hother]

instance readLoop_delivers (streamIds : List ℕ) (rounds pumpRounds : ℕ) :
    Keeps (Program.Preserved Delivered) (readLoop streamIds rounds pumpRounds) := by
  induction rounds with
  | zero =>
    unfold readLoop
    infer_instance
  | succ rounds ih =>
    unfold readLoop
    rw [invariant_iff]
    refine Triple.bind (Q := fun w s => s = w ∧ Delivered s)
      (Triple.get fun s h => ⟨rfl, h⟩) fun w => ?_
    split
    · rename_i streamId payload rest hfirst
      refine Triple.bind (Q := fun _ => Delivered) (Triple.modify ?_) fun _ => Triple.pure fun _ => id
      intro s ⟨hs, h⟩
      subst hs
      exact returned_delivers h (firstCached_eq hfirst)
    · refine Triple.pre ?_ fun _ h => h.2
      exact invariant_iff.mp (Keeps.bind inferInstance fun _ => ih)

/-- An entry for a stream changes nothing that is in the cache. -/
instance change_openCache_keeps (streamId : ℕ) :
    Keeps SameData (Prog.modify (World.change (·.openCache streamId)) : H2 Unit) :=
  Keeps.modify fun w => ⟨rfl, rfl, fun _ => rfl, rfl, openCache_cached w.client streamId⟩

instance readAny_delivers (rounds : ℕ) (streamIds : List ℕ) :
    Keeps (Program.Preserved Delivered) (readAny rounds streamIds) := by
  unfold readAny
  refine Keeps.bind ?_ fun _ => inferInstance
  exact Keeps.each _ fun streamId _ => delivered_of_same

instance awaitWindows_delivers (streamId : ℕ) (need : Int64) (rounds pumpRounds : ℕ) :
    Keeps (Program.Preserved Delivered) (awaitWindows streamId need rounds pumpRounds) := by
  induction rounds with
  | zero =>
    unfold awaitWindows
    infer_instance
  | succ rounds ih =>
    have hseed : Keeps SameData
        (Prog.modify (World.change (·.seedWindow streamId)) : H2 Unit) :=
      Keeps.modify fun w => ⟨rfl, rfl, fun _ => rfl, rfl, fun _ => rfl⟩
    unfold awaitWindows
    refine Keeps.bind inferInstance fun w => ?_
    refine @Keeps.ite _ _ _ _ _ _ _ _ ?_ ?_
    · exact Keeps.bind inferInstance fun _ => ih
    · refine Keeps.bind delivered_of_same fun _ => ?_
      refine @Keeps.ite _ _ _ _ _ _ _ _ ?_ ?_
      · exact Keeps.bind inferInstance fun _ => ih
      · infer_instance

instance sendChunks_delivers (rounds streamId : ℕ) (endStream : Bool) (chunks : List Bytes) :
    Keeps (Program.Preserved Delivered) (sendChunks rounds streamId endStream chunks) := by
  induction chunks with
  | nil =>
    unfold sendChunks
    infer_instance
  | cons chunk rest ih =>
    unfold sendChunks
    exact Keeps.bind inferInstance fun _ => Keeps.bind inferInstance fun _ => ih

instance sendInner_delivers (rounds : ℕ) (payload : Bytes) (streamId : ℕ) (endStream : Bool) :
    Keeps (Program.Preserved Delivered) (sendInner rounds payload streamId endStream) := by
  unfold sendInner
  infer_instance

theorem call_delivers (rounds : ℕ) (call : Call) :
    Keeps (Program.Preserved Delivered) (call.run rounds) := by
  cases call with
  | setSettings settings streamId =>
    exact Keeps.bind inferInstance fun _ => inferInstance
  | windowUpdate incrementSize streamId =>
    exact Keeps.bind inferInstance fun _ => inferInstance
  | openStream streamId =>
    refine Keeps.bind delivered_of_same fun _ => ?_
    exact Keeps.bind inferInstance fun _ => inferInstance
  | send payload streamId => exact sendInner_delivers rounds payload streamId false
  | sendEndStream payload streamId =>
    have hfinish : Keeps SameData (Prog.modify (World.change fun client => { client with
        finishedFileTransferStreams := insert streamId client.finishedFileTransferStreams }) : H2 Unit) :=
      Keeps.modify fun w => ⟨rfl, rfl, fun _ => rfl, rfl, fun _ => rfl⟩
    exact Keeps.bind delivered_of_same fun _ => sendInner_delivers rounds payload streamId true
  | read streamId =>
    refine Keeps.bind ?_ fun _ => inferInstance
    exact Keeps.bind (readAny_delivers rounds [streamId]) fun _ => inferInstance
  | readAny streamIds =>
    exact Keeps.bind (readAny_delivers rounds streamIds) fun _ => inferInstance

end Steps

/-- In every run, and wherever a call of it is dropped, what was received on a
stream is what was returned and then what is in the cache. -/
theorem runCalls_delivers (rounds : ℕ) (answers : List Answer) (calls : List Call) :
    Delivered (runCalls rounds calls (World.new answers)) := by
  have hnew : Delivered (World.new answers) := ⟨.none [], fun _ => rfl⟩
  have hrun : ∀ w, Delivered w → Delivered (runCalls rounds calls w) := by
    induction calls with
    | nil => exact fun _ h => h
    | cons call calls ih =>
      intro w h
      exact ih _ ((call_delivers rounds call).keeps w h)
  exact hrun _ hnew

end XitForge.Http2
