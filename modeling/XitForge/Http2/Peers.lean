import XitForge.Http2.Delivery
import XitForge.Http2.FlowControl
import XitForge.Http2.FrameCodec

/-!
Two ends of one connection, behind the preface that `Http2Client::new` writes. Whatever an
end receives, every frame that it writes has fields of their width and can be read back; so
what its peer takes for the payloads of a stream are the first of those that were sent on it.
-/
namespace XitForge.Http2

open Program

section Written

def Event.written? : Event → Option Written
  | .wrote frame => some frame
  | _ => none

/-- The frames that were wholly written. -/
def writtenOf (log : List Event) : List Written := log.filterMap Event.written?

def wireOf (log : List Event) : Bytes := (writtenOf log).flatMap Written.serialize

/-- Every frame that was written can be read back. -/
def Readable (w : World) : Prop := ∀ frame ∈ writtenOf w.log, frame.Fits

/-- The frame has come out of its bytes. -/
def Frame.Fits : Frame → Prop
  | .settings frame => frame.streamId < 2 ^ 32
  | .data frame => frame.payload.length < 2 ^ 24 ∧ frame.streamId < 2 ^ 32
  | _ => True

theorem fromBEBytes_lt (bytes : Bytes) : fromBEBytes bytes < 256 ^ bytes.length := by
  have h := Xpc.fromLEBytes_lt bytes.reverse
  rwa [List.length_reverse] at h

theorem fromBEBytes_take_lt (bytes : Bytes) (count : ℕ) :
    fromBEBytes (bytes.take count) < 256 ^ count :=
  (fromBEBytes_lt _).trans_le (Nat.pow_le_pow_right (by omega) (List.length_take_le ..))

theorem parseBody_fits {type flags : UInt8} {streamId : ℕ} {body : Bytes} {frame : Frame}
    (hbody : body.length < 2 ^ 24) (hid : streamId < 2 ^ 32)
    (h : parseBody type flags streamId body = .ok frame) : frame.Fits := by
  unfold parseBody at h
  split at h
  · cases h
    exact ⟨hbody, hid⟩
  · split at h
    · cases h
      trivial
    · split at h
      · cases h
        trivial
      · split at h
        · cases hsettings : parseSettings body with
          | error error =>
            rw [hsettings] at h
            cases h
          | ok settings =>
            rw [hsettings] at h
            cases h
            exact hid
        · split at h
          · cases h
          · split at h
            · split at h
              · cases h
              · cases h
                trivial
            · cases h

/-- A frame that was parsed has a length of 24 bits and an identifier of 32. -/
theorem parse_fits {buf : Bytes} {frame : Frame} {consumed : ℕ}
    (h : Frame.parse buf = .ok (some (frame, consumed))) : frame.Fits := by
  obtain ⟨-, -, -, hframe⟩ := parse_eq_some_iff.mp h
  have htotal := fromBEBytes_take_lt buf 3
  refine parseBody_fits ?_ (fromBEBytes_take_lt _ 4) hframe
  have hbody := List.length_take_le (frameTotal buf) buf
  rw [List.length_drop]
  unfold frameTotal at hbody ⊢
  omega

end Written

section Steps

/-- Nothing is written. -/
def SameWritten (w w' : World) : Prop := writtenOf w'.log = writtenOf w.log

instance : IsPreorder World SameWritten where
  refl _ := rfl
  trans _ _ _ h h' := h'.trans h

theorem writtenOf_snoc (log : List Event) (event : Event) :
    writtenOf (log ++ [event]) = writtenOf log ++ event.written?.toList := by
  unfold writtenOf
  rw [List.filterMap_append]
  cases hwritten : event.written? with
  | none => simp [hwritten]
  | some frame => simp [hwritten]

theorem readable_of_keeps {α : Type} {m : H2 α} (hm : Keeps SameWritten m) :
    Keeps (Program.Preserved Readable) m :=
  hm.mono fun _ _ hsame h frame hframe => h frame (hsame ▸ hframe)

instance readable_of_same {α : Type} {m : H2 α} [hm : Keeps SameWritten m] :
    Keeps (Program.Preserved Readable) m := readable_of_keeps hm

theorem change_sameWritten (f : Client → Client) :
    Keeps SameWritten (Prog.modify (World.change f) : H2 Unit) := Keeps.modify fun _ => rfl

instance await_sameWritten : Keeps SameWritten await := by
  constructor
  intro w
  unfold await
  split <;> rfl

instance flush_sameWritten : Keeps SameWritten flush := by
  unfold flush
  infer_instance

instance readSocket_sameWritten : Keeps SameWritten readSocket := by
  unfold readSocket
  exact Keeps.bind inferInstance fun _ => Keeps.bind (Keeps.modify fun _ => rfl) fun _ => inferInstance

instance receive_sameWritten (frame : Frame) (f : Client → Client) :
    Keeps SameWritten (receive frame f) := by
  refine Keeps.modify fun w => ?_
  show writtenOf (w.log ++ [.received frame]) = _
  rw [writtenOf_snoc]
  exact List.append_nil _

theorem readable_snoc {w : World} (h : Readable w) {frame : Written} (hframe : frame.Fits)
    (f : Client → Client) : Readable ((w.change f).note (.wrote frame)) := by
  intro other hother
  change other ∈ writtenOf (w.log ++ [.wrote frame]) at hother
  rw [writtenOf_snoc] at hother
  rcases List.mem_append.mp hother with hbefore | hlast
  · exact h other hbefore
  · obtain rfl : other = frame := List.mem_singleton.mp hlast
    exact hframe

theorem writeAll_readable {frame : Written} (hframe : frame.Fits) :
    Keeps (Program.Preserved Readable) (writeAll frame) := by
  unfold writeAll
  exact Keeps.bind inferInstance fun _ => Keeps.modify fun _ h => readable_snoc h hframe id

theorem nextFrame_fits (rounds : ℕ) :
    Triple Readable (nextFrame rounds) (fun frame w => frame.Fits ∧ Readable w) (fun _ => Readable)
      Readable := by
  induction rounds with
  | zero =>
    unfold nextFrame
    exact fun _ h => h
  | succ rounds ih =>
    unfold nextFrame
    refine Triple.bind (Q := fun _ => Readable) (Triple.get fun _ h => h) fun w => ?_
    split
    · exact Triple.fail fun _ h => h
    · rename_i frame consumed hparse
      refine Triple.bind (invariant_iff.mp (readable_of_keeps (change_sameWritten _))) fun _ => ?_
      exact Triple.pure fun _ h => ⟨parse_fits hparse, h⟩
    · refine Triple.bind (invariant_iff.mp readable_of_same) fun bytes => ?_
      refine Triple.ite (fun _ => Triple.fail fun _ h => h) fun _ => ?_
      exact Triple.bind (invariant_iff.mp (readable_of_keeps (change_sameWritten _))) fun _ => ih

/-- What `pump` writes answers a frame whose fields have their width. -/
instance pump_readable (rounds : ℕ) : Keeps (Program.Preserved Readable) (pump rounds) := by
  rw [invariant_iff]
  unfold pump
  refine Triple.bind (nextFrame_fits rounds) fun frame => Triple.given fun hframe => ?_
  cases frame with
  | settings settings =>
    have hack : (Written.settings ⟨[], settings.streamId, 1⟩).Fits := ⟨by simp, by simp, hframe⟩
    have hwrite := writeAll_readable hack
    exact invariant_iff.mp (Keeps.branch (fun _ => inferInstance) fun _ => inferInstance)
  | windowUpdate update => exact invariant_iff.mp inferInstance
  | rstStream streamId =>
    exact invariant_iff.mp (Keeps.bind inferInstance fun _ => inferInstance)
  | data data =>
    have hconnection : (Written.windowUpdate ⟨data.payload.length, 0⟩).Fits :=
      ⟨hframe.1.trans (by omega), Nat.two_pow_pos 32⟩
    have hstream : (Written.windowUpdate ⟨data.payload.length, data.streamId⟩).Fits :=
      ⟨hframe.1.trans (by omega), hframe.2⟩
    have hwrite := writeAll_readable hconnection
    have hwriteStream := writeAll_readable hstream
    exact invariant_iff.mp (Keeps.bind inferInstance fun _ => inferInstance)
  | headers streamId => exact invariant_iff.mp inferInstance

instance readLoop_readable (streamIds : List ℕ) (rounds pumpRounds : ℕ) :
    Keeps (Program.Preserved Readable) (readLoop streamIds rounds pumpRounds) := by
  induction rounds with
  | zero =>
    unfold readLoop
    infer_instance
  | succ rounds ih =>
    unfold readLoop
    refine Keeps.bind inferInstance fun w => ?_
    split
    · refine Keeps.bind (readable_of_keeps (Keeps.modify fun s => ?_)) fun _ => inferInstance
      show writtenOf (s.log ++ [.returned _ _]) = _
      rw [writtenOf_snoc]
      exact List.append_nil _
    · exact Keeps.bind inferInstance fun _ => ih

instance readAny_readable (rounds : ℕ) (streamIds : List ℕ) :
    Keeps (Program.Preserved Readable) (readAny rounds streamIds) := by
  unfold readAny
  refine Keeps.bind (Keeps.each _ fun streamId _ => ?_) fun _ => inferInstance
  exact readable_of_keeps (change_sameWritten _)

instance awaitWindows_readable (streamId : ℕ) (need : Int64) (rounds pumpRounds : ℕ) :
    Keeps (Program.Preserved Readable) (awaitWindows streamId need rounds pumpRounds) := by
  induction rounds with
  | zero =>
    unfold awaitWindows
    infer_instance
  | succ rounds ih =>
    have hseed := readable_of_keeps (change_sameWritten (·.seedWindow streamId))
    unfold awaitWindows
    infer_instance

theorem sendData_readable {frame : DataFrame} (hframe : (Written.data frame).Fits) :
    Keeps (Program.Preserved Readable) (sendData frame) := by
  unfold sendData
  refine Keeps.bind inferInstance fun _ => Keeps.bind inferInstance fun w => ?_
  split
  · infer_instance
  · exact Keeps.modify fun _ h => readable_snoc h hframe _

theorem sendChunks_readable (rounds : ℕ) {streamId : ℕ} (endStream : Bool) (chunks : List Bytes)
    (hid : streamId < 2 ^ 32) (hchunks : ∀ chunk ∈ chunks, chunk.length ≤ maxFrameSize) :
    Keeps (Program.Preserved Readable) (sendChunks rounds streamId endStream chunks) := by
  induction chunks with
  | nil =>
    unfold sendChunks
    infer_instance
  | cons chunk rest ih =>
    have hlength := hchunks chunk (List.mem_cons_self ..)
    unfold maxFrameSize at hlength
    have hfits : (Written.data ⟨streamId, chunk, endStream && rest.isEmpty⟩).Fits :=
      ⟨hlength.trans_lt (by omega), hid⟩
    unfold sendChunks
    exact Keeps.bind inferInstance fun _ => Keeps.bind (sendData_readable hfits) fun _ =>
      ih fun other hother => hchunks other (List.mem_cons_of_mem _ hother)

theorem sendInner_readable (rounds : ℕ) (payload : Bytes) {streamId : ℕ} (endStream : Bool)
    (hid : streamId < 2 ^ 32) :
    Keeps (Program.Preserved Readable) (sendInner rounds payload streamId endStream) := by
  have hempty : (Written.data ⟨streamId, [], endStream⟩).Fits := ⟨by simp, hid⟩
  unfold sendInner
  refine Keeps.branch (fun _ => ?_) fun _ => ?_
  · exact Keeps.bind (writeAll_readable hempty) fun _ => inferInstance
  · exact sendChunks_readable rounds endStream _ hid fun chunk hchunk =>
      ((chunksFrom_spec _ payload (Nat.le_refl _)).2 chunk hchunk).1

/-- The arguments of a call are of their width, and its settings go into one frame. -/
def Call.Fits : Call → Prop
  | .setSettings settings streamId => (∀ setting ∈ settings, setting.Fits) ∧
      6 * settings.length < 2 ^ 24 ∧ streamId < 2 ^ 32
  | .windowUpdate incrementSize streamId => incrementSize < 2 ^ 32 ∧ streamId < 2 ^ 32
  | .openStream streamId => streamId < 2 ^ 32
  | .send _ streamId => streamId < 2 ^ 32
  | .sendEndStream _ streamId => streamId < 2 ^ 32
  | .read _ => True
  | .readAny _ => True

theorem call_readable (rounds : ℕ) {call : Call} (hcall : call.Fits) :
    Keeps (Program.Preserved Readable) (call.run rounds) := by
  cases call with
  | setSettings settings streamId =>
    exact Keeps.bind (writeAll_readable hcall) fun _ => inferInstance
  | windowUpdate incrementSize streamId =>
    exact Keeps.bind (writeAll_readable hcall) fun _ => inferInstance
  | openStream streamId =>
    exact Keeps.bind (readable_of_keeps (change_sameWritten _)) fun _ =>
      Keeps.bind (writeAll_readable hcall) fun _ => inferInstance
  | send payload streamId => exact sendInner_readable rounds payload false hcall
  | sendEndStream payload streamId =>
    exact Keeps.bind (readable_of_keeps (change_sameWritten _)) fun _ =>
      sendInner_readable rounds payload true hcall
  | read streamId =>
    exact Keeps.bind (Keeps.bind inferInstance fun _ => inferInstance) fun _ => inferInstance
  | readAny streamIds => exact Keeps.bind inferInstance fun _ => inferInstance

end Steps

section Peers

/-- What is read from the front of some frames are the first of them. -/
theorem framed_front {bytes more rest rest' : Bytes} {frames frames' : List Frame}
    (h : Framed bytes frames rest) (h' : Framed (bytes ++ more) frames' rest')
    (hrest : Frame.parse rest' = .ok none) : frames <+: frames' := by
  induction h generalizing frames' with
  | none bytes => exact List.nil_prefix
  | next hframe _ ih =>
    rename_i bytes rest frame consumed frames hnext
    have hparse := parse_append more hframe
    have hdrop : (bytes ++ more).drop consumed = bytes.drop consumed ++ more :=
      List.drop_append_of_le_length (parse_consumed_le hframe)
    cases h' with
    | none =>
      rw [hparse] at hrest
      cases hrest
    | next hframe' hrest' =>
      rw [hparse] at hframe'
      cases hframe'
      rw [hdrop] at hrest'
      exact List.cons_prefix_cons.mpr ⟨rfl, ih hrest'⟩

/-- What a client that is done, fails or is dropped leaves on the wire: the frames that it
has written, and it may be the front of one more. -/
structure OnWire (log : List Event) (bytes : Bytes) : Prop where
  split : ∃ further : Written, ∃ front, bytes = wireOf log ++ front ∧ further.Fits ∧
    front <+: further.serialize ∧ front ≠ further.serialize

def payloadsSent (streamId : ℕ) (log : List Event) : List Bytes :=
  ((dataFrames log).filter fun frame => frame.streamId = streamId).map DataFrame.payload

theorem payloadsOn_written (streamId : ℕ) (log : List Event) :
    payloadsOn streamId ((writtenOf log).map Written.frame) = payloadsSent streamId log := by
  unfold payloadsOn payloadsSent writtenOf dataFrames
  induction log with
  | nil => rfl
  | cons event log ih =>
    cases event with
    | received frame => exact ih
    | returned other payload => exact ih
    | wrote frame =>
      cases frame with
      | settings frame => exact ih
      | windowUpdate frame => exact ih
      | headers other => exact ih
      | data frame =>
        by_cases hstream : frame.streamId = streamId
        · simpa [Event.written?, Event.data?, Written.frame, Frame.payloadOn, hstream] using ih
        · simpa [Event.written?, Event.data?, Written.frame, Frame.payloadOn, hstream] using ih

/-- The frames on a wire are those that were written, and what is behind them is none. -/
theorem OnWire.framed {w : World} {bytes : Bytes} (h : OnWire w.log bytes) (hreadable : Readable w) :
    ∃ front, Framed bytes ((writtenOf w.log).map Written.frame) front ∧ Frame.parse front = .ok none := by
  obtain ⟨further, front, rfl, hfits, hfront, hne⟩ := h.split
  exact ⟨front, framed_serialize hreadable front, parse_strict_prefix hfits hfront hne⟩

/-- What one end has of a stream are the first of the payloads that the other one has sent on
it, and all of them once every frame was taken out of the bytes on the wire. -/
theorem ends_deliver {sender receiver : World} {bytes : Bytes} (hdelivered : Delivered receiver)
    (hreadable : Readable sender) (hwire : OnWire sender.log bytes)
    (hreceived : receiver.received <+: bytes) (streamId : ℕ) :
    returnedOn streamId receiver.log ++ receiver.client.cached streamId <+:
        payloadsSent streamId sender.log ∧
      (receiver.received = bytes → Frame.parse receiver.client.recvBuf = .ok none →
        returnedOn streamId receiver.log ++ receiver.client.cached streamId =
          payloadsSent streamId sender.log) := by
  obtain ⟨front, hframed, hnone⟩ := hwire.framed hreadable
  rw [hdelivered.payloads, ← payloadsOn_written]
  constructor
  · obtain ⟨more, rfl⟩ := hreceived
    exact (framed_front hdelivered.framed hframed hnone).filterMap _
  · intro hall hbuf
    have hback : (writtenOf sender.log).map Written.frame <+: framesOf receiver.log := by
      refine framed_front hframed (?_ : Framed (bytes ++ []) _ _) hbuf
      rw [List.append_nil, ← hall]
      exact hdelivered.framed
    have hforth : framesOf receiver.log <+: (writtenOf sender.log).map Written.frame := by
      refine framed_front hdelivered.framed (?_ : Framed (receiver.received ++ []) _ _) hnone
      rw [List.append_nil, hall]
      exact hframed
    rw [hforth.eq_of_length_le hback.length_le]

theorem runs_readable {rounds : ℕ} {calls : List Call} (hcalls : ∀ call ∈ calls, call.Fits)
    (answers : List Answer) : Readable (Prog.each (Call.run rounds) calls (World.new answers)).2 := by
  have hrun : Keeps (Program.Preserved Readable) (Prog.each (Call.run rounds) calls) :=
    Keeps.each calls fun call hcall => call_readable rounds (hcalls call hcall)
  refine hrun.keeps (World.new answers) fun frame hframe => ?_
  cases hframe

theorem runs_delivered (rounds : ℕ) (calls : List Call) {w : World} (h : Delivered w) :
    Delivered (runCalls rounds calls w) := by
  induction calls generalizing w with
  | nil => exact h
  | cons call calls ih => exact ih ((call_delivers rounds call).keeps w h)

/-- The same of two runs of the client: one that stops at its first failure, and one that goes
on with the next call. -/
theorem clients_deliver {rounds rounds' : ℕ} {calls calls' : List Call} {answers answers' : List Answer}
    {bytes : Bytes} (hcalls : ∀ call ∈ calls, call.Fits)
    (hwire : OnWire (Prog.each (Call.run rounds) calls (World.new answers)).2.log bytes)
    (hreceived : (runCalls rounds' calls' (World.new answers')).received <+: bytes) (streamId : ℕ) :
    let sender := (Prog.each (Call.run rounds) calls (World.new answers)).2
    let receiver := runCalls rounds' calls' (World.new answers')
    returnedOn streamId receiver.log ++ receiver.client.cached streamId <+:
        payloadsSent streamId sender.log ∧
      (receiver.received = bytes → Frame.parse receiver.client.recvBuf = .ok none →
        returnedOn streamId receiver.log ++ receiver.client.cached streamId =
          payloadsSent streamId sender.log) :=
  ends_deliver (runs_delivered rounds' calls' ⟨.none [], fun _ => rfl⟩) (runs_readable hcalls answers)
    hwire hreceived streamId

/-- A DATA frame with one octet, on stream 1. -/
def oneOctet : Bytes := [0, 0, 1, 0, 0, 0, 0, 0, 1, 7]

/-- It is sent, with the front of another frame behind it, and arrives in two pieces. -/
theorem clients_deliver_octet :
    returnedOn 1 (runCalls 4 [.read 1] (World.new [.ready (oneOctet.take 4),
        .ready (oneOctet.drop 4 ++ [0]), .ready [], .ready [], .ready []])).log ++
      (runCalls 4 [.read 1] (World.new [.ready (oneOctet.take 4),
        .ready (oneOctet.drop 4 ++ [0]), .ready [], .ready [], .ready []])).client.cached 1 =
      payloadsSent 1 (Prog.each (Call.run 4) [.send [7] 1] (World.new [.ready [], .ready []])).2.log := by
  have hcalls : ∀ call ∈ [Call.send [7] 1], call.Fits := by
    intro call hcall
    rw [List.mem_singleton.mp hcall]
    show 1 < 2 ^ 32
    omega
  have hfurther : (Written.headers 1).Fits := by
    show 1 < 2 ^ 32
    omega
  have hwire : OnWire (Prog.each (Call.run 4) [.send [7] 1] (World.new [.ready [], .ready []])).2.log
      (oneOctet ++ [0]) :=
    ⟨.headers 1, [0], by decide +kernel, hfurther, by decide +kernel, by decide +kernel⟩
  exact (clients_deliver hcalls hwire (by decide +kernel) 1).2 (by decide +kernel) (by decide +kernel)

end Peers

end XitForge.Http2
