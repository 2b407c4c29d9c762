import XitForge.Http2.Delivery
import XitForge.Xpc.Reassembly
import XitForge.Xpc.RemoteClient

/-!
What a `RemoteXpcClient` has returned of a channel. The bytes that it has read of the
channel are whole messages, whose values were returned, and the buffer behind them; this
is so for as long as the bytes are the front of messages one after the other.
-/
namespace XitForge.Xpc

open Http2 (H2 World Client framesOf returnedOn SameData)
open Program RustEval

section Reads

/-- Nothing is returned of any stream. -/
def SameReturned (w w' : World) : Prop :=
  ∀ streamId, returnedOn streamId w'.log = returnedOn streamId w.log

instance : IsPreorder World SameReturned where
  refl _ := fun _ => rfl
  trans _ _ _ h h' := fun streamId => (h' streamId).trans (h streamId)

instance sameReturned_of_same {α : Type} {m : H2 α} [hm : Keeps SameData m] : Keeps SameReturned m :=
  hm.mono fun _ _ h => h.2.2.1

theorem change_sameReturned (f : Client → Client) :
    Keeps SameReturned (Prog.modify (World.change f) : H2 Unit) := Keeps.modify fun _ _ => rfl

theorem returnedOn_append (streamId : ℕ) (log more : List Http2.Event) :
    returnedOn streamId (log ++ more) = returnedOn streamId log ++ returnedOn streamId more :=
  List.filterMap_append

instance readSocket_sameReturned : Keeps SameReturned Http2.readSocket := by
  unfold Http2.readSocket
  exact Keeps.bind inferInstance fun _ => Keeps.bind (Keeps.modify fun _ _ => rfl) fun _ => inferInstance

instance nextFrame_sameReturned (rounds : ℕ) : Keeps SameReturned (Http2.nextFrame rounds) := by
  induction rounds with
  | zero =>
    unfold Http2.nextFrame
    infer_instance
  | succ rounds ih =>
    unfold Http2.nextFrame
    refine Keeps.bind inferInstance fun w => ?_
    split
    · infer_instance
    · exact Keeps.bind (change_sameReturned _) fun _ => inferInstance
    · refine Keeps.bind inferInstance fun bytes => ?_
      exact Keeps.branch (fun _ => inferInstance) fun _ =>
        Keeps.bind (change_sameReturned _) fun _ => ih

instance receive_sameReturned (frame : Http2.Frame) (f : Client → Client) :
    Keeps SameReturned (Http2.receive frame f) := by
  refine Keeps.modify fun w streamId => ?_
  show returnedOn streamId (w.log ++ [.received frame]) = _
  rw [returnedOn_append]
  exact List.append_nil _

instance pump_sameReturned (rounds : ℕ) : Keeps SameReturned (Http2.pump rounds) := by
  unfold Http2.pump
  refine Keeps.bind inferInstance fun frame => ?_
  cases frame with
  | settings settings =>
    dsimp only
    infer_instance
  | windowUpdate update =>
    dsimp only
    infer_instance
  | rstStream streamId =>
    dsimp only
    infer_instance
  | data data =>
    dsimp only
    infer_instance
  | headers streamId =>
    dsimp only
    infer_instance

instance awaitWindows_sameReturned (streamId : ℕ) (need : Int64) (rounds pumpRounds : ℕ) :
    Keeps SameReturned (Http2.awaitWindows streamId need rounds pumpRounds) := by
  induction rounds with
  | zero =>
    unfold Http2.awaitWindows
    infer_instance
  | succ rounds ih =>
    have hseed := change_sameReturned (·.seedWindow streamId)
    unfold Http2.awaitWindows
    infer_instance

instance sendChunks_sameReturned (rounds streamId : ℕ) (endStream : Bool)
    (chunks : List (List UInt8)) :
    Keeps SameReturned (Http2.sendChunks rounds streamId endStream chunks) := by
  induction chunks with
  | nil =>
    unfold Http2.sendChunks
    infer_instance
  | cons chunk rest ih =>
    unfold Http2.sendChunks
    infer_instance

instance send_sameReturned (rounds : ℕ) (payload : List UInt8) (streamId : ℕ) :
    Keeps SameReturned (Http2.send rounds payload streamId) := by
  unfold Http2.send Http2.sendInner
  infer_instance

instance sendEndStream_sameReturned (rounds : ℕ) (payload : List UInt8) (streamId : ℕ) :
    Keeps SameReturned (Http2.sendEndStream rounds payload streamId) := by
  unfold Http2.sendEndStream Http2.sendInner
  exact Keeps.bind (change_sameReturned _) fun _ => inferInstance

instance setSettings_sameReturned (settings : List Http2.Setting) (streamId : ℕ) :
    Keeps SameReturned (Http2.setSettings settings streamId) := by
  unfold Http2.setSettings
  infer_instance

instance windowUpdate_sameReturned (incrementSize streamId : ℕ) :
    Keeps SameReturned (Http2.windowUpdate incrementSize streamId) := by
  unfold Http2.windowUpdate
  infer_instance

instance openStream_sameReturned (streamId : ℕ) :
    Keeps SameReturned (Http2.openStream streamId) := by
  unfold Http2.openStream
  exact Keeps.bind (change_sameReturned _) fun _ => inferInstance

/-- What is returned of every stream, from what was returned before. -/
def Returned (before : ℕ → List (List UInt8)) (w : World) : Prop :=
  ∀ streamId, returnedOn streamId w.log = before streamId

theorem returned_of_same {α : Type} {m : H2 α} [hm : Keeps SameReturned m]
    (before : ℕ → List (List UInt8)) :
    Triple (Returned before) m (fun _ => Returned before) (fun _ => Returned before)
      (Returned before) :=
  Keeps.triple hm fun _ _ hbefore hsame streamId => (hsame streamId).trans (hbefore streamId)

/-- One payload more of one stream. -/
def oneMore (before : ℕ → List (List UInt8)) (read : ℕ × List UInt8) : ℕ → List (List UInt8) :=
  Function.update before read.1 (before read.1 ++ [read.2])

theorem firstCached_mem {client : Client} {streamIds : List ℕ} {streamId : ℕ} {payload : List UInt8}
    {rest : List (List UInt8)}
    (h : Http2.firstCached client streamIds = some (streamId, payload, rest)) : streamId ∈ streamIds := by
  induction streamIds with
  | nil => cases h
  | cons first streamIds ih =>
    unfold Http2.firstCached at h
    split at h
    · cases h
      exact List.mem_cons_self ..
    · exact List.mem_cons_of_mem _ (ih h)

theorem readLoop_returns (streamIds : List ℕ) (rounds pumpRounds : ℕ)
    (before : ℕ → List (List UInt8)) :
    Triple (Returned before) (Http2.readLoop streamIds rounds pumpRounds)
      (fun read w => read.1 ∈ streamIds ∧ Returned (oneMore before read) w)
      (fun _ => Returned before) (Returned before) := by
  induction rounds with
  | zero =>
    unfold Http2.readLoop
    exact fun _ h => h
  | succ rounds ih =>
    unfold Http2.readLoop
    refine Triple.bind (Q := fun _ => Returned before) (Triple.get fun _ h => h) fun w => ?_
    split
    · rename_i streamId payload rest hfirst
      refine Triple.bind (Q := fun _ => Returned (oneMore before (streamId, payload)))
        (Triple.modify fun s hs other => ?_) fun _ => Triple.pure fun _ h => ⟨firstCached_mem hfirst, h⟩
      show returnedOn other (s.log ++ [.returned streamId payload]) = _
      rw [returnedOn_append, hs other]
      unfold oneMore
      by_cases hother : other = streamId
      · subst hother
        rw [Function.update_self]
        simp [returnedOn, Http2.Event.returnedOn]
      · have hne : streamId ≠ other := fun heq => hother heq.symm
        rw [Function.update_of_ne hother]
        simp [returnedOn, Http2.Event.returnedOn, hne]
    · exact Triple.bind (returned_of_same before) fun _ => ih

end Reads

section Accounts

variable (checks : Bool) (channel : ℕ) (sents : List Sent) (whole : List UInt8)

/-- The bytes of the channel that were read from the HTTP/2 client. -/
def heardOn (client : RemoteXpcClient) : List UInt8 := (returnedOn channel client.h2Client.log).flatten

/-- The values of the channel that were returned to callers. -/
def valuesOn (client : RemoteXpcClient) : List PlistValue :=
  client.returned.filterMap fun entry => if entry.1 = channel then some entry.2 else none

/-- The messages that were taken are the first of those sent. Their values were returned,
but for the one that is held; behind their bytes come the buffer and the bytes at hand. -/
def Accounted (held : List PlistValue) (pending : List UInt8) (client : RemoteXpcClient) : Prop :=
  heardOn channel client <+: whole → ∃ done rest front, sents = done ++ rest ∧
    Stream checks done front ∧
      heardOn channel client = front ++ (client.buffers channel ++ pending) ∧
        done.filterMap delivered = valuesOn channel client ++ held

variable {checks channel sents whole}

/-- Nothing that the account looks at changes. -/
structure SameChannel (channel : ℕ) (client client' : RemoteXpcClient) : Prop where
  heard : heardOn channel client' = heardOn channel client
  buffer : client'.buffers channel = client.buffers channel
  values : valuesOn channel client' = valuesOn channel client

theorem Accounted.of_same {held : List PlistValue} {pending : List UInt8}
    {client client' : RemoteXpcClient} (h : Accounted checks channel sents whole held pending client)
    (hsame : SameChannel channel client client') :
    Accounted checks channel sents whole held pending client' := by
  unfold Accounted
  rw [hsame.heard, hsame.buffer, hsame.values]
  exact h

instance : IsPreorder RemoteXpcClient (SameChannel channel) where
  refl _ := ⟨rfl, rfl, rfl⟩
  trans _ _ _ h h' := ⟨h'.heard.trans h.heard, h'.buffer.trans h.buffer, h'.values.trans h.values⟩

instance onHttp2_sameChannel {α : Type} {m : H2 α} [hm : Keeps SameReturned m] :
    Keeps (SameChannel channel) (onHttp2 m) := by
  constructor
  intro client
  have hsame := hm.keeps client.h2Client
  unfold onHttp2
  rcases heq : m client.h2Client with ⟨outcome, w⟩
  rw [heq] at hsame
  cases outcome with
  | done value => exact ⟨congrArg List.flatten (hsame channel), rfl, rfl⟩
  | failed error => exact ⟨congrArg List.flatten (hsame channel), rfl, rfl⟩
  | stopped => exact ⟨congrArg List.flatten (hsame channel), rfl, rfl⟩

instance ofEval_sameChannel {α : Type} (result : Eval IdeviceError α) :
    Keeps (SameChannel channel) (ofEval result) := by
  constructor
  intro client
  cases result with
  | ok value => exact refl_of _ client
  | err error => exact refl_of _ client
  | panic => exact refl_of _ client

/-- The account of a channel with nothing held and no bytes at hand. -/
abbrev Settled (checks : Bool) (channel : ℕ) (sents : List Sent) (whole : List UInt8)
    (client : RemoteXpcClient) : Prop := Accounted checks channel sents whole [] [] client

instance settled_of_same {α : Type} {m : Remote α} [hm : Keeps (SameChannel channel) m] :
    Keeps (Program.Preserved (Settled checks channel sents whole)) m :=
  hm.mono fun _ _ hsame h => h.of_same hsame

/-- What is read is the front of messages behind the front that was taken. -/
theorem Stream.behind {done rest : List Sent} {front all : List UInt8} (hdone : Stream checks done front)
    (hall : Stream checks (done ++ rest) all) : ∃ tail, all = front ++ tail ∧ Stream checks rest tail := by
  induction hdone generalizing all with
  | nil => exact ⟨all, rfl, hall⟩
  | cons hwire hrest ih =>
    rename_i sent sents bytes front
    rw [List.cons_append] at hall
    cases hall with
    | cons hwire' hrest' =>
      obtain ⟨tail, rfl, htail⟩ := ih hrest'
      refine ⟨tail, ?_, htail⟩
      rw [hwire.unique hwire', List.append_assoc]

theorem Stream.unique {bytes bytes' : List UInt8} (h : Stream checks sents bytes)
    (h' : Stream checks sents bytes') : bytes = bytes' := by
  rw [← List.append_nil sents] at h'
  obtain ⟨tail, rfl, htail⟩ := h.behind h'
  cases htail
  rw [List.append_nil]

/-- The bytes in front of the other messages are those of the first. -/
theorem Stream.first {sent : Sent} {bytes rest : List UInt8}
    (h : Stream checks (sent :: sents) (bytes ++ rest)) (hrest : Stream checks sents rest) :
    Wire checks sent bytes := by
  generalize hall : bytes ++ rest = all at h
  cases h with
  | cons hwire hrest' =>
    rw [hrest.unique hrest', List.append_cancel_right_eq] at hall
    rw [hall]
    exact hwire

instance sendOn_sameChannel (rounds other : ℕ) (message : XPCMessage) :
    Keeps (SameChannel channel) (sendOn checks rounds other message) := by
  unfold sendOn
  infer_instance

instance openFileStreamForResponse_sameChannel (rounds streamId : ℕ) :
    Keeps (SameChannel channel) (openFileStreamForResponse checks rounds streamId) := by
  unfold openFileStreamForResponse
  infer_instance

end Accounts

end XitForge.Xpc
