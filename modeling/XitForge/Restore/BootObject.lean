import XitForge.PieceStream
import XitForge.Restore.ControlStream
import XitForge.Restore.StateMachine

/-!
The streaming of a boot object, with the bytes that the device sends meanwhile. Behind the
first chunk of an encrypted image the host waits three seconds for a request of its key, on
the connection that the chunks go to: a data port of its own, or the control connection.
-/
namespace XitForge.Restore.BootObject

open ByteStream PieceStream Program
open Xpc (PlistValue)

inductive StreamError where
  | cancelled
  | read
  | socket
  /-- The answer to a request could not be had. -/
  | urlAsset
  deriving DecidableEq, Repr

inductive Sent where
  | fileData (bytes : Bytes)
  | response (value : PlistValue)
  | fileDataDone

def Sent.payload : Sent → Option Bytes
  | fileData bytes => some bytes
  | _ => none

/-- What became of a wait for a message. -/
inductive Waited where
  /-- The body of a message was taken off the connection. -/
  | taken (body : Bytes)
  /-- The three seconds were over; `recv` is dropped with what it had read. -/
  | timedOut (got : Bytes)
  /-- The connection ended. -/
  | ended (got : Bytes)

/-- What surrounds a run. Events are counted by what was sent before them. -/
structure Environment where
  cancelled : ℕ → Bool
  sendFails : ℕ → Bool
  /-- The last read of the component fails instead of returning nothing. -/
  readFails : Bool
  /-- What is on the connection when the three seconds are over. -/
  arrives : Bytes
  /-- The connection ends behind these bytes. -/
  closes : Bool
  decode : Bytes → Option Dictionary
  urlAssetResponse : Dictionary → Option PlistValue

structure Trace where
  sent : List Sent
  waits : List Waited

abbrev Stream (α : Type) := Prog Trace StreamError α

section Code

variable (env : Environment) (sink : BootSink)

def checkCancel : Stream Unit := fun trace =>
  if env.cancelled trace.sent.length then (.failed .cancelled, trace) else (.done (), trace)

def send (message : Sent) : Stream Unit := fun trace =>
  if env.sendFails trace.sent.length then (.failed .socket, trace)
  else (.done (), { trace with sent := trace.sent ++ [message] })

/-- What `recv` comes to in the three seconds. -/
def Environment.waited : Waited :=
  if ControlStream.missing env.arrives = 0 then
    .taken ((env.arrives.drop 4).take (beValue (env.arrives.take 4)))
  else if env.closes then .ended env.arrives
  else .timedOut env.arrives

/-- The message of `BootSink::recv`. On a data port one with an `Error` is an error. -/
def message : Waited → Option Dictionary
  | .taken body =>
    match sink with
    | .port => (env.decode body).filter fun message => (message.get "Error").isNone
    | .restored => env.decode body
  | _ => none

/-- The timeout around `recv`. -/
def recvInTime : Stream (Option Dictionary) := fun trace =>
  (.done (message env sink env.waited), { trace with waits := trace.waits ++ [env.waited] })

/-- The wait for a request of the key, and the answer to it. -/
def awaitUrlAsset : Stream Unit := do
  match ← recvInTime env sink with
  | some message =>
    if msgType message = "URLAsset" then
      match env.urlAssetResponse message with
      | some response => send env (.response response)
      | none => Prog.fail .urlAsset
  | none => return ()

/-- The loop of `stream_boot_object` over what the reader returns, and the message behind. -/
def streamBootObject : Bool → List Piece → Stream Unit
  | _, [] => do
    checkCancel env
    if env.readFails then Prog.fail .read
    send env .fileDataDone
  | first, piece :: rest => do
    checkCancel env
    send env (.fileData piece.bytes)
    if first ∧ aeaMagic <+: piece.bytes then awaitUrlAsset env sink
    streamBootObject false rest

end Code

/-- Nothing but a request of the key was taken away, and no part of a message. -/
def Waited.KeepsOthers (env : Environment) : Waited → Prop
  | taken body => ∃ message, env.decode body = some message ∧ msgType message = "URLAsset"
  | timedOut got => got = []
  | ended _ => True

/-- What a stream of the content leaves behind. -/
structure Streams (env : Environment) (image : Bytes) (trace : Trace) : Prop where
  payloads : ∃ front, trace.sent = front ++ [.fileDataDone] ∧ .fileDataDone ∉ front ∧
    (front.filterMap Sent.payload).flatten = image
  pauses : trace.waits ≠ [] ↔ aeaMagic <+: image
  keeps : ∀ waited ∈ trace.waits, waited.KeepsOthers env

section Runs

variable {env : Environment} {sink : BootSink} {trace trace' : Trace}

theorem checkCancel_done (h : checkCancel env trace = (.done (), trace')) : trace' = trace := by
  unfold checkCancel at h
  split at h
  · cases h
  · cases h
    rfl

theorem send_done {message : Sent} (h : send env message trace = (.done (), trace')) :
    trace'.sent = trace.sent ++ [message] ∧ trace'.waits = trace.waits := by
  unfold send at h
  split at h
  · cases h
  · cases h
    exact ⟨rfl, rfl⟩

/-- A wait is noted, and at most an answer is sent. -/
theorem awaitUrlAsset_done (h : awaitUrlAsset env sink trace = (.done (), trace')) :
    trace'.waits = trace.waits ++ [env.waited] ∧
      ∃ responses, trace'.sent = trace.sent ++ responses ∧ .fileDataDone ∉ responses ∧
        responses.filterMap Sent.payload = [] := by
  unfold awaitUrlAsset at h
  obtain ⟨received, middle, hrecv, hnext⟩ := Prog.bind_eq_done h
  unfold recvInTime at hrecv
  cases hrecv
  cases hmessage : message env sink env.waited with
  | none =>
    rw [hmessage] at hnext
    cases hnext
    exact ⟨rfl, [], (List.append_nil _).symm, List.not_mem_nil, rfl⟩
  | some message =>
    rw [hmessage] at hnext
    dsimp only at hnext
    by_cases htype : msgType message = "URLAsset"
    · rw [if_pos htype] at hnext
      cases hresponse : env.urlAssetResponse message with
      | none =>
        rw [hresponse] at hnext
        cases hnext
      | some response =>
        rw [hresponse] at hnext
        obtain ⟨hsent, hwaits⟩ := send_done hnext
        exact ⟨hwaits, _, hsent, by simp, rfl⟩
    · rw [if_neg htype] at hnext
      cases hnext
      exact ⟨rfl, [], (List.append_nil _).symm, List.not_mem_nil, rfl⟩

/-- The end of the image sends the message behind it. -/
theorem streamBootObject_nil {first : Bool}
    (h : streamBootObject env sink first [] trace = (.done (), trace')) :
    trace'.sent = trace.sent ++ [.fileDataDone] ∧ trace'.waits = trace.waits := by
  unfold streamBootObject at h
  obtain ⟨_, middle, hcheck, hnext⟩ := Prog.bind_eq_done h
  obtain rfl := checkCancel_done hcheck
  cases hfails : env.readFails with
  | true =>
    rw [hfails, if_pos rfl] at hnext
    cases hnext
  | false =>
    rw [hfails, if_neg Bool.false_ne_true] at hnext
    exact send_done hnext

/-- A chunk is sent, and the wait behind it is noted if it is the first of an encrypted image. -/
theorem streamBootObject_cons {first : Bool} {piece : Piece} {rest : List Piece}
    (h : streamBootObject env sink first (piece :: rest) trace = (.done (), trace')) :
    ∃ middle responses, middle.sent = trace.sent ++ .fileData piece.bytes :: responses ∧
      .fileDataDone ∉ responses ∧ responses.filterMap Sent.payload = [] ∧
      middle.waits = trace.waits ++
        (if first ∧ aeaMagic <+: piece.bytes then [env.waited] else []) ∧
      streamBootObject env sink false rest middle = (.done (), trace') := by
  unfold streamBootObject at h
  obtain ⟨_, checked, hcheck, hnext⟩ := Prog.bind_eq_done h
  obtain rfl := checkCancel_done hcheck
  obtain ⟨_, chunked, hsend, hnext⟩ := Prog.bind_eq_done hnext
  obtain ⟨hsent, hwaits⟩ := send_done hsend
  by_cases hpause : first ∧ aeaMagic <+: piece.bytes
  · rw [if_pos hpause] at hnext
    obtain ⟨_, middle, hawait, hnext⟩ := Prog.bind_eq_done hnext
    obtain ⟨hwait, responses, hresponses, hdone, hpayload⟩ := awaitUrlAsset_done hawait
    refine ⟨middle, responses, ?_, hdone, hpayload, ?_, hnext⟩
    · rw [hresponses, hsent, List.append_assoc]
      rfl
    · rw [hwait, hwaits, if_pos hpause]
  · rw [if_neg hpause] at hnext
    refine ⟨chunked, [], hsent, List.not_mem_nil, rfl, ?_, hnext⟩
    rw [hwaits, if_neg hpause, List.append_nil]

/-- Chunks are sent in order, answers between them, and the last message behind them. -/
theorem sent_streamBootObject {first : Bool} {pieces : List Piece}
    (h : streamBootObject env sink first pieces trace = (.done (), trace')) :
    ∃ front, trace'.sent = trace.sent ++ (front ++ [.fileDataDone]) ∧ .fileDataDone ∉ front ∧
      (front.filterMap Sent.payload).flatten = content pieces := by
  induction pieces generalizing first trace with
  | nil => exact ⟨[], (streamBootObject_nil h).1, List.not_mem_nil, rfl⟩
  | cons piece rest ih =>
    obtain ⟨middle, responses, hsent, hdone, hpayload, _, hrest⟩ := streamBootObject_cons h
    obtain ⟨front, hfront, hnot, hcontent⟩ := ih hrest
    refine ⟨.fileData piece.bytes :: (responses ++ front), ?_, ?_, ?_⟩
    · rw [hfront, hsent]
      simp
    · simp [hdone, hnot]
    · rw [List.filterMap_cons]
      show (piece.bytes :: (responses ++ front).filterMap Sent.payload).flatten = _
      rw [List.filterMap_append, hpayload, List.nil_append, List.flatten_cons, hcontent,
        content_cons]

/-- Only behind the first chunk there is a wait. -/
theorem waits_streamBootObject {pieces : List Piece}
    (h : streamBootObject env sink false pieces trace = (.done (), trace')) :
    trace'.waits = trace.waits := by
  induction pieces generalizing trace with
  | nil => exact (streamBootObject_nil h).2
  | cons piece rest ih =>
    obtain ⟨middle, _, _, _, _, hwaits, hrest⟩ := streamBootObject_cons h
    rw [ih hrest, hwaits, if_neg fun hpause => Bool.false_ne_true hpause.1, List.append_nil]

end Runs

/-- What was read first. -/
def firstRead (pieces : List Piece) : Bytes := (pieces.head?.map Piece.bytes).getD []

theorem waits_first {env : Environment} {sink : BootSink} {pieces : List Piece} {trace : Trace}
    (h : streamBootObject env sink true pieces ⟨[], []⟩ = (.done (), trace)) :
    trace.waits = if aeaMagic <+: firstRead pieces then [env.waited] else [] := by
  cases pieces with
  | nil =>
    rw [(streamBootObject_nil h).2]
    rfl
  | cons piece rest =>
    obtain ⟨middle, _, _, _, _, hwaits, hrest⟩ := streamBootObject_cons h
    rw [waits_streamBootObject hrest, hwaits, List.nil_append]
    by_cases hmagic : aeaMagic <+: piece.bytes
    · rw [if_pos ⟨rfl, hmagic⟩]
      exact (if_pos hmagic).symm
    · rw [if_neg fun hpause => hmagic hpause.2]
      exact (if_neg hmagic).symm

/-- The first read has the magic of an image that has it, if it has four bytes. -/
theorem prefix_firstRead (pieces : List Piece) :
    aeaMagic <+: firstRead pieces ↔
      aeaMagic <+: content pieces ∧ 4 ≤ (firstRead pieces).length := by
  have hfront : firstRead pieces <+: content pieces := by
    cases pieces with
    | nil => exact List.nil_prefix
    | cons piece rest =>
      rw [content_cons]
      exact List.prefix_append _ _
  constructor
  · intro hmagic
    exact ⟨hmagic.trans hfront, hmagic.length_le⟩
  · intro h
    obtain ⟨hmagic, hlength⟩ := h
    exact List.prefix_of_prefix_length_le hmagic hfront hlength

/-- A run that returns streams the image and loses nothing exactly if the image is not
encrypted, or its first four bytes come in one read and the device has sent a request of the
key by the end of the wait, or nothing. -/
theorem streams_iff (env : Environment) (sink : BootSink) (pieces : List Piece) (trace : Trace)
    (h : streamBootObject env sink true pieces ⟨[], []⟩ = (.done (), trace)) :
    Streams env (content pieces) trace ↔
      (aeaMagic <+: content pieces → 4 ≤ (firstRead pieces).length ∧ env.waited.KeepsOthers env) := by
  have hwaits := waits_first h
  have hmagic := prefix_firstRead pieces
  obtain ⟨front, hfront⟩ := sent_streamBootObject h
  by_cases hfirst : aeaMagic <+: firstRead pieces
  · rw [if_pos hfirst] at hwaits
    obtain ⟨himage, hlength⟩ := hmagic.mp hfirst
    constructor
    · intro hstreams _
      refine ⟨hlength, hstreams.keeps env.waited ?_⟩
      rw [hwaits]
      exact List.mem_singleton_self _
    · intro hkeeps
      refine ⟨⟨front, hfront⟩, iff_of_true ?_ himage, fun waited hmem => ?_⟩
      · rw [hwaits]
        exact List.cons_ne_nil _ _
      · rw [hwaits] at hmem
        rw [List.mem_singleton.mp hmem]
        exact (hkeeps himage).2
  · rw [if_neg hfirst] at hwaits
    constructor
    · intro hstreams himage
      exact absurd hwaits (hstreams.pauses.mpr himage)
    · intro hkeeps
      have himage : ¬ aeaMagic <+: content pieces :=
        fun himage => hfirst (hmagic.mpr ⟨himage, (hkeeps himage).1⟩)
      refine ⟨⟨front, hfront⟩, iff_of_false (fun hne => hne hwaits) himage, fun waited hmem => ?_⟩
      rw [hwaits] at hmem
      exact absurd hmem List.not_mem_nil

/-- Nothing fails, and every body is read as a status message. -/
def calm (arrives : Bytes) : Environment where
  cancelled _ := false
  sendFails _ := false
  readFails := false
  arrives := arrives
  closes := false
  decode _ := some [("MsgType", .string "StatusMsg")]
  urlAssetResponse _ := none

/-- An encrypted image in one read, while nothing comes from the device. -/
theorem streams_whole_read :
    Streams (calm []) [0x41, 0x45, 0x41, 0x31, 7]
      ⟨[.fileData [0x41, 0x45, 0x41, 0x31, 7], .fileDataDone], [.timedOut []]⟩ :=
  (streams_iff (calm []) .restored [⟨[0x41, 0x45, 0x41, 0x31, 7], by decide⟩] _ rfl).mpr
    fun _ => ⟨by decide, rfl⟩

/-- The magic in two reads is not seen; a status message is taken away by the wait; and a
message of which the length has come is left without it. -/
theorem streams_fails :
    (∃ trace, streamBootObject (calm []) .restored true
        [⟨[0x41, 0x45], by decide⟩, ⟨[0x41, 0x31], by decide⟩] ⟨[], []⟩ = (.done (), trace) ∧
      ¬ Streams (calm []) [0x41, 0x45, 0x41, 0x31] trace) ∧
    (∃ trace, streamBootObject (calm [0, 0, 0, 1, 9]) .restored true
        [⟨[0x41, 0x45, 0x41, 0x31], by decide⟩] ⟨[], []⟩ = (.done (), trace) ∧
      ¬ Streams (calm [0, 0, 0, 1, 9]) [0x41, 0x45, 0x41, 0x31] trace) ∧
    (∃ trace, streamBootObject (calm [0, 0, 0, 1]) .restored true
        [⟨[0x41, 0x45, 0x41, 0x31], by decide⟩] ⟨[], []⟩ = (.done (), trace) ∧
      ¬ Streams (calm [0, 0, 0, 1]) [0x41, 0x45, 0x41, 0x31] trace) := by
  refine ⟨⟨_, rfl, fun hstreams => ?_⟩, ⟨_, rfl, fun hstreams => ?_⟩, ⟨_, rfl, fun hstreams => ?_⟩⟩
  · exact hstreams.pauses.mpr (by decide) rfl
  · obtain ⟨message, hmessage, htype⟩ := hstreams.keeps _ (List.mem_singleton_self _)
    cases hmessage
    exact absurd htype (by decide)
  · exact nomatch hstreams.keeps _ (List.mem_singleton_self _)

end XitForge.Restore.BootObject
