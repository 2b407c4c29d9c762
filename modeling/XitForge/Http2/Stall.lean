import Mathlib.Tactic.Common
import XitForge.Http2.FlowControl
import XitForge.Watch

/-!
Where `send_inner` waits. Its loop is watched: each turn is noted with the windows it
finds, once it is known whether the chunk is sent or a frame of the peer is pumped.
The comment of the loop has it pump when a window is exhausted, but a window that
holds a part of the chunk is not, and the loop pumps there too.
-/
namespace XitForge.Http2

open Program Watched

/-- A turn of the loop of `send_inner`, in front of the pump or of the DATA frame. -/
structure Turn where
  connection : Int64
  stream : Int64
  chunk : Bytes
  waits : Bool
  deriving DecidableEq, Repr

namespace Turn

def inWorld (streamId : ℕ) (chunk : Bytes) (waits : Bool) (w : World) : Turn where
  connection := w.client.connSendWindow
  stream := w.client.streamSendWindow streamId
  chunk := chunk
  waits := waits

/-- The smaller window. -/
def window (turn : Turn) : ℤ := min turn.connection.toInt turn.stream.toInt

/-- It waits for an exhausted window only, and where both windows have room a frame
goes out that is no larger than the smaller one. -/
def Proper (turn : Turn) : Prop :=
  (turn.waits = true → turn.window ≤ 0) ∧
    (0 < turn.window → turn.waits = false ∧ (turn.chunk.length : ℤ) ≤ turn.window)

/-- What the loop does instead: it waits for room for the whole chunk. -/
structure ByChunk (turn : Turn) : Prop where
  chunk : turn.chunk ≠ []
  waits : turn.waits = true ↔ turn.window < turn.chunk.length

theorem ByChunk.proper_iff {turn : Turn} (h : turn.ByChunk) :
    turn.Proper ↔ turn.window ≤ 0 ∨ (turn.chunk.length : ℤ) ≤ turn.window := by
  have hlength := List.length_pos_iff.mpr h.chunk
  constructor
  · intro hproper
    by_cases hroom : 0 < turn.window
    · exact Or.inr (hproper.2 hroom).2
    · exact Or.inl (not_lt.mp hroom)
  · intro hwindow
    have hwaits := h.waits
    constructor
    · intro hwait
      have hshort := hwaits.mp hwait
      omega
    · intro hroom
      have hfits : (turn.chunk.length : ℤ) ≤ turn.window := by omega
      have hgoes : ¬ turn.waits = true := fun hwait => by
        have hshort := hwaits.mp hwait
        omega
      exact ⟨Bool.not_eq_true _ ▸ hgoes, hfits⟩

end Turn

/-- `awaitWindows`, watched. -/
def awaitWindowsNoting (streamId : ℕ) (chunk : Bytes) : ℕ → ℕ → Watched Turn World Error Unit
  | 0, _ => watch Prog.stop
  | rounds + 1, pumpRounds => do
    let need := Int64.ofNat chunk.length
    let w ← watch Prog.get
    if w.client.connSendWindow < need then
      note (Turn.inWorld streamId chunk true)
      watch (pump pumpRounds)
      awaitWindowsNoting streamId chunk rounds pumpRounds
    else
      watch (Prog.modify (World.change (·.seedWindow streamId)))
      let window := (w.client.streamSendWindows streamId).getD w.client.peerInitialWindow
      if window < need then
        note (Turn.inWorld streamId chunk true)
        watch (pump pumpRounds)
        awaitWindowsNoting streamId chunk rounds pumpRounds
      else note (Turn.inWorld streamId chunk false)

def sendChunksNoting (rounds streamId : ℕ) (endStream : Bool) :
    List Bytes → Watched Turn World Error Unit
  | [] => watch flush
  | chunk :: rest => do
    awaitWindowsNoting streamId chunk rounds rounds
    watch (sendData ⟨streamId, chunk, endStream && rest.isEmpty⟩)
    sendChunksNoting rounds streamId endStream rest

/-- `send_inner`, watched. -/
def sendInnerNoting (rounds : ℕ) (payload : Bytes) (streamId : ℕ) (endStream : Bool) :
    Watched Turn World Error Unit :=
  if chunks payload = [] then do
    watch (writeAll (.data ⟨streamId, [], endStream⟩))
    watch flush
  else sendChunksNoting rounds streamId endStream (chunks payload)

/-- The turns of a call of `send_inner`. -/
def turns (rounds : ℕ) (payload : Bytes) (streamId : ℕ) (endStream : Bool) (w : World) :
    List Turn :=
  (sendInnerNoting rounds payload streamId endStream (w, [])).2.2

section Records

theorem awaitWindowsNoting_records (streamId : ℕ) (chunk : Bytes) (rounds pumpRounds : ℕ) :
    Records (awaitWindowsNoting streamId chunk rounds pumpRounds)
      (awaitWindows streamId (Int64.ofNat chunk.length) rounds pumpRounds) := by
  induction rounds with
  | zero => exact Records.watch
  | succ rounds ih =>
    have hwait : Records (Watched.note (Turn.inWorld streamId chunk true) >>= fun _ =>
        Watched.watch (pump pumpRounds) >>= fun _ =>
          awaitWindowsNoting streamId chunk rounds pumpRounds) _ :=
      Records.note (Records.bind Records.watch fun _ => ih)
    refine Records.bind Records.watch fun w => Records.ite hwait ?_
    refine Records.bind Records.watch fun _ => Records.ite hwait ?_
    exact Records.note (Records.pure ())

theorem sendChunksNoting_records (rounds streamId : ℕ) (endStream : Bool) (chunks : List Bytes) :
    Records (sendChunksNoting rounds streamId endStream chunks)
      (sendChunks rounds streamId endStream chunks) := by
  induction chunks with
  | nil => exact Records.watch
  | cons chunk rest ih =>
    refine Records.bind (awaitWindowsNoting_records streamId chunk rounds rounds) fun _ => ?_
    exact Records.bind Records.watch fun _ => ih

theorem sendInnerNoting_records (rounds : ℕ) (payload : Bytes) (streamId : ℕ) (endStream : Bool) :
    Records (sendInnerNoting rounds payload streamId endStream)
      (sendInner rounds payload streamId endStream) := by
  refine Records.ite ?_ (sendChunksNoting_records rounds streamId endStream (chunks payload))
  exact Records.bind Records.watch fun _ => Records.watch

end Records

section Turns

variable {streamId : ℕ} {chunk : Bytes}

/-- The windows are compared with the length of the chunk. -/
theorem inWorld_byChunk (hchunk : chunk ≠ []) (hlength : chunk.length ≤ maxFrameSize)
    {waits : Bool} {w : World}
    (hwaits : waits = true ↔ w.client.connSendWindow < Int64.ofNat chunk.length ∨
      w.client.streamSendWindow streamId < Int64.ofNat chunk.length) :
    (Turn.inWorld streamId chunk waits w).ByChunk := by
  have hneed : (Int64.ofNat chunk.length).toInt = chunk.length :=
    Int64.toInt_ofNat_of_lt (by rw [maxFrameSize] at hlength; omega)
  refine ⟨hchunk, hwaits.trans ?_⟩
  rw [Int64.lt_iff_toInt_lt, Int64.lt_iff_toInt_lt, hneed]
  exact min_lt_iff.symm

theorem awaitWindowsNoting_byChunk (hchunk : chunk ≠ []) (hlength : chunk.length ≤ maxFrameSize)
    (rounds pumpRounds : ℕ) :
    Triple (AllNoted Turn.ByChunk) (awaitWindowsNoting streamId chunk rounds pumpRounds)
      (fun _ => AllNoted Turn.ByChunk) (fun _ => AllNoted Turn.ByChunk)
      (AllNoted Turn.ByChunk) := by
  induction rounds with
  | zero => exact watch_all Prog.stop
  | succ rounds ih =>
    -- the windows are still those that were compared when the turn is noted
    have hwait : ∀ P : World → Prop, (∀ w, P w → w.client.connSendWindow < Int64.ofNat chunk.length ∨
        w.client.streamSendWindow streamId < Int64.ofNat chunk.length) →
        Triple (Noted Turn.ByChunk P) (do
            note (Turn.inWorld streamId chunk true)
            watch (pump pumpRounds)
            awaitWindowsNoting streamId chunk rounds pumpRounds) (fun _ => AllNoted Turn.ByChunk)
          (fun _ => AllNoted Turn.ByChunk) (AllNoted Turn.ByChunk) := by
      intro P hP
      refine Triple.bind (note_noted fun w hw => ?_) fun _ => ?_
      · exact inWorld_byChunk hchunk hlength (iff_of_true rfl (hP w hw))
      · refine Triple.pre (Triple.bind (watch_all (pump pumpRounds)) fun _ => ih) ?_
        exact fun _ h => Noted.all h
    refine Triple.bind watch_get fun w => Triple.ite ?_ ?_
    · exact fun hconnection => hwait _ fun _ hw => hw ▸ Or.inl hconnection
    · intro hconnection
      refine Triple.bind (watch_modify (Q := (· = w.change (·.seedWindow streamId))) ?_) fun _ =>
        Triple.ite ?_ ?_
      · exact fun _ hw => congrArg (World.change (·.seedWindow streamId)) hw
      · intro hstream
        refine hwait _ fun _ hw => hw ▸ Or.inr ?_
        rw [World.change, seedWindow_streamSendWindow]
        exact hstream
      · intro hstream
        refine Triple.post (note_noted fun w' hw' => ?_) fun _ _ h => Noted.all h
        refine inWorld_byChunk hchunk hlength (iff_of_false Bool.false_ne_true ?_)
        rw [hw', World.change, seedWindow_streamSendWindow]
        exact not_or.mpr ⟨hconnection, hstream⟩

theorem sendChunksNoting_byChunk (rounds : ℕ) (endStream : Bool) (chunks : List Bytes)
    (hchunks : ∀ chunk ∈ chunks, chunk.length ≤ maxFrameSize ∧ chunk ≠ []) :
    Triple (AllNoted Turn.ByChunk) (sendChunksNoting rounds streamId endStream chunks)
      (fun _ => AllNoted Turn.ByChunk) (fun _ => AllNoted Turn.ByChunk)
      (AllNoted Turn.ByChunk) := by
  induction chunks with
  | nil => exact watch_all flush
  | cons chunk rest ih =>
    obtain ⟨hlength, hchunk⟩ := hchunks chunk List.mem_cons_self
    refine Triple.bind (awaitWindowsNoting_byChunk hchunk hlength rounds rounds) fun _ => ?_
    refine Triple.bind (watch_all _) fun _ => ?_
    exact ih fun other hother => hchunks other (List.mem_cons_of_mem _ hother)

theorem turns_byChunk (rounds : ℕ) (payload : Bytes) (streamId : ℕ) (endStream : Bool)
    (w : World) : ∀ turn ∈ turns rounds payload streamId endStream w, turn.ByChunk := by
  have hchunks := (chunksFrom_spec _ payload (Nat.le_refl _)).2
  refine AllNoted.of_triple (Triple.ite (fun _ => ?_) fun _ => ?_) w
  · exact Triple.bind (watch_all _) fun _ => watch_all _
  · exact sendChunksNoting_byChunk rounds endStream _ hchunks

end Turns

/-- The watched run is that of `send_inner`, and all of its turns are proper if and only
if whenever a chunk is up the smaller window is exhausted or holds the whole chunk. -/
theorem sendInner_turns_proper_iff (rounds : ℕ) (payload : Bytes) (streamId : ℕ) (endStream : Bool)
    (w : World) :
    Records (sendInnerNoting rounds payload streamId endStream)
      (sendInner rounds payload streamId endStream) ∧
    ((∀ turn ∈ turns rounds payload streamId endStream w, turn.Proper) ↔
      ∀ turn ∈ turns rounds payload streamId endStream w,
        turn.window ≤ 0 ∨ (turn.chunk.length : ℤ) ≤ turn.window) := by
  refine ⟨sendInnerNoting_records rounds payload streamId endStream, ?_⟩
  have hturns := turns_byChunk rounds payload streamId endStream w
  exact forall₂_congr fun turn hmem => (hturns turn hmem).proper_iff

/-- A peer that has set `InitialWindowSize` to 1 has left room for an octet, and the two
octets of a payload wait for more. -/
theorem sendInner_waits_with_room :
    ∃ turn ∈ turns 2 [1, 2] 1 false (runCalls 2 [.read 1] (World.new
        [.ready [0, 0, 6, 4, 0, 0, 0, 0, 0, 0, 4, 0, 0, 0, 1], .ready [], .ready [], .dropped])),
      turn.waits = true ∧ 0 < turn.connection ∧ 0 < turn.stream := by
  refine ⟨⟨65535, 1, [1, 2], true⟩, ?_, ?_⟩
  · decide
  · decide

end XitForge.Http2
