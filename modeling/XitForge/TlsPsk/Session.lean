import XitForge.TlsPsk.Reads
import XitForge.TlsPsk.WriteRuns

/-!
Two ends of one record layer, each of which reads with the keys that the other writes with.
Both write, flush and read in any order; an end may read what the inner stream has accepted of
the other so far, in pieces of any size. At every point the bytes an end delivered are the
first of the plaintexts that the other handed over.
-/
namespace XitForge.TlsPsk

section Model

/-- The keys of the other end. -/
def KeyBlock.mirror (keys : KeyBlock) : KeyBlock where
  clientMacKey := keys.serverMacKey
  serverMacKey := keys.clientMacKey
  clientWriteKey := keys.serverWriteKey
  serverWriteKey := keys.clientWriteKey
  suite := keys.suite

/-- A stream with what its callers were told, and how much of the other end's bytes it took. -/
structure Endpoint where
  writer : Writer
  delivered : Bytes := []
  taken : ℕ := 0
  deriving DecidableEq, Repr

namespace Endpoint

def start (keys : KeyBlock) : Endpoint := { writer := Writer.start keys }

/-- The bytes that the inner stream has accepted. -/
def accepted (e : Endpoint) : Bytes := e.writer.stream.inner.accepted

def write (P : Primitives) (e : Endpoint) (call : Call) : Endpoint :=
  { e with writer := e.writer.call P call }

/-- A `poll_read`, while the other end's inner stream has accepted `sent`. -/
def poll (P : Primitives) (e : Endpoint) (sent : Bytes) (call : ReadCall) : ReadOutcome :=
  e.writer.stream.pollRead P call.remaining (sent.drop e.taken) call.arrivals

def read (P : Primitives) (e : Endpoint) (sent : Bytes) (call : ReadCall) : Endpoint :=
  let outcome := e.poll P sent call
  { writer := { e.writer with stream := outcome.stream }
    delivered := e.delivered ++ outcome.bytes
    taken := sent.length - outcome.unread.length }

end Endpoint

inductive Side where
  | near
  | far
  deriving DecidableEq, Repr

inductive Act where
  | write (side : Side) (call : Call)
  | read (side : Side) (call : ReadCall)
  deriving DecidableEq, Repr

structure Session where
  near : Endpoint
  far : Endpoint
  deriving DecidableEq, Repr

namespace Session

def start (keys : KeyBlock) : Session := ⟨Endpoint.start keys, Endpoint.start keys.mirror⟩

def act (P : Primitives) (s : Session) : Act → Session
  | .write .near call => { s with near := s.near.write P call }
  | .write .far call => { s with far := s.far.write P call }
  | .read .near call => { s with near := s.near.read P s.far.accepted call }
  | .read .far call => { s with far := s.far.read P s.near.accepted call }

def run (P : Primitives) (s : Session) (acts : List Act) : Session := acts.foldl (act P) s

end Session

/-- The IV that an end draws is one block. -/
def Act.Draws : Act → Prop
  | .write _ (.write _ iv _) => iv.length = 16
  | _ => True

instance : DecidablePred Act.Draws
  | .write _ (.write _ iv _) => inferInstanceAs (Decidable (iv.length = 16))
  | .write _ (.flush _) => instDecidableTrue
  | .write _ .shutdown => instDecidableTrue
  | .read _ _ => instDecidableTrue

/-- Data goes into a record that the inner stream of that end leaves pending. -/
def Session.LeavesPending (s : Session) : Act → Prop
  | .write .near call => s.near.writer.LeavesPending call
  | .write .far call => s.far.writer.LeavesPending call
  | .read _ _ => False

end Model

section Fields

/-- What reading uses of a stream. -/
def TlsPskStream.readSide (s : TlsPskStream) : KeyBlock × UInt64 × Bytes × Bytes × ℕ :=
  (s.keys, s.readSeq, s.readBuf, s.pendingRecord, s.pendingRecordTotal)

/-- What writing uses of a stream. -/
def TlsPskStream.writeSide (s : TlsPskStream) : KeyBlock × UInt64 × Inner × Bytes :=
  (s.keys, s.writeSeq, s.inner, s.writeBuf)

variable {P : Primitives}

theorem fields_of_readSide {s s' : TlsPskStream} (h : s'.readSide = s.readSide) :
    s'.keys = s.keys ∧ s'.readSeq = s.readSeq ∧ s'.readBuf = s.readBuf ∧
      s'.pendingRecord = s.pendingRecord ∧ s'.pendingRecordTotal = s.pendingRecordTotal := by
  simpa only [TlsPskStream.readSide, Prod.mk.injEq] using h

theorem fields_of_writeSide {s s' : TlsPskStream} (h : s'.writeSide = s.writeSide) :
    s'.keys = s.keys ∧ s'.writeSeq = s.writeSeq ∧ s'.inner = s.inner ∧
      s'.writeBuf = s.writeBuf := by
  simpa only [TlsPskStream.writeSide, Prod.mk.injEq] using h

theorem flushWriteBuf_readSide (s : TlsPskStream) (answers : List Answer) :
    (s.flushWriteBuf answers).2.1.readSide = s.readSide := by
  induction answers generalizing s with
  | nil =>
    unfold TlsPskStream.flushWriteBuf
    split <;> rfl
  | cons answer rest ih =>
    unfold TlsPskStream.flushWriteBuf
    split
    · rfl
    · cases answer with
      | pending => rfl
      | error => rfl
      | ready n => exact ih _

theorem pollWrite_readSide (iv : Bytes) (s : TlsPskStream) (data : Bytes) (answers : List Answer) :
    (s.pollWrite P iv data answers).2.1.readSide = s.readSide := by
  have hflush := flushWriteBuf_readSide s answers
  unfold TlsPskStream.pollWrite
  rcases hrun : s.flushWriteBuf answers with ⟨result, s', rest⟩
  rw [hrun] at hflush
  cases result with
  | pending => exact hflush
  | ready result =>
    cases result with
    | error e => exact hflush
    | ok value =>
      dsimp only
      cases rest.headD .pending with
      | pending => exact hflush
      | error => exact hflush
      | ready n => exact hflush

theorem call_write_stream (w : Writer) (data iv : Bytes) (answers : List Answer) :
    (w.call P (.write data iv answers)).stream = (w.stream.pollWrite P iv data answers).2.1 := by
  rcases hrun : w.stream.pollWrite P iv data answers with ⟨result, s, sent⟩
  simp only [Writer.call, hrun]
  cases result with
  | pending => rfl
  | ready result => cases result <;> rfl

/-- Writing leaves what reading uses. -/
theorem call_readSide (w : Writer) (call : Call) :
    (w.call P call).stream.readSide = w.stream.readSide := by
  cases call with
  | write data iv answers =>
    rw [call_write_stream]
    exact pollWrite_readSide iv w.stream data answers
  | flush answers => exact flushWriteBuf_readSide w.stream answers
  | shutdown => rfl

theorem openRecord_writeSide (remaining : ℕ) (s : TlsPskStream) (unread : Bytes) :
    (s.openRecord P remaining unread).stream.writeSide = s.writeSide := by
  unfold TlsPskStream.openRecord
  split
  · dsimp only
    split <;> rfl
  · rfl

theorem noteHeader_writeSide (s : TlsPskStream) : s.noteHeader.writeSide = s.writeSide := by
  unfold TlsPskStream.noteHeader
  split <;> rfl

theorem readLoop_writeSide (remaining : ℕ) (s : TlsPskStream) (unread : Bytes)
    (arrivals : List Arrival) :
    (s.readLoop P remaining unread arrivals).stream.writeSide = s.writeSide := by
  induction arrivals generalizing s unread with
  | nil =>
    unfold TlsPskStream.readLoop
    dsimp only
    split
    · exact (openRecord_writeSide remaining _ unread).trans (noteHeader_writeSide s)
    · exact noteHeader_writeSide s
  | cons arrival rest ih =>
    unfold TlsPskStream.readLoop
    dsimp only
    split
    · exact (openRecord_writeSide remaining _ unread).trans (noteHeader_writeSide s)
    · cases arrival with
      | pending => exact noteHeader_writeSide s
      | error => exact noteHeader_writeSide s
      | ready n =>
        dsimp only
        split
        · exact noteHeader_writeSide s
        · exact (ih _ _).trans (noteHeader_writeSide s)

/-- Reading leaves what writing uses. -/
theorem pollRead_writeSide (remaining : ℕ) (s : TlsPskStream) (unread : Bytes)
    (arrivals : List Arrival) :
    (s.pollRead P remaining unread arrivals).stream.writeSide = s.writeSide := by
  unfold TlsPskStream.pollRead
  split
  · rfl
  · exact readLoop_writeSide remaining s unread arrivals

end Fields

section Arrivals

variable {P : Primitives}

/-- The same call with more to come: what was the end of the stream may be a wait. -/
structure ReadOutcome.Extends (outcome longer : ReadOutcome) (more : Bytes) : Prop where
  stream : longer.stream = outcome.stream
  unread : longer.unread = outcome.unread ++ more
  bytes : longer.bytes = outcome.bytes
  result : longer.result = outcome.result ∨ outcome.result = .ready (.ok [])

theorem openRecord_more (remaining : ℕ) (s : TlsPskStream) (unread more : Bytes) :
    (s.openRecord P remaining unread).Extends (s.openRecord P remaining (unread ++ more)) more := by
  unfold TlsPskStream.openRecord
  split
  · dsimp only
    split <;> exact ⟨rfl, rfl, rfl, Or.inl rfl⟩
  · exact ⟨rfl, rfl, rfl, Or.inl rfl⟩

/-- A loop that is given less than there is goes as one that could have taken more: pieces
are as long as what was there, and the end of it is a wait. -/
theorem readLoop_more (remaining : ℕ) (s : TlsPskStream) (unread more : Bytes)
    (arrivals : List Arrival) :
    ∃ arrivals', (s.readLoop P remaining unread arrivals).Extends
      (s.readLoop P remaining (unread ++ more) arrivals') more := by
  induction arrivals generalizing s unread with
  | nil =>
    refine ⟨[], ?_⟩
    unfold TlsPskStream.readLoop
    dsimp only
    split
    · exact openRecord_more remaining _ unread more
    · exact ⟨rfl, rfl, rfl, Or.inl rfl⟩
  | cons arrival rest ih =>
    by_cases hwhole : 0 < s.noteHeader.pendingRecordTotal ∧
        s.noteHeader.pendingRecordTotal ≤ s.noteHeader.pendingRecord.length
    · refine ⟨[], ?_⟩
      unfold TlsPskStream.readLoop
      dsimp only
      rw [if_pos hwhole, if_pos hwhole]
      exact openRecord_more remaining _ unread more
    · cases arrival with
      | pending =>
        refine ⟨[.pending], ?_⟩
        unfold TlsPskStream.readLoop
        dsimp only
        rw [if_neg hwhole, if_neg hwhole]
        exact ⟨rfl, rfl, rfl, Or.inl rfl⟩
      | error =>
        refine ⟨[.error], ?_⟩
        unfold TlsPskStream.readLoop
        dsimp only
        rw [if_neg hwhole, if_neg hwhole]
        exact ⟨rfl, rfl, rfl, Or.inl rfl⟩
      | ready n =>
        by_cases hgot : unread.take (min (n + 1) 16384) = []
        · refine ⟨[.pending], ?_⟩
          unfold TlsPskStream.readLoop
          dsimp only
          rw [if_neg hwhole, if_neg hwhole, if_pos hgot]
          exact ⟨rfl, rfl, rfl, Or.inr rfl⟩
        · obtain ⟨arrivals', h⟩ := ih
            { s.noteHeader with
              pendingRecord := s.noteHeader.pendingRecord ++ unread.take (min (n + 1) 16384) }
            (unread.drop (min (n + 1) 16384))
          have hlength := List.length_pos_iff.mpr hgot
          have htake : (unread.take (min (n + 1) 16384)).length =
              min (min (n + 1) 16384) unread.length := List.length_take
          -- the piece is as long as what was taken
          refine ⟨.ready ((unread.take (min (n + 1) 16384)).length - 1) :: arrivals', ?_⟩
          have hpiece : min ((unread.take (min (n + 1) 16384)).length - 1 + 1) 16384 =
              (unread.take (min (n + 1) 16384)).length := by omega
          have hsame : (unread ++ more).take (unread.take (min (n + 1) 16384)).length =
              unread.take (min (n + 1) 16384) := by
            rw [List.take_append_of_le_length (by omega), htake, List.take_eq_take_iff]
            omega
          have hrest : (unread ++ more).drop (unread.take (min (n + 1) 16384)).length =
              unread.drop (min (n + 1) 16384) ++ more := by
            rw [List.drop_append_of_le_length (by omega), htake]
            congr 1
            rcases Nat.le_total (min (n + 1) 16384) unread.length with hle | hle
            · rw [Nat.min_eq_left hle]
            · rw [Nat.min_eq_right hle, List.drop_length, List.drop_eq_nil_of_le hle]
          unfold TlsPskStream.readLoop
          dsimp only
          rw [if_neg hwhole, if_neg hwhole, if_neg hgot, hpiece, hsame, hrest, if_neg hgot]
          exact h

theorem pollRead_more (remaining : ℕ) (s : TlsPskStream) (unread more : Bytes)
    (arrivals : List Arrival) :
    ∃ arrivals', (s.pollRead P remaining unread arrivals).Extends
      (s.pollRead P remaining (unread ++ more) arrivals') more := by
  unfold TlsPskStream.pollRead
  split
  · exact ⟨[], rfl, rfl, rfl, Or.inl rfl⟩
  · exact readLoop_more remaining s unread more arrivals

theorem readLoop_unread (remaining : ℕ) (s : TlsPskStream) (unread : Bytes)
    (arrivals : List Arrival) : (s.readLoop P remaining unread arrivals).unread <:+ unread := by
  induction arrivals generalizing s unread with
  | nil =>
    unfold TlsPskStream.readLoop TlsPskStream.openRecord
    dsimp only
    split
    · split
      · split <;> exact List.suffix_rfl
      · exact List.suffix_rfl
    · exact List.suffix_rfl
  | cons arrival rest ih =>
    unfold TlsPskStream.readLoop TlsPskStream.openRecord
    dsimp only
    split
    · split
      · split <;> exact List.suffix_rfl
      · exact List.suffix_rfl
    · cases arrival with
      | pending => exact List.suffix_rfl
      | error => exact List.suffix_rfl
      | ready n =>
        dsimp only
        split
        · exact List.suffix_rfl
        · exact (ih _ _).trans (List.drop_suffix _ _)

/-- What a call leaves unread is the end of what it was given. -/
theorem pollRead_unread (remaining : ℕ) (s : TlsPskStream) (unread : Bytes)
    (arrivals : List Arrival) : (s.pollRead P remaining unread arrivals).unread <:+ unread := by
  unfold TlsPskStream.pollRead
  split
  · exact List.suffix_rfl
  · exact readLoop_unread remaining s unread arrivals

end Arrivals

section Handing

variable {P : Primitives}

/-- The record as the other end is to open it. -/
def SentRecord.received (P : Primitives) (keys : KeyBlock) (r : SentRecord) : ServerRecord where
  ct := ctApplicationData
  plaintext := r.plaintext
  body := encryptRecord P keys r.iv r.seq ctApplicationData r.plaintext

/-- The plaintexts that a writer has handed over. -/
def Writer.content (w : Writer) : Bytes := (w.handed.map SentRecord.plaintext).flatten

theorem plaintexts_received (keys : KeyBlock) (handed : List SentRecord) :
    plaintexts (handed.map (SentRecord.received P keys)) =
      (handed.map SentRecord.plaintext).flatten := by
  induction handed with
  | nil => rfl
  | cons r rest ih =>
    rw [List.map_cons, plaintexts_cons, ih]
    rfl

theorem wires_concat (records : List ServerRecord) (record : ServerRecord) :
    wires (records ++ [record]) = wires records ++ record.wire := by
  simp [wires]

/-- What a call of `poll_write` can do, whatever the inner stream answers. -/
theorem pollWrite_hands (iv : Bytes) (s : TlsPskStream) (data : Bytes) (answers : List Answer) :
    ∃ result s', s'.keys = s.keys ∧
      ((s.pollWrite P iv data answers = (result, s', none) ∧ (∀ n, result ≠ .ready (.ok n)) ∧
          s'.outgoing = s.outgoing ∧ s'.writeSeq = s.writeSeq) ∨
        s.pollWrite P iv data answers = (result, s', some (s.fresh iv data)) ∧
          (result = .ready (.ok (data.take TLS_MAX_PLAINTEXT).length) ∨
            result = .pending ∧ s.FreshPending answers) ∧
          s'.outgoing = s.outgoing ++ (s.fresh iv data).wire P s.keys ∧
          s'.writeSeq = s.writeSeq + 1) := by
  have hflush := s.flushWriteBuf_flushes answers
  unfold TlsPskStream.pollWrite TlsPskStream.FreshPending
  rcases hrun : s.flushWriteBuf answers with ⟨result, s₁, rest⟩
  rw [hrun] at hflush
  obtain ⟨hout, hkeys, hseq, hemptied, -, -⟩ := hflush
  dsimp only at hout hkeys hseq hemptied
  cases result with
  | pending => exact ⟨.pending, s₁, hkeys, Or.inl ⟨rfl, by simp, hout, hseq⟩⟩
  | ready result =>
    cases result with
    | error e =>
      exact ⟨.ready (.error e), s₁, hkeys, Or.inl ⟨rfl, by simp, hout, hseq⟩⟩
    | ok value =>
      have haccepted : s₁.inner.accepted = s.outgoing := by
        rw [← hout, TlsPskStream.outgoing, hemptied rfl, List.append_nil]
      have hsent : (⟨s₁.writeSeq, iv, data.take TLS_MAX_PLAINTEXT⟩ : SentRecord) =
          s.fresh iv data := by rw [TlsPskStream.fresh, hseq]
      simp only [hsent, hkeys]
      cases hanswer : rest.headD .pending with
      | error =>
        -- the number that was spent on the record is taken back
        refine ⟨.ready (.error .socket), { s₁ with writeSeq := s₁.writeSeq + 1 - 1 }, hkeys,
          Or.inl ⟨by simp [Inner.pollWrite, hkeys], by simp, hout, ?_⟩⟩
        exact (UInt64.add_sub_cancel s₁.writeSeq 1).trans hseq
      | pending =>
        refine ⟨.pending, { s₁ with
          writeSeq := s₁.writeSeq + 1
          writeBuf := (s.fresh iv data).wire P s.keys }, hkeys, Or.inr ⟨?_, ?_, ?_, ?_⟩⟩
        · simp [Inner.pollWrite, hkeys]
        · exact Or.inr ⟨rfl, trivial, rfl⟩
        · change s₁.inner.accepted ++ _ = _
          rw [haccepted]
        · change s₁.writeSeq + 1 = _
          rw [hseq]
      | ready n =>
        generalize (s.fresh iv data).wire P s.keys = record
        refine ⟨.ready (.ok (data.take TLS_MAX_PLAINTEXT).length), { s₁ with
          inner := ⟨s₁.inner.accepted ++ record.take n⟩
          writeSeq := s₁.writeSeq + 1
          writeBuf := s₁.writeBuf ++ record.drop (min n record.length) }, hkeys,
          Or.inr ⟨?_, Or.inl rfl, ?_, ?_⟩⟩
        · simp [Inner.pollWrite, hkeys]
        · have hsplit : record.take n ++ record.drop (min n record.length) = record := by
            rcases Nat.le_total n record.length with hle | hle
            · rw [Nat.min_eq_left hle, List.take_append_drop]
            · rw [Nat.min_eq_right hle, List.take_of_length_le hle, List.drop_length,
                List.append_nil]
          change s₁.inner.accepted ++ record.take n ++
            (s₁.writeBuf ++ record.drop (min n record.length)) = _
          rw [haccepted, hemptied rfl, List.nil_append, List.append_assoc, hsplit]
        · change s₁.writeSeq + 1 = _
          rw [hseq]

/-- What one call does to a writer: nothing is handed over, or one record is, with the number
that is next. -/
inductive Hands (P : Primitives) (w : Writer) (call : Call) (w' : Writer) : Prop where
  | nothing (keys : w'.stream.keys = w.stream.keys)
      (outgoing : w'.stream.outgoing = w.stream.outgoing)
      (writeSeq : w'.stream.writeSeq = w.stream.writeSeq) (handed : w'.handed = w.handed)
      (reported : w'.reported = w.reported) : Hands P w call w'
  | record (r : SentRecord) (answers : List Answer)
      (made : ∃ data, call = .write data r.iv answers ∧ r.plaintext = data.take TLS_MAX_PLAINTEXT)
      (seq : r.seq = w.stream.writeSeq) (keys : w'.stream.keys = w.stream.keys)
      (outgoing : w'.stream.outgoing = w.stream.outgoing ++ r.wire P w.stream.keys)
      (writeSeq : w'.stream.writeSeq = w.stream.writeSeq + 1) (handed : w'.handed = w.handed ++ [r])
      (reported : w'.reported = w.reported ++ r.plaintext ∨
        w'.reported = w.reported ∧ (r.plaintext = [] ∨ w.LeavesPending call)) : Hands P w call w'

theorem call_hands (w : Writer) (call : Call) : Hands P w call (w.call P call) := by
  cases call with
  | flush answers =>
    have hflush := w.stream.flushWriteBuf_flushes answers
    exact .nothing hflush.keys_eq hflush.outgoing_eq hflush.seq_eq rfl rfl
  | shutdown => exact .nothing rfl rfl rfl rfl rfl
  | write data iv answers =>
    obtain ⟨result, s', hkeys, ⟨hrun, hnot, hout, hseq⟩ | ⟨hrun, hresult, hout, hseq⟩⟩ :=
      pollWrite_hands (P := P) iv w.stream data answers
    · simp only [Writer.call, hrun]
      cases result with
      | pending => exact .nothing hkeys hout hseq (List.append_nil _) rfl
      | ready result =>
        cases result with
        | error e => exact .nothing hkeys hout hseq (List.append_nil _) rfl
        | ok n => exact absurd rfl (hnot n)
    · refine .record (w.stream.fresh iv data) answers ⟨data, rfl, rfl⟩ rfl ?_ ?_ ?_ ?_ ?_
      · obtain rfl | ⟨rfl, -⟩ := hresult <;> simp only [Writer.call, hrun] <;> exact hkeys
      · obtain rfl | ⟨rfl, -⟩ := hresult <;> simp only [Writer.call, hrun] <;> exact hout
      · obtain rfl | ⟨rfl, -⟩ := hresult <;> simp only [Writer.call, hrun] <;> exact hseq
      · obtain rfl | ⟨rfl, -⟩ := hresult <;> simp only [Writer.call, hrun] <;> rfl
      · obtain rfl | ⟨rfl, hfresh⟩ := hresult
        · left
          simp only [Writer.call, hrun]
          congr 1
          change data.take (data.take TLS_MAX_PLAINTEXT).length = data.take TLS_MAX_PLAINTEXT
          rw [List.length_take, List.take_eq_take_iff]
          omega
        · right
          simp only [Writer.call, hrun]
          refine ⟨trivial, ?_⟩
          by_cases hdata : data = []
          · left
            subst hdata
            rfl
          · exact Or.inr ⟨hdata, hfresh⟩

end Handing

section Written

variable {P : Primitives}

theorem flushWriteBuf_accepted (s : TlsPskStream) (answers : List Answer) :
    s.inner.accepted <+: (s.flushWriteBuf answers).2.1.inner.accepted := by
  induction answers generalizing s with
  | nil =>
    unfold TlsPskStream.flushWriteBuf
    split <;> exact List.prefix_rfl
  | cons answer rest ih =>
    unfold TlsPskStream.flushWriteBuf
    split
    · exact List.prefix_rfl
    · cases answer with
      | pending => exact List.prefix_rfl
      | error => exact List.prefix_rfl
      | ready n =>
        exact (List.prefix_append _ _).trans (ih { s with
          inner := ⟨s.inner.accepted ++ s.writeBuf.take n⟩
          writeBuf := s.writeBuf.drop (min n s.writeBuf.length) })

theorem pollWrite_accepted (iv : Bytes) (s : TlsPskStream) (data : Bytes) (answers : List Answer) :
    s.inner.accepted <+: (s.pollWrite P iv data answers).2.1.inner.accepted := by
  have hflush := flushWriteBuf_accepted s answers
  unfold TlsPskStream.pollWrite
  rcases hrun : s.flushWriteBuf answers with ⟨result, s', rest⟩
  rw [hrun] at hflush
  cases result with
  | pending => exact hflush
  | ready result =>
    cases result with
    | error e => exact hflush
    | ok value =>
      dsimp only
      cases rest.headD .pending with
      | pending => exact hflush
      | error => exact hflush
      | ready n => exact hflush.trans (List.prefix_append _ _)

/-- What the inner stream has accepted stays. -/
theorem call_accepted (w : Writer) (call : Call) :
    w.stream.inner.accepted <+: (w.call P call).stream.inner.accepted := by
  cases call with
  | flush answers => exact flushWriteBuf_accepted w.stream answers
  | shutdown => exact List.prefix_rfl
  | write data iv answers =>
    rw [call_write_stream]
    exact pollWrite_accepted iv w.stream data answers

/-- The records handed over are on their way, well formed and numbered from 1 on. -/
structure Lined (P : Primitives) (w : Writer) : Prop where
  bytes : w.stream.outgoing = wires (w.handed.map (SentRecord.received P w.stream.keys))
  next : w.stream.writeSeq = 1 + UInt64.ofNat w.handed.length

theorem Lined.of_writeSide {w : Writer} {s : TlsPskStream} (h : Lined P w)
    (hside : s.writeSide = w.stream.writeSide) : Lined P { w with stream := s } := by
  obtain ⟨hkeys, hseq, hinner, hbuf⟩ := fields_of_writeSide hside
  refine ⟨?_, hseq.trans h.next⟩
  change s.inner.accepted ++ s.writeBuf = _
  rw [hinner, hbuf, hkeys]
  exact h.bytes

theorem call_lined {w : Writer} {call : Call} (h : Lined P w) : Lined P (w.call P call) := by
  cases call_hands (P := P) w call with
  | nothing hkeys hout hseq hhanded hreported =>
    refine ⟨?_, ?_⟩
    · rw [hout, hkeys, hhanded]
      exact h.bytes
    · rw [hseq, hhanded]
      exact h.next
  | record r answers hmade hnumber hkeys hout hseq hhanded hreported =>
    refine ⟨?_, ?_⟩
    · rw [hout, hkeys, hhanded, List.map_append, List.map_singleton, wires_concat, h.bytes]
      rfl
    · rw [hseq, hhanded, h.next, List.length_append, List.length_singleton, UInt64.ofNat_add,
        UInt64.add_assoc]
      rfl

/-- A record that is handed over is one that the other end opens under its number. -/
theorem received_protects {keys : KeyBlock} {r : SentRecord} {data : Bytes}
    (hiv : r.iv.length = 16) (hdata : r.plaintext = data.take TLS_MAX_PLAINTEXT) :
    Protects P keys.mirror true r.seq (r.received P keys).ct (r.received P keys).plaintext
        (r.received P keys).body ∧
      (r.received P keys).body.length < 2 ^ 16 := by
  refine ⟨protects_encryptRecord hiv, ?_⟩
  have hshort : r.plaintext.length ≤ 16384 := by
    rw [hdata]
    exact List.length_take_le _ _
  have hmac : keys.suite.macKeyLen ≤ 48 := by cases keys.suite <;> decide
  change (encryptRecord P keys r.iv r.seq ctApplicationData r.plaintext).length < 2 ^ 16
  unfold encryptRecord
  simp only [List.length_append, P.cbcEncrypt_length, computeMac_length, List.length_replicate]
  omega

theorem Numbered.concat {keys : KeyBlock} {record : ServerRecord} {records : List ServerRecord}
    {seq : UInt64} (h : Numbered P keys seq records)
    (hrecord : Protects P keys true (seq + UInt64.ofNat records.length) record.ct record.plaintext
      record.body ∧ record.body.length < 2 ^ 16) : Numbered P keys seq (records ++ [record]) := by
  induction records generalizing seq with
  | nil =>
    refine ⟨?_, trivial⟩
    exact (UInt64.add_zero seq) ▸ hrecord
  | cons head rest ih =>
    refine ⟨h.1, ih h.2 ?_⟩
    rwa [List.length_cons, Nat.add_comm, UInt64.ofNat_add, ← UInt64.add_assoc] at hrecord

end Written

section Linked

variable {P : Primitives} {a b : Endpoint}

/-- One direction of a session, from the end `a` to the end `b`: the records that `b` has opened
and those on their way to it are the ones that `a` has handed over. -/
structure Link (P : Primitives) (a b : Endpoint) : Prop where
  keys : b.writer.stream.keys = a.writer.stream.keys.mirror
  lined : Lined P a.writer
  taken : b.taken ≤ a.accepted.length
  reads : ∃ done rest, done ++ rest =
      a.writer.handed.map (SentRecord.received P a.writer.stream.keys) ∧
    Reads P 1 done rest ⟨b.writer.stream, a.writer.stream.outgoing.drop b.taken, b.delivered⟩

theorem start_link (keys : KeyBlock) :
    Link P (Endpoint.start keys) (Endpoint.start keys.mirror) where
  keys := rfl
  lined := ⟨rfl, rfl⟩
  taken := Nat.zero_le _
  reads := ⟨[], [], rfl, trivial, rfl, rfl, rfl, Or.inl rfl⟩

theorem Reads.of_readSide {first : UInt64} {done rest : List ServerRecord} {r : Reader}
    {s : TlsPskStream} (h : Reads P first done rest r)
    (hside : s.readSide = r.stream.readSide) : Reads P first done rest { r with stream := s } := by
  obtain ⟨hkeys, hseq, hbuf, hpending, htotal⟩ := fields_of_readSide hside
  refine ⟨?_, hseq.trans h.counted, ?_, ?_, ?_⟩
  · change Numbered P s.keys s.readSeq rest
    rw [hkeys, hseq]
    exact h.numbered
  · change r.delivered ++ s.readBuf = _
    rw [hbuf]
    exact h.served
  · change s.pendingRecord ++ r.unread = _
    rw [hpending]
    exact h.coming.bytes
  · change s.pendingRecordTotal = 0 ∨ 5 ≤ s.pendingRecord.length ∧
      s.pendingRecordTotal = 5 + declaredLength s.pendingRecord
    rw [hpending, htotal]
    exact h.coming.header

/-- One more record is on its way. -/
theorem Reads.sent {first : UInt64} {done rest : List ServerRecord} {r : Reader}
    {record : ServerRecord} (h : Reads P first done rest r)
    (hrecord : Protects P r.stream.keys true
      (first + UInt64.ofNat (done ++ rest).length) record.ct record.plaintext record.body ∧
        record.body.length < 2 ^ 16) :
    Reads P first done (rest ++ [record]) { r with unread := r.unread ++ record.wire } where
  numbered := by
    refine h.numbered.concat ?_
    rwa [h.counted, UInt64.add_assoc, ← UInt64.ofNat_add, ← List.length_append]
  counted := h.counted
  served := h.served
  coming := by
    refine ⟨?_, h.coming.header⟩
    change r.stream.pendingRecord ++ (r.unread ++ record.wire) = _
    rw [← List.append_assoc, h.coming.bytes, wires_concat]

/-- A call of the writing end. -/
theorem Link.write_near (h : Link P a b) {side : Side} {call : Call}
    (hdraws : (Act.write side call).Draws) : Link P (a.write P call) b := by
  have haccepted := (call_accepted (P := P) a.writer call).length_le
  obtain ⟨done, rest, hsplit, hreads⟩ := h.reads
  cases call_hands (P := P) a.writer call with
  | nothing hkeys hout hseq hhanded hreported =>
    refine ⟨?_, call_lined h.lined, Nat.le_trans h.taken haccepted, done, rest, ?_, ?_⟩
    · change b.writer.stream.keys = (a.writer.call P call).stream.keys.mirror
      rw [hkeys]
      exact h.keys
    · change _ = (a.writer.call P call).handed.map
        (SentRecord.received P (a.writer.call P call).stream.keys)
      rw [hkeys, hhanded]
      exact hsplit
    · change Reads P 1 done rest ⟨_, (a.writer.call P call).stream.outgoing.drop b.taken, _⟩
      rw [hout]
      exact hreads
  | record r answers hmade hnumber hkeys hout hseq hhanded hreported =>
    obtain ⟨data, rfl, hdata⟩ := hmade
    have hlined : Lined P (a.writer.call P (.write data r.iv answers)) := call_lined h.lined
    refine ⟨?_, hlined,
      Nat.le_trans h.taken haccepted, done, rest ++ [r.received P a.writer.stream.keys], ?_, ?_⟩
    · change b.writer.stream.keys = (a.writer.call P _).stream.keys.mirror
      rw [hkeys]
      exact h.keys
    · change _ = (a.writer.call P _).handed.map
        (SentRecord.received P (a.writer.call P _).stream.keys)
      rw [hkeys, hhanded, List.map_append, ← hsplit, List.append_assoc]
      rfl
    · change Reads P 1 done _ ⟨_, (a.writer.call P _).stream.outgoing.drop b.taken, _⟩
      have htaken : b.taken ≤ a.writer.stream.outgoing.length := by
        unfold TlsPskStream.outgoing
        rw [List.length_append]
        exact Nat.le_trans h.taken (Nat.le_add_right _ _)
      rw [hout, List.drop_append_of_le_length htaken]
      refine hreads.sent ?_
      have hseq : 1 + UInt64.ofNat (done ++ rest).length = r.seq := by
        rw [hnumber, h.lined.next, hsplit, List.length_map]
      rw [hseq]
      change Protects P b.writer.stream.keys _ _ _ _ _ ∧ _
      rw [h.keys]
      exact received_protects hdraws hdata

/-- A call of the other end's writer. -/
theorem Link.write_far (h : Link P a b) (call : Call) : Link P a (b.write P call) := by
  have hside := call_readSide (P := P) b.writer call
  obtain ⟨done, rest, hsplit, hreads⟩ := h.reads
  refine ⟨?_, h.lined, h.taken, done, rest, hsplit, hreads.of_readSide hside⟩
  exact (congrArg Prod.fst hside).trans h.keys

/-- A `poll_read` of the writing end. -/
theorem Link.read_near (h : Link P a b) (sent : Bytes) (call : ReadCall) :
    Link P (a.read P sent call) b := by
  have hside : (a.read P sent call).writer.stream.writeSide = a.writer.stream.writeSide :=
    pollRead_writeSide call.remaining a.writer.stream (sent.drop a.taken) call.arrivals
  have hlined := h.lined.of_writeSide hside
  obtain ⟨hkeys, -, hinner, hbuf⟩ := fields_of_writeSide hside
  have hout : (a.read P sent call).writer.stream.outgoing = a.writer.stream.outgoing := by
    unfold TlsPskStream.outgoing
    rw [hinner, hbuf]
  obtain ⟨done, rest, hsplit, hreads⟩ := h.reads
  refine ⟨?_, hlined, ?_, done, rest, ?_, ?_⟩
  · rw [hkeys]
    exact h.keys
  · change b.taken ≤ (a.read P sent call).writer.stream.inner.accepted.length
    rw [hinner]
    exact h.taken
  · rw [hkeys]
    exact hsplit
  · rw [hout]
    exact hreads

/-- A `poll_read` of the other end. -/
theorem Link.read_far (hcbc : P.InvertsCbc) (h : Link P a b) (call : ReadCall) :
    Link P a (b.read P a.accepted call) := by
  obtain ⟨done, rest, hsplit, hreads⟩ := h.reads
  have hcoming : a.writer.stream.outgoing.drop b.taken =
      a.accepted.drop b.taken ++ a.writer.stream.writeBuf := by
    exact List.drop_append_of_le_length h.taken
  -- the records that are still buffered are part of what the reader is going to get
  obtain ⟨arrivals, hmore⟩ := pollRead_more (P := P) call.remaining b.writer.stream
    (a.accepted.drop b.taken) a.writer.stream.writeBuf call.arrivals
  obtain ⟨unread, hunread⟩ := pollRead_unread (P := P) call.remaining b.writer.stream
    (a.accepted.drop b.taken) call.arrivals
  generalize houtcome : b.writer.stream.pollRead P call.remaining (a.accepted.drop b.taken)
    call.arrivals = outcome at hmore hunread
  have hside : outcome.stream.writeSide = b.writer.stream.writeSide := by
    rw [← houtcome]
    exact pollRead_writeSide ..
  have hread : b.read P a.accepted call =
      { writer := { b.writer with stream := outcome.stream }
        delivered := b.delivered ++ outcome.bytes
        taken := a.accepted.length - outcome.unread.length } := by
    rw [← houtcome]
    rfl
  have hlength : unread.length + outcome.unread.length = a.accepted.length - b.taken := by
    rw [← List.length_append, hunread, List.length_drop]
  have hbounds := h.taken
  have hleft : a.writer.stream.outgoing.drop (a.accepted.length - outcome.unread.length) =
      outcome.unread ++ a.writer.stream.writeBuf := by
    have htaken : a.accepted.length - outcome.unread.length = b.taken + unread.length := by omega
    rw [htaken, ← List.drop_drop, hcoming, ← hunread, List.append_assoc, List.drop_left]
  have hcall : Reader.call P
      ⟨b.writer.stream, a.writer.stream.outgoing.drop b.taken, b.delivered⟩
      ⟨call.remaining, arrivals⟩ =
      ⟨outcome.stream, outcome.unread ++ a.writer.stream.writeBuf, b.delivered ++ outcome.bytes⟩ := by
    unfold Reader.call Reader.poll
    rw [hcoming, hmore.stream, hmore.unread, hmore.bytes]
  obtain ⟨done', rest', hsplit', hreads'⟩ := run_reads hcbc hreads [⟨call.remaining, arrivals⟩]
  change Reads P 1 done' rest' (Reader.call P _ _) at hreads'
  rw [hcall] at hreads'
  rw [hread]
  refine ⟨?_, h.lined, Nat.sub_le _ _, done', rest', hsplit'.trans hsplit, ?_⟩
  · exact (fields_of_writeSide hside).1.trans h.keys
  · rw [hleft]
    exact hreads'

/-- While valid records arrive, an error is one of the inner stream. -/
theorem Reads.only_inner {first : UInt64} {done rest : List ServerRecord} {r : Reader}
    (hcbc : P.InvertsCbc) (h : Reads P first done rest r) (call : ReadCall) :
    (r.poll P call).result ≠ .ready .panic ∧
      ∀ error, (r.poll P call).result = .ready (.err error) → error = .inner := by
  rcases poll_cases hcbc h call with ⟨-, hpoll⟩ | ⟨-, hends⟩
  · rw [hpoll]
    exact ⟨by simp, by simp⟩
  · cases hends with
    | waits result eof keeps coming =>
      rcases result with hresult | hresult
      · rw [hresult]
        exact ⟨by simp, by simp⟩
      · rw [hresult]
        refine ⟨by simp, ?_⟩
        intro error herror
        cases herror
        rfl
    | ended result eof keeps coming hdone =>
      rw [result]
      exact ⟨by simp, by simp⟩
    | opened hfirst result eof keys readSeq readBuf coming =>
      rw [result]
      exact ⟨by simp, by simp⟩

/-- What the end `b` gets of the end `a`: the first bytes of what was handed over, all of them
once nothing is kept anywhere, and no call fails but where the inner stream does. -/
structure Delivers (P : Primitives) (a b : Endpoint) : Prop where
  delivered : b.delivered <+: a.writer.content
  drained : a.writer.stream.writeBuf = [] → b.taken = a.accepted.length →
    b.writer.stream.pendingRecord = [] → b.writer.stream.readBuf = [] →
    b.delivered = a.writer.content
  no_panic : ∀ call, (b.poll P a.accepted call).result ≠ .ready .panic
  error : ∀ call error, (b.poll P a.accepted call).result = .ready (.err error) → error = .inner

theorem Link.poll (hcbc : P.InvertsCbc) (h : Link P a b) (call : ReadCall) :
    (b.poll P a.accepted call).result ≠ .ready .panic ∧
      ∀ error, (b.poll P a.accepted call).result = .ready (.err error) → error = .inner := by
  obtain ⟨done, rest, -, hreads⟩ := h.reads
  have hcoming : a.writer.stream.outgoing.drop b.taken =
      a.accepted.drop b.taken ++ a.writer.stream.writeBuf :=
    List.drop_append_of_le_length h.taken
  obtain ⟨arrivals, hmore⟩ := pollRead_more (P := P) call.remaining b.writer.stream
    (a.accepted.drop b.taken) a.writer.stream.writeBuf call.arrivals
  have hinner := hreads.only_inner hcbc ⟨call.remaining, arrivals⟩
  unfold Reader.poll at hinner
  rw [hcoming] at hinner
  unfold Endpoint.poll
  rcases hmore.result with hsame | hend
  · rwa [hsame] at hinner
  · rw [hend]
    exact ⟨by simp, by simp⟩

theorem Link.delivers (hcbc : P.InvertsCbc) (h : Link P a b) : Delivers P a b := by
  obtain ⟨done, rest, hsplit, hreads⟩ := h.reads
  have hserved : b.delivered ++ b.writer.stream.readBuf = plaintexts done := hreads.served
  have hcontent : plaintexts done ++ plaintexts rest = a.writer.content := by
    have hall := plaintexts_received (P := P) a.writer.stream.keys a.writer.handed
    rw [← hsplit, plaintexts, List.flatMap_append] at hall
    exact hall
  refine ⟨?_, ?_, fun call => (h.poll hcbc call).1, fun call => (h.poll hcbc call).2⟩
  · rw [← hcontent, ← hserved, List.append_assoc]
    exact List.prefix_append _ _
  · intro hflushed htaken hpending hbuffered
    have hnone : wires rest = [] := by
      rw [← hreads.coming.bytes]
      change b.writer.stream.pendingRecord ++ a.writer.stream.outgoing.drop b.taken = []
      unfold TlsPskStream.outgoing
      rw [hpending, hflushed, htaken, List.append_nil]
      exact List.drop_length
    have hrest : rest = [] := by
      cases rest with
      | nil => rfl
      | cons record others =>
        have hlength := congrArg List.length hnone
        rw [wires_cons, List.length_append, record.length_wire] at hlength
        exact absurd hlength (by rw [List.length_nil]; omega)
    rw [← hcontent, hrest, ← hserved, hbuffered, plaintexts_nil, List.append_nil, List.append_nil]

end Linked

section Sessions

variable {P : Primitives}

/-- Both directions of a session. -/
def Session.Linked (P : Primitives) (s : Session) : Prop :=
  Link P s.near s.far ∧ Link P s.far s.near

theorem start_linked (keys : KeyBlock) : (Session.start keys).Linked P :=
  ⟨start_link keys, start_link keys.mirror⟩

/-- An act at one end is a call of the writer in one direction and of the reader in the other. -/
theorem act_linked (hcbc : P.InvertsCbc) {s : Session} (h : s.Linked P) {act : Act}
    (hdraws : act.Draws) : (s.act P act).Linked P := by
  obtain ⟨hnear, hfar⟩ := h
  cases act with
  | write side call =>
    cases side with
    | near => exact ⟨hnear.write_near hdraws, hfar.write_far call⟩
    | far => exact ⟨hnear.write_far call, hfar.write_near hdraws⟩
  | read side call =>
    cases side with
    | near => exact ⟨hnear.read_near s.far.accepted call, hfar.read_far hcbc call⟩
    | far => exact ⟨hnear.read_far hcbc call, hfar.read_near s.near.accepted call⟩

theorem run_linked (hcbc : P.InvertsCbc) {acts : List Act} {s : Session} (h : s.Linked P)
    (hdraws : ∀ act ∈ acts, act.Draws) : (s.run P acts).Linked P := by
  induction acts generalizing s with
  | nil => exact h
  | cons act rest ih =>
    exact ih (act_linked hcbc h (hdraws act List.mem_cons_self))
      fun other hother => hdraws other (List.mem_cons_of_mem _ hother)

/-- The callers of both ends were told that what was handed over is written. -/
def Session.Told (s : Session) : Prop :=
  s.near.writer.content = s.near.writer.reported ∧ s.far.writer.content = s.far.writer.reported

theorem call_told {w : Writer} {call : Call} (h : w.content = w.reported)
    (hclear : ¬ w.LeavesPending call) : (w.call P call).content = (w.call P call).reported := by
  cases call_hands (P := P) w call with
  | nothing hkeys hout hseq hhanded hreported =>
    unfold Writer.content
    rw [hhanded, hreported]
    exact h
  | record r answers hmade hnumber hkeys hout hseq hhanded hreported =>
    have hcontent : (w.call P call).content = w.content ++ r.plaintext := by
      unfold Writer.content
      rw [hhanded, List.map_append, List.flatten_append]
      exact congrArg _ (List.append_nil _)
    rw [hcontent, h]
    rcases hreported with htold | ⟨hsame, hempty | hleft⟩
    · exact htold.symm
    · rw [hsame, hempty, List.append_nil]
    · exact absurd hleft hclear

theorem run_told {acts : List Act} {s : Session} (h : s.Told)
    (hclear : ∀ before act after, acts = before ++ act :: after →
      ¬ (s.run P before).LeavesPending act) : (s.run P acts).Told := by
  induction acts generalizing s with
  | nil => exact h
  | cons act rest ih =>
    have hfirst := hclear [] act rest rfl
    refine ih ?_ fun before other after heq => hclear (act :: before) other after (by rw [heq]; rfl)
    obtain ⟨hnear, hfar⟩ := h
    cases act with
    | write side call =>
      cases side with
      | near => exact ⟨call_told hnear hfirst, hfar⟩
      | far => exact ⟨hnear, call_told hfar hfirst⟩
    | read side call => cases side <;> exact ⟨hnear, hfar⟩

/-- Two ends with matching keys, that write, flush and read in any order over inner streams that
take and give pieces of any size: each delivers the first bytes of what the other handed over,
and these are the bytes that the other reported unless a record with data was left pending. -/
theorem session_delivers (P : Primitives) (keys : KeyBlock) (acts : List Act)
    (hcbc : P.InvertsCbc) (hdraws : ∀ act ∈ acts, act.Draws) :
    Delivers P ((Session.start keys).run P acts).near ((Session.start keys).run P acts).far ∧
      Delivers P ((Session.start keys).run P acts).far ((Session.start keys).run P acts).near ∧
      ((∀ before act after, acts = before ++ act :: after →
          ¬ ((Session.start keys).run P before).LeavesPending act) →
        ((Session.start keys).run P acts).Told) := by
  obtain ⟨hnear, hfar⟩ := run_linked hcbc (start_linked keys) hdraws
  exact ⟨hnear.delivers hcbc, hfar.delivers hcbc, run_told ⟨rfl, rfl⟩⟩

/-- A record that goes out in pieces, while the other end reads and answers. -/
def exchange : List Act :=
  [.write .near (.write [1, 2] (List.replicate 16 0) [.ready 9]),
    .read .far ⟨4, [.ready 99]⟩,
    .write .far (.write [3] (List.replicate 16 5) [.ready 200]),
    .read .near ⟨4, [.ready 20, .ready 99]⟩,
    .write .near (.flush [.ready 30, .ready 90]),
    .read .far ⟨1, [.ready 99, .ready 99]⟩,
    .read .far ⟨4, []⟩]

theorem session_delivers_exchange :
    Delivers plainPrimitives ((Session.start plainKeys).run plainPrimitives exchange).near
        ((Session.start plainKeys).run plainPrimitives exchange).far ∧
      Delivers plainPrimitives ((Session.start plainKeys).run plainPrimitives exchange).far
        ((Session.start plainKeys).run plainPrimitives exchange).near ∧
      ((∀ before act after, exchange = before ++ act :: after →
          ¬ ((Session.start plainKeys).run plainPrimitives before).LeavesPending act) →
        ((Session.start plainKeys).run plainPrimitives exchange).Told) :=
  session_delivers plainPrimitives plainKeys exchange (fun _ _ _ _ _ => rfl) (by decide)

example : ((Session.start plainKeys).run plainPrimitives exchange).far.delivered = [1, 2] := by
  decide

end Sessions

end XitForge.TlsPsk
