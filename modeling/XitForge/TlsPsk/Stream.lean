import XitForge.TlsPsk.Record

/-!
The write side of `TlsPskStream`. The inner stream is what it has accepted so
far; an answer of the inner `poll_write` is one element of a schedule. The log
of records handed to the inner stream and the bytes reported to the caller are
kept beside the stream, so that a whole run of calls can be judged.
-/
namespace XitForge.TlsPsk

inductive Poll (α : Type) where
  | pending
  | ready (value : α)
  deriving DecidableEq, Repr

/-- One answer of the inner stream to `poll_write`: at most `n` bytes taken. -/
inductive Answer where
  | pending
  | ready (n : ℕ)
  | error
  deriving DecidableEq, Repr

/-- An inner stream, seen from its writer: the bytes it has accepted. -/
structure Inner where
  accepted : Bytes := []
  deriving DecidableEq, Repr

def Inner.pollWrite (inner : Inner) (buf : Bytes) : Answer → Poll (Except IdeviceError ℕ) × Inner
  | .pending => (.pending, inner)
  | .error => (.ready (.error .socket), inner)
  | .ready n => (.ready (.ok (min n buf.length)), ⟨inner.accepted ++ buf.take n⟩)

structure TlsPskStream where
  inner : Inner
  keys : KeyBlock
  writeSeq : UInt64
  readSeq : UInt64
  readBuf : Bytes := []
  pendingRecord : Bytes := []
  pendingRecordTotal : ℕ := 0
  writeBuf : Bytes := []
  deriving DecidableEq, Repr

/-- A record handed to the inner stream, with what it was made of. -/
structure SentRecord where
  seq : UInt64
  iv : Bytes
  plaintext : Bytes
  deriving DecidableEq, Repr

def SentRecord.wire (P : Primitives) (keys : KeyBlock) (r : SentRecord) : Bytes :=
  makeRecord ctApplicationData (encryptRecord P keys r.iv r.seq ctApplicationData r.plaintext)

namespace TlsPskStream

/-- The loop at the head of `poll_write` and `poll_flush`. Answers not used are
returned; a schedule that is exhausted leaves the call pending. -/
def flushWriteBuf (s : TlsPskStream) (answers : List Answer) :
    Poll (Except IdeviceError Unit) × TlsPskStream × List Answer :=
  if s.writeBuf = [] then (.ready (.ok ()), s, answers)
  else
    match answers with
    | [] => (.pending, s, [])
    | answer :: rest =>
      match s.inner.pollWrite s.writeBuf answer with
      | (.ready (.ok n), inner) =>
        flushWriteBuf { s with inner := inner, writeBuf := s.writeBuf.drop n } rest
      | (.ready (.error e), _) => (.ready (.error e), s, rest)
      | (.pending, _) => (.pending, s, rest)
termination_by structural answers

/-- The third component is the record that the call handed to the inner stream,
if it made one: its bytes are in `accepted` and `write_buf` from then on. -/
def pollWrite (P : Primitives) (iv : Bytes) (s : TlsPskStream) (data : Bytes)
    (answers : List Answer) : Poll (Except IdeviceError ℕ) × TlsPskStream × Option SentRecord :=
  match s.flushWriteBuf answers with
  | (.pending, s, _) => (.pending, s, none)
  | (.ready (.error e), s, _) => (.ready (.error e), s, none)
  | (.ready (.ok ()), s, answers) =>
    let chunk := data.take TLS_MAX_PLAINTEXT
    let sent : SentRecord := ⟨s.writeSeq, iv, chunk⟩
    let record := sent.wire P s.keys
    let s := { s with writeSeq := s.writeSeq + 1 }
    match s.inner.pollWrite record (answers.headD .pending) with
    | (.ready (.ok written), inner) =>
      (.ready (.ok chunk.length),
        { s with inner := inner, writeBuf := s.writeBuf ++ record.drop written }, some sent)
    | (.ready (.error e), _) =>
      (.ready (.error e), { s with writeSeq := s.writeSeq - 1 }, none)
    | (.pending, _) =>
      -- the whole record is kept and the sequence number stays advanced
      (.pending, { s with writeBuf := record }, some sent)

def pollFlush (s : TlsPskStream) (answers : List Answer) :
    Poll (Except IdeviceError Unit) × TlsPskStream :=
  let (result, s, _) := s.flushWriteBuf answers
  (result, s)

/-- `poll_shutdown` asks the inner stream and leaves `write_buf` alone. -/
def pollShutdown (s : TlsPskStream) : TlsPskStream := s

end TlsPskStream

/-- One call of the AsyncWrite interface with the answers the inner stream
gives while it runs and, for a write, the IV drawn if a record is made. -/
inductive Call where
  | write (data iv : Bytes) (answers : List Answer)
  | flush (answers : List Answer)
  | shutdown
  deriving DecidableEq, Repr

/-- The stream with the bookkeeping of its caller. `owed` holds the data of a
`poll_write` that returned Pending and has not been repeated yet. -/
structure Writer where
  stream : TlsPskStream
  handed : List SentRecord := []
  reported : Bytes := []
  owed : Option Bytes := none
  deriving DecidableEq, Repr

namespace Writer

/-- A stream as `tls_psk_handshake` returns it: sequence number 0 is spent. -/
def start (keys : KeyBlock) : Writer :=
  { stream := { inner := {}, keys := keys, writeSeq := 1, readSeq := 1 } }

def call (P : Primitives) (w : Writer) : Call → Writer
  | .write data iv answers =>
    match w.stream.pollWrite P iv data answers with
    | (.ready (.ok n), s, sent) =>
      { stream := s, handed := w.handed ++ sent.toList, reported := w.reported ++ data.take n }
    | (.ready (.error _), s, sent) =>
      { w with stream := s, handed := w.handed ++ sent.toList, owed := none }
    | (.pending, s, sent) =>
      { w with stream := s, handed := w.handed ++ sent.toList, owed := some data }
  | .flush answers => { w with stream := (w.stream.pollFlush answers).2 }
  | .shutdown => { w with stream := w.stream.pollShutdown }

def run (P : Primitives) (w : Writer) (calls : List Call) : Writer := calls.foldl (call P) w

/-- The caller's side: data that a write left pending is offered again. -/
def Repeats (w : Writer) : Call → Prop
  | .write data _ _ => w.owed = none ∨ w.owed = some data
  | _ => True

instance (w : Writer) : DecidablePred w.Repeats := fun c => by
  cases c <;> unfold Repeats <;> infer_instance

end Writer

def Call.ErrorFree : Call → Prop
  | .write _ _ answers => Answer.error ∉ answers
  | .flush answers => Answer.error ∉ answers
  | .shutdown => True

instance : DecidablePred Call.ErrorFree := fun c => by
  cases c <;> unfold Call.ErrorFree <;> infer_instance

/-- Calls a caller and an inner stream may exchange from `w` on: no inner error
and every pending write repeated with the same data. -/
def Admissible (P : Primitives) (w : Writer) : List Call → Prop
  | [] => True
  | c :: rest => c.ErrorFree ∧ w.Repeats c ∧ Admissible P (w.call P c) rest

def Admissible.decide (P : Primitives) : (w : Writer) → (calls : List Call) →
    Decidable (Admissible P w calls)
  | _, [] => isTrue trivial
  | w, c :: rest =>
    have := Admissible.decide P (w.call P c) rest
    inferInstanceAs (Decidable (c.ErrorFree ∧ w.Repeats c ∧ Admissible P (w.call P c) rest))

instance (P : Primitives) (w : Writer) (calls : List Call) : Decidable (Admissible P w calls) :=
  Admissible.decide P w calls

/-- What a peer needs of the write side: the bytes accepted or still buffered
are the records handed over, numbered consecutively, and their plaintexts are
the bytes the caller was told are written. -/
structure Faithful (P : Primitives) (w : Writer) : Prop where
  bytes : w.stream.inner.accepted ++ w.stream.writeBuf =
    w.handed.flatMap (SentRecord.wire P w.stream.keys)
  numbered : ∀ (k : ℕ) (r : SentRecord), w.handed[k]? = some r → r.seq = UInt64.ofNat (k + 1)
  plaintexts : (w.handed.map SentRecord.plaintext).flatten = w.reported

end XitForge.TlsPsk
