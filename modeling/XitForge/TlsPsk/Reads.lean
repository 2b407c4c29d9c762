import Mathlib.Data.List.GetD
import XitForge.TlsPsk.Protection

/-!
The read side of `TlsPskStream`. The inner stream is the bytes that it has not handed over
yet; how many of them a `poll_read` of it gives is one element of a schedule. A record is
assembled in `pending_record` over any number of calls and what the caller's buffer cannot
take of its plaintext waits in `read_buf`, so the bytes delivered, buffered and still to come
are at every point those of the records of the server.
-/
namespace XitForge.TlsPsk

open RustEval

section Model

/-- One answer of the inner stream to `poll_read`: no bytes yet, up to `n + 1` of what is
left of it (none only at its end), or an error. -/
inductive Arrival where
  | pending
  | ready (n : ℕ)
  | error
  deriving DecidableEq, Repr

/-- `std::io::Error`: of the inner stream, or made by `Error::other`. -/
inductive IoError where
  | inner
  | other (message : String)
  deriving DecidableEq, Repr

/-- What a `poll_read` comes to. `eof` tells whether the inner stream gave no bytes in it. -/
structure ReadOutcome where
  result : Poll (Eval IoError Bytes)
  stream : TlsPskStream
  unread : Bytes
  eof : Bool := false
  deriving DecidableEq, Repr

/-- The length in the header of a record that has arrived up to there. -/
def declaredLength (pendingRecord : Bytes) : ℕ :=
  (pendingRecord.getD 3 0).toNat * 256 + (pendingRecord.getD 4 0).toNat

namespace TlsPskStream

def noteHeader (s : TlsPskStream) : TlsPskStream :=
  if 5 ≤ s.pendingRecord.length ∧ s.pendingRecordTotal = 0 then
    { s with pendingRecordTotal := 5 + declaredLength s.pendingRecord }
  else s

/-- The branch for a complete record: it is taken off, decrypted with the type it came
with, and what the buffer cannot take is kept. -/
def openRecord (P : Primitives) (remaining : ℕ) (s : TlsPskStream) (unread : Bytes) :
    ReadOutcome :=
  match s.pendingRecord.take s.pendingRecordTotal with
  | ct :: _ :: _ :: _ :: _ :: body =>
    let s := { s with
      pendingRecord := s.pendingRecord.drop s.pendingRecordTotal
      pendingRecordTotal := 0 }
    match decryptRecord P s.keys true s.readSeq ct body with
    | .ok plaintext =>
      { result := .ready (.ok (plaintext.take remaining))
        stream := { s with
          readSeq := s.readSeq + 1
          readBuf := s.readBuf ++ plaintext.drop remaining }
        unread := unread }
    | .err _ =>
      -- every error of `decrypt_record` is displayed as "internal error"
      ⟨.ready (.err (.other "TLS decrypt: internal error")), s, unread, false⟩
    | .panic => ⟨.ready .panic, s, unread, false⟩
  | _ => ⟨.ready .panic, s, unread, false⟩

/-- The loop of `poll_read`. A schedule that is exhausted leaves the call pending. -/
def readLoop (P : Primitives) (remaining : ℕ) (s : TlsPskStream) (unread : Bytes)
    (arrivals : List Arrival) : ReadOutcome :=
  let s := s.noteHeader
  if 0 < s.pendingRecordTotal ∧ s.pendingRecordTotal ≤ s.pendingRecord.length then
    s.openRecord P remaining unread
  else
    match arrivals with
    | [] | .pending :: _ => ⟨.pending, s, unread, false⟩
    | .error :: _ => ⟨.ready (.err .inner), s, unread, false⟩
    | .ready n :: rest =>
      let got := unread.take (min (n + 1) 16384)
      if got = [] then ⟨.ready (.ok []), s, unread, true⟩
      else readLoop P remaining { s with pendingRecord := s.pendingRecord ++ got }
        (unread.drop (min (n + 1) 16384)) rest
termination_by structural arrivals

/-- `poll_read` with a buffer that has room for `remaining` bytes. -/
def pollRead (P : Primitives) (remaining : ℕ) (s : TlsPskStream) (unread : Bytes)
    (arrivals : List Arrival) : ReadOutcome :=
  if s.readBuf ≠ [] then
    { result := .ready (.ok (s.readBuf.take remaining))
      stream := { s with readBuf := s.readBuf.drop remaining }
      unread := unread }
  else s.readLoop P remaining unread arrivals

end TlsPskStream

/-- The bytes a call adds to what its caller has read. -/
def ReadOutcome.bytes (outcome : ReadOutcome) : Bytes :=
  match outcome.result with
  | .ready (.ok data) => data
  | _ => []

/-- A call of `poll_read`: the room in the buffer and what the inner stream answers. -/
structure ReadCall where
  remaining : ℕ
  arrivals : List Arrival
  deriving DecidableEq, Repr

/-- The stream with what is still to come to it and what its caller has read. -/
structure Reader where
  stream : TlsPskStream
  unread : Bytes
  delivered : Bytes := []
  deriving DecidableEq, Repr

namespace Reader

/-- A stream as the handshake returns it, the next record having the number `first`. -/
def start (keys : KeyBlock) (first : UInt64) (unread : Bytes) : Reader where
  stream := { inner := {}, keys := keys, writeSeq := 1, readSeq := first }
  unread := unread

def poll (P : Primitives) (r : Reader) (call : ReadCall) : ReadOutcome :=
  r.stream.pollRead P call.remaining r.unread call.arrivals

def call (P : Primitives) (r : Reader) (call : ReadCall) : Reader where
  stream := (r.poll P call).stream
  unread := (r.poll P call).unread
  delivered := r.delivered ++ (r.poll P call).bytes

def run (P : Primitives) (r : Reader) (calls : List ReadCall) : Reader :=
  calls.foldl (Reader.call P) r

end Reader

end Model

section Records

/-- A record of the server: what is on the wire and the plaintext it protects. -/
structure ServerRecord where
  ct : UInt8
  plaintext : Bytes
  body : Bytes
  deriving DecidableEq, Repr

def ServerRecord.wire (record : ServerRecord) : Bytes := makeRecord record.ct record.body

def wires (records : List ServerRecord) : Bytes := records.flatMap ServerRecord.wire

def plaintexts (records : List ServerRecord) : Bytes := records.flatMap ServerRecord.plaintext

/-- Each record protects its plaintext under the number that follows the one before it, and
its length fits the two bytes of the header. -/
def Numbered (P : Primitives) (keys : KeyBlock) : UInt64 → List ServerRecord → Prop
  | _, [] => True
  | seq, record :: rest =>
    (Protects P keys true seq record.ct record.plaintext record.body ∧
      record.body.length < 2 ^ 16) ∧ Numbered P keys (seq + 1) rest

@[simp] theorem wires_nil : wires [] = [] := rfl

@[simp] theorem wires_cons (record : ServerRecord) (rest : List ServerRecord) :
    wires (record :: rest) = record.wire ++ wires rest := List.flatMap_cons

@[simp] theorem plaintexts_nil : plaintexts [] = [] := rfl

@[simp] theorem plaintexts_cons (record : ServerRecord) (rest : List ServerRecord) :
    plaintexts (record :: rest) = record.plaintext ++ plaintexts rest := List.flatMap_cons

theorem plaintexts_concat (done : List ServerRecord) (record : ServerRecord) :
    plaintexts (done ++ [record]) = plaintexts done ++ record.plaintext := by
  simp [plaintexts]

theorem ServerRecord.wire_eq (record : ServerRecord) : record.wire =
    record.ct :: 0x03 :: 0x03 :: UInt8.ofNat (record.body.length / 256) ::
      UInt8.ofNat record.body.length :: record.body := rfl

@[simp] theorem ServerRecord.length_wire (record : ServerRecord) :
    record.wire.length = 5 + record.body.length := by
  rw [record.wire_eq]
  simp only [List.length_cons]
  omega

/-- Any front part of a record that holds the header declares the length of the body. -/
theorem declaredLength_eq {record : ServerRecord} (hshort : record.body.length < 2 ^ 16)
    {arrived rest tail : Bytes} (h : arrived ++ rest = record.wire ++ tail)
    (hheader : 5 ≤ arrived.length) : declaredLength arrived = record.body.length := by
  have hbyte : ∀ k < 5, arrived.getD k 0 = record.wire.getD k 0 := by
    intro k hk
    have hget := congrArg (fun bytes => bytes.getD k 0) h
    rwa [List.getD_append _ _ _ _ (by omega),
      List.getD_append _ _ _ _ (by rw [record.length_wire]; omega)] at hget
  unfold declaredLength
  rw [hbyte 3 (by omega), hbyte 4 (by omega), record.wire_eq]
  simp only [List.getD_cons_succ, List.getD_cons_zero, UInt8.toNat_ofNat']
  omega

end Records

section Assembly

variable {P : Primitives} {s s' : TlsPskStream} {unread : Bytes} {rest : List ServerRecord}

/-- The part of the stream that assembling does not touch. -/
structure Keeps (s s' : TlsPskStream) : Prop where
  keys : s'.keys = s.keys
  readSeq : s'.readSeq = s.readSeq
  readBuf : s'.readBuf = s.readBuf

theorem Keeps.trans {s'' : TlsPskStream} (h : Keeps s s') (h' : Keeps s' s'') : Keeps s s'' :=
  ⟨h'.keys.trans h.keys, h'.readSeq.trans h.readSeq, h'.readBuf.trans h.readBuf⟩

/-- What has arrived and what is still to come are the records not opened yet, and a total
that is noted is the one of the header that has arrived. -/
structure Coming (s : TlsPskStream) (unread : Bytes) (rest : List ServerRecord) : Prop where
  bytes : s.pendingRecord ++ unread = wires rest
  header : s.pendingRecordTotal = 0 ∨ 5 ≤ s.pendingRecord.length ∧
    s.pendingRecordTotal = 5 + declaredLength s.pendingRecord

theorem noteHeader_keeps (s : TlsPskStream) :
    Keeps s s.noteHeader ∧ s.noteHeader.pendingRecord = s.pendingRecord := by
  unfold TlsPskStream.noteHeader
  split
  · exact ⟨⟨rfl, rfl, rfl⟩, rfl⟩
  · exact ⟨⟨rfl, rfl, rfl⟩, rfl⟩

/-- Noting changes nothing but the total: it is known exactly if the header is there. -/
theorem Coming.noteHeader (h : Coming s unread rest) : Coming s.noteHeader unread rest ∧
    (s.pendingRecord.length < 5 ∧ s.noteHeader.pendingRecordTotal = 0 ∨
      5 ≤ s.pendingRecord.length ∧
        s.noteHeader.pendingRecordTotal = 5 + declaredLength s.pendingRecord) := by
  unfold TlsPskStream.noteHeader
  split
  · rename_i hnote
    exact ⟨⟨h.bytes, Or.inr ⟨hnote.1, rfl⟩⟩, Or.inr ⟨hnote.1, rfl⟩⟩
  · rename_i hnote
    refine ⟨h, ?_⟩
    rcases h.header with hzero | hknown
    · exact Or.inl ⟨Nat.not_le.mp fun hheader => hnote ⟨hheader, hzero⟩, hzero⟩
    · exact Or.inr hknown

/-- A record that has arrived as a whole is opened. -/
theorem openRecord_whole {record : ServerRecord} {tail : Bytes} (remaining : ℕ)
    (hpending : s.pendingRecord = record.wire ++ tail)
    (htotal : s.pendingRecordTotal = record.wire.length)
    (hopens : decryptRecord P s.keys true s.readSeq record.ct record.body = .ok record.plaintext) :
    s.openRecord P remaining unread =
      { result := .ready (.ok (record.plaintext.take remaining))
        stream := { s with
          pendingRecord := tail
          pendingRecordTotal := 0
          readSeq := s.readSeq + 1
          readBuf := s.readBuf ++ record.plaintext.drop remaining }
        unread := unread } := by
  have htake : s.pendingRecord.take s.pendingRecordTotal = record.wire := by
    rw [hpending, htotal, List.take_left]
  have hdrop : s.pendingRecord.drop s.pendingRecordTotal = tail := by
    rw [hpending, htotal, List.drop_left]
  unfold TlsPskStream.openRecord
  rw [htake, record.wire_eq]
  simp only [hdrop, hopens]

/-- Everything the loop can come to while valid records arrive. -/
inductive LoopEnds (remaining : ℕ) (s : TlsPskStream) (rest : List ServerRecord) :
    ReadOutcome → Prop where
  | waits {outcome : ReadOutcome}
      (result : outcome.result = .pending ∨ outcome.result = .ready (.err .inner))
      (eof : outcome.eof = false) (keeps : Keeps s outcome.stream)
      (coming : Coming outcome.stream outcome.unread rest) : LoopEnds remaining s rest outcome
  | ended {outcome : ReadOutcome} (result : outcome.result = .ready (.ok []))
      (eof : outcome.eof = true) (keeps : Keeps s outcome.stream)
      (coming : Coming outcome.stream outcome.unread rest)
      (done : rest = []) : LoopEnds remaining s rest outcome
  | opened {outcome : ReadOutcome} {record : ServerRecord} {others : List ServerRecord}
      (first : rest = record :: others)
      (result : outcome.result = .ready (.ok (record.plaintext.take remaining)))
      (eof : outcome.eof = false) (keys : outcome.stream.keys = s.keys)
      (readSeq : outcome.stream.readSeq = s.readSeq + 1)
      (readBuf : outcome.stream.readBuf = s.readBuf ++ record.plaintext.drop remaining)
      (coming : Coming outcome.stream outcome.unread others) : LoopEnds remaining s rest outcome

theorem LoopEnds.of_keeps {remaining : ℕ} {outcome : ReadOutcome} (h : Keeps s s')
    (hends : LoopEnds remaining s' rest outcome) : LoopEnds remaining s rest outcome := by
  cases hends with
  | waits result eof keeps coming => exact .waits result eof (h.trans keeps) coming
  | ended result eof keeps coming done => exact .ended result eof (h.trans keeps) coming done
  | opened first result eof keys readSeq readBuf coming =>
    exact .opened first result eof (keys.trans h.keys) (readSeq.trans (by rw [h.readSeq]))
      (readBuf.trans (by rw [h.readBuf])) coming

/-- The next record has arrived as a whole, or the header says that it has not. -/
theorem Coming.whole_or_part (h : Coming s unread rest)
    (hnumbered : Numbered P s.keys s.readSeq rest) :
    (∃ record others tail, rest = record :: others ∧ s.pendingRecord = record.wire ++ tail ∧
        tail ++ unread = wires others ∧ s.noteHeader.pendingRecordTotal = record.wire.length) ∨
      (unread = [] → rest = []) ∧ ¬ (0 < s.noteHeader.pendingRecordTotal ∧
        s.noteHeader.pendingRecordTotal ≤ s.pendingRecord.length) := by
  obtain ⟨-, hnoted⟩ := h.noteHeader
  cases rest with
  | nil =>
    have hnone : s.pendingRecord = [] := (List.append_eq_nil_iff.mp h.bytes).1
    refine Or.inr ⟨fun _ => rfl, ?_⟩
    rw [hnone, List.length_nil]
    omega
  | cons record others =>
    obtain ⟨⟨-, hshort⟩, -⟩ := hnumbered
    have hbytes := h.bytes
    rw [wires_cons] at hbytes
    have hdeclared : 5 ≤ s.pendingRecord.length →
        declaredLength s.pendingRecord = record.body.length := declaredLength_eq hshort hbytes
    have hwire := record.length_wire
    by_cases hwhole : record.wire.length ≤ s.pendingRecord.length
    · left
      obtain ⟨tail, htail⟩ : record.wire <+: s.pendingRecord :=
        List.prefix_of_prefix_length_le ⟨wires others, rfl⟩ ⟨unread, hbytes⟩ hwhole
      rw [← htail, List.append_assoc] at hbytes
      exact ⟨record, others, tail, rfl, htail.symm, List.append_cancel_left hbytes, by omega⟩
    · right
      constructor
      · intro hnone
        rw [hnone, List.append_nil] at hbytes
        have hlength := congrArg List.length hbytes
        rw [List.length_append] at hlength
        omega
      · omega

theorem readLoop_of_whole {record : ServerRecord} {others : List ServerRecord} {tail : Bytes}
    (hcbc : P.InvertsCbc) (remaining : ℕ) (arrivals : List Arrival)
    (hnumbered : Numbered P s.keys s.readSeq (record :: others))
    (hpending : s.pendingRecord = record.wire ++ tail) (htail : tail ++ unread = wires others)
    (htotal : s.noteHeader.pendingRecordTotal = record.wire.length) :
    LoopEnds remaining s (record :: others) (s.readLoop P remaining unread arrivals) := by
  obtain ⟨hkeeps, hsame⟩ := noteHeader_keeps s
  have hopens : decryptRecord P s.noteHeader.keys true s.noteHeader.readSeq record.ct record.body =
      .ok record.plaintext := by
    rw [hkeeps.keys, hkeeps.readSeq]
    exact decryptRecord_of_protects hnumbered.1.1 hcbc
  have hlength := record.length_wire
  have hcomplete : 0 < s.noteHeader.pendingRecordTotal ∧
      s.noteHeader.pendingRecordTotal ≤ s.noteHeader.pendingRecord.length := by
    rw [htotal, hsame, hpending, List.length_append]
    omega
  have hloop : s.readLoop P remaining unread arrivals =
      s.noteHeader.openRecord P remaining unread := by
    unfold TlsPskStream.readLoop
    cases arrivals <;> exact if_pos hcomplete
  rw [hloop, openRecord_whole remaining (hsame.trans hpending) htotal hopens]
  refine .opened rfl rfl rfl hkeeps.keys ?_ ?_ ⟨htail, Or.inl rfl⟩
  · exact congrArg (· + 1) hkeeps.readSeq
  · exact congrArg (· ++ record.plaintext.drop remaining) hkeeps.readBuf

/-- More bytes at the end of the ones that have arrived. -/
theorem Coming.push (h : Coming s unread rest) (n : ℕ) :
    Coming { s with pendingRecord := s.pendingRecord ++ unread.take n } (unread.drop n) rest where
  bytes := by
    change s.pendingRecord ++ unread.take n ++ unread.drop n = wires rest
    rw [List.append_assoc, List.take_append_drop]
    exact h.bytes
  header := by
    rcases h.header with hzero | ⟨hheader, htotal⟩
    · exact Or.inl hzero
    · right
      have hlonger : 5 ≤ (s.pendingRecord ++ unread.take n).length := by
        rw [List.length_append]
        omega
      refine ⟨hlonger, htotal.trans ?_⟩
      change _ = 5 + declaredLength (s.pendingRecord ++ unread.take n)
      unfold declaredLength
      rw [List.getD_append _ _ _ _ (by omega), List.getD_append _ _ _ _ (by omega)]

/-- The loop over valid records, whatever the inner stream answers. -/
theorem readLoop_ends (hcbc : P.InvertsCbc) (remaining : ℕ) (arrivals : List Arrival)
    (hnumbered : Numbered P s.keys s.readSeq rest) (h : Coming s unread rest) :
    LoopEnds remaining s rest (s.readLoop P remaining unread arrivals) := by
  induction arrivals generalizing s unread with
  | nil =>
    obtain ⟨record, others, tail, rfl, hpending, htail, htotal⟩ | ⟨-, hpart⟩ :=
      h.whole_or_part hnumbered
    · exact readLoop_of_whole hcbc remaining [] hnumbered hpending htail htotal
    · obtain ⟨hkeeps, hsame⟩ := noteHeader_keeps s
      unfold TlsPskStream.readLoop
      rw [if_neg (by rwa [hsame])]
      exact .waits (Or.inl rfl) rfl hkeeps h.noteHeader.1
  | cons arrival arrivals ih =>
    obtain ⟨record, others, tail, rfl, hpending, htail, htotal⟩ | ⟨hend, hpart⟩ :=
      h.whole_or_part hnumbered
    · exact readLoop_of_whole hcbc remaining _ hnumbered hpending htail htotal
    · obtain ⟨hkeeps, hsame⟩ := noteHeader_keeps s
      have hnoted := h.noteHeader.1
      unfold TlsPskStream.readLoop
      rw [if_neg (by rwa [hsame])]
      cases arrival with
      | pending => exact .waits (Or.inl rfl) rfl hkeeps hnoted
      | error => exact .waits (Or.inr rfl) rfl hkeeps hnoted
      | ready n =>
        dsimp only
        split
        · rename_i hnone
          have hunread : unread = [] := by
            rw [List.take_eq_nil_iff] at hnone
            exact hnone.resolve_left (by omega)
          exact .ended rfl rfl hkeeps hnoted (hend hunread)
        · have hmore := hnoted.push (min (n + 1) 16384)
          refine LoopEnds.of_keeps ?_ (ih ?_ hmore)
          · exact ⟨hkeeps.keys, hkeeps.readSeq, hkeeps.readBuf⟩
          · change Numbered P s.noteHeader.keys s.noteHeader.readSeq rest
            rw [hkeeps.keys, hkeeps.readSeq]
            exact hnumbered

/-- Opening a record settles the call. -/
theorem openRecord_settles (remaining : ℕ) :
    (s.openRecord P remaining unread).result ≠ .pending ∧
      (s.openRecord P remaining unread).result ≠ .ready (.err .inner) := by
  unfold TlsPskStream.openRecord
  split
  · dsimp only
    split <;> exact ⟨nofun, nofun⟩
  · exact ⟨nofun, nofun⟩

/-- An inner stream that keeps giving bytes leaves no call pending. -/
theorem readLoop_settles (remaining : ℕ) {arrivals : List Arrival}
    (hready : ∀ arrival ∈ arrivals, ∃ n, arrival = .ready n)
    (henough : unread.length < arrivals.length) :
    (s.readLoop P remaining unread arrivals).result ≠ .pending ∧
      (s.readLoop P remaining unread arrivals).result ≠ .ready (.err .inner) := by
  induction arrivals generalizing s unread with
  | nil => exact absurd henough (Nat.not_lt_zero _)
  | cons arrival arrivals ih =>
    unfold TlsPskStream.readLoop
    dsimp only
    split
    · exact openRecord_settles remaining
    · obtain ⟨n, rfl⟩ := hready arrival List.mem_cons_self
      dsimp only
      split
      · exact ⟨nofun, nofun⟩
      · rename_i hsome
        apply ih (fun other hother => hready other (List.mem_cons_of_mem _ hother))
        have hpos : 0 < unread.length := by
          rw [List.length_pos_iff]
          intro heq
          subst heq
          exact hsome List.take_nil
        rw [List.length_drop]
        rw [List.length_cons] at henough
        omega

end Assembly

section Runs

variable {P : Primitives} {first : UInt64} {done rest : List ServerRecord} {r : Reader}

/-- Some of the records are opened and behind one another in what was delivered and what is
kept for the caller; the bytes of the others have arrived or are to come. -/
structure Reads (P : Primitives) (first : UInt64) (done rest : List ServerRecord) (r : Reader) :
    Prop where
  numbered : Numbered P r.stream.keys r.stream.readSeq rest
  counted : r.stream.readSeq = first + UInt64.ofNat done.length
  served : r.delivered ++ r.stream.readBuf = plaintexts done
  coming : Coming r.stream r.unread rest

theorem start_reads {keys : KeyBlock} {records : List ServerRecord}
    (h : Numbered P keys first records) :
    Reads P first [] records (Reader.start keys first (wires records)) where
  numbered := h
  counted := (UInt64.add_zero first).symm
  served := rfl
  coming := ⟨rfl, Or.inl rfl⟩

/-- A call is served from the buffer, or what the loop comes to. -/
theorem poll_cases (hcbc : P.InvertsCbc) (h : Reads P first done rest r) (call : ReadCall) :
    (r.stream.readBuf ≠ [] ∧ r.poll P call =
      { result := .ready (.ok (r.stream.readBuf.take call.remaining))
        stream := { r.stream with readBuf := r.stream.readBuf.drop call.remaining }
        unread := r.unread }) ∨
      r.stream.readBuf = [] ∧ LoopEnds call.remaining r.stream rest (r.poll P call) := by
  unfold Reader.poll TlsPskStream.pollRead
  by_cases hbuffered : r.stream.readBuf = []
  · right
    rw [if_neg (not_not.mpr hbuffered)]
    exact ⟨hbuffered, readLoop_ends hcbc call.remaining call.arrivals h.numbered h.coming⟩
  · left
    rw [if_pos hbuffered]
    exact ⟨hbuffered, rfl⟩

/-- With nothing kept for the caller an inner stream that keeps giving bytes settles a call. -/
theorem poll_settles {call : ReadCall} (hempty : r.stream.readBuf = [])
    (hready : ∀ arrival ∈ call.arrivals, ∃ n, arrival = .ready n)
    (henough : r.unread.length < call.arrivals.length) :
    (r.poll P call).result ≠ .pending ∧ (r.poll P call).result ≠ .ready (.err .inner) := by
  have hloop : r.poll P call = r.stream.readLoop P call.remaining r.unread call.arrivals := by
    unfold Reader.poll TlsPskStream.pollRead
    exact if_neg (not_not.mpr hempty)
  rw [hloop]
  exact readLoop_settles call.remaining hready henough

/-- A call that opens no record and delivers nothing. -/
theorem Reads.still {call : ReadCall} (h : Reads P first done rest r)
    (hkeeps : Keeps r.stream (r.poll P call).stream) (hnothing : (r.poll P call).bytes = [])
    (hcoming : Coming (r.poll P call).stream (r.poll P call).unread rest) :
    Reads P first done rest (r.call P call) := by
  refine ⟨?_, hkeeps.readSeq.trans h.counted, ?_, hcoming⟩
  · change Numbered P (r.poll P call).stream.keys (r.poll P call).stream.readSeq rest
    rw [hkeeps.keys, hkeeps.readSeq]
    exact h.numbered
  · change r.delivered ++ (r.poll P call).bytes ++ (r.poll P call).stream.readBuf = _
    rw [hnothing, hkeeps.readBuf, List.append_nil]
    exact h.served

/-- A call that opens the next record. -/
theorem Reads.open {record : ServerRecord} {others : List ServerRecord} {call : ReadCall}
    (h : Reads P first done (record :: others) r) (hempty : r.stream.readBuf = [])
    (hresult : (r.poll P call).result = .ready (.ok (record.plaintext.take call.remaining)))
    (hkeys : (r.poll P call).stream.keys = r.stream.keys)
    (hreadSeq : (r.poll P call).stream.readSeq = r.stream.readSeq + 1)
    (hreadBuf : (r.poll P call).stream.readBuf =
      r.stream.readBuf ++ record.plaintext.drop call.remaining)
    (hcoming : Coming (r.poll P call).stream (r.poll P call).unread others) :
    Reads P first (done ++ [record]) others (r.call P call) := by
  refine ⟨?_, ?_, ?_, hcoming⟩
  · change Numbered P (r.poll P call).stream.keys (r.poll P call).stream.readSeq others
    rw [hkeys, hreadSeq]
    exact h.numbered.2
  · change (r.poll P call).stream.readSeq = _
    rw [hreadSeq, h.counted, List.length_append, List.length_singleton, UInt64.ofNat_add,
      UInt64.add_assoc]
    rfl
  · have hbytes : (r.poll P call).bytes = record.plaintext.take call.remaining := by
      unfold ReadOutcome.bytes
      rw [hresult]
    have hserved := h.served
    rw [hempty, List.append_nil] at hserved
    change r.delivered ++ (r.poll P call).bytes ++ (r.poll P call).stream.readBuf = _
    rw [hbytes, hreadBuf, hempty, List.nil_append, List.append_assoc, List.take_append_drop,
      hserved, plaintexts_concat]

/-- One call: it opens no record, or the next one. -/
theorem call_reads (hcbc : P.InvertsCbc) (h : Reads P first done rest r) (call : ReadCall) :
    Reads P first done rest (r.call P call) ∨ ∃ record others, rest = record :: others ∧
      (r.poll P call).result = .ready (.ok (record.plaintext.take call.remaining)) ∧
        Reads P first (done ++ [record]) others (r.call P call) := by
  rcases poll_cases hcbc h call with ⟨-, hpoll⟩ | ⟨hempty, hends⟩
  · left
    unfold Reader.call
    rw [hpoll]
    refine ⟨h.numbered, h.counted, ?_, ⟨h.coming.bytes, h.coming.header⟩⟩
    change r.delivered ++ r.stream.readBuf.take call.remaining ++
      r.stream.readBuf.drop call.remaining = plaintexts done
    rw [List.append_assoc, List.take_append_drop]
    exact h.served
  · cases hends with
    | waits result eof keeps coming =>
      left
      refine h.still keeps ?_ coming
      unfold ReadOutcome.bytes
      obtain hresult | hresult := result <;> rw [hresult]
    | ended result eof keeps coming hdone =>
      left
      refine h.still keeps ?_ coming
      unfold ReadOutcome.bytes
      rw [result]
    | opened hfirst result eof keys readSeq readBuf coming =>
      rename_i record others
      right
      subst hfirst
      exact ⟨record, others, rfl, result, h.open hempty result keys readSeq readBuf coming⟩

/-- A run: the records are split where it stands. -/
theorem run_reads (hcbc : P.InvertsCbc) (h : Reads P first done rest r) (calls : List ReadCall) :
    ∃ done' rest', done' ++ rest' = done ++ rest ∧ Reads P first done' rest' (r.run P calls) := by
  induction calls generalizing r done rest with
  | nil => exact ⟨done, rest, rfl, h⟩
  | cons call calls ih =>
    rcases call_reads hcbc h call with hnext | ⟨record, others, rfl, -, hnext⟩
    · exact ih hnext
    · obtain ⟨done', rest', hsplit, hreads⟩ := ih hnext
      exact ⟨done', rest', by rw [hsplit, List.append_assoc]; rfl, hreads⟩

/-- What a reader is told by one more call: errors are those of the inner stream, nothing is
read into a buffer with room in it only when everything is delivered, and a call is not left
pending by a stream that keeps giving bytes. -/
structure Serves (P : Primitives) (records : List ServerRecord) (r : Reader) (call : ReadCall) :
    Prop where
  error : ∀ error, (r.poll P call).result = .ready (.err error) → error = .inner
  no_panic : (r.poll P call).result ≠ .ready .panic
  complete : 0 < call.remaining → (r.poll P call).result = .ready (.ok []) →
    r.delivered = plaintexts records
  settles : (∀ arrival ∈ call.arrivals, ∃ n, arrival = .ready n) →
    r.unread.length < call.arrivals.length → ∃ data, (r.poll P call).result = .ready (.ok data)

theorem Serves.of_ok {records : List ServerRecord} {call : ReadCall} {data : Bytes}
    (hresult : (r.poll P call).result = .ready (.ok data))
    (hcomplete : 0 < call.remaining → data = [] → r.delivered = plaintexts records) :
    Serves P records r call where
  error := by
    intro error herror
    rw [hresult] at herror
    cases herror
  no_panic := by
    rw [hresult]
    exact nofun
  complete := by
    intro hroom hnothing
    rw [hresult] at hnothing
    exact hcomplete hroom (Eval.ok.inj (Poll.ready.inj hnothing))
  settles := fun _ _ => ⟨data, hresult⟩

theorem Reads.serves (hcbc : P.InvertsCbc) (h : Reads P first done rest r)
    (hdata : ∀ record ∈ rest, record.plaintext ≠ []) (call : ReadCall) :
    Serves P (done ++ rest) r call := by
  rcases poll_cases hcbc h call with ⟨hbuffered, hpoll⟩ | ⟨hempty, hends⟩
  · refine Serves.of_ok (by rw [hpoll]) ?_
    intro hroom htake
    rcases List.take_eq_nil_iff.mp htake with hzero | hnil
    · omega
    · exact absurd hnil hbuffered
  · cases hends with
    | waits result eof keeps coming =>
      refine ⟨?_, ?_, ?_, ?_⟩
      · intro error herror
        obtain hresult | hresult := result <;> rw [hresult] at herror <;> cases herror
        rfl
      · obtain hresult | hresult := result <;> rw [hresult] <;> exact nofun
      · intro _ hnothing
        obtain hresult | hresult := result <;> rw [hresult] at hnothing <;> cases hnothing
      · intro hready henough
        obtain ⟨hnot, hnot'⟩ := poll_settles hempty hready henough
        rcases result with hresult | hresult
        · exact absurd hresult hnot
        · exact absurd hresult hnot'
    | ended result eof keeps coming hdone =>
      refine Serves.of_ok result fun _ _ => ?_
      have hserved := h.served
      rw [hempty, List.append_nil] at hserved
      rw [hdone, List.append_nil]
      exact hserved
    | opened hfirst result eof keys readSeq readBuf coming =>
      rename_i record others
      refine Serves.of_ok result ?_
      intro hroom htake
      rcases List.take_eq_nil_iff.mp htake with hzero | hnil
      · omega
      · exact absurd hnil (hdata record (by rw [hfirst]; exact List.mem_cons_self))

/-- The records opened so far, in any run of calls: what is delivered or kept for the caller
is their plaintexts, what has arrived or is to come are the bytes of the others, and
`read_seq` counts them. The content types of the records do not matter. -/
theorem poll_read_reassembles (P : Primitives) (keys : KeyBlock) (first : UInt64)
    (records : List ServerRecord) (calls : List ReadCall) (hcbc : P.InvertsCbc)
    (hnumbered : Numbered P keys first records)
    (hdata : ∀ record ∈ records, record.plaintext ≠ []) :
    let reader := (Reader.start keys first (wires records)).run P calls
    (∃ consumed ≤ records.length, reader.stream.readSeq = first + UInt64.ofNat consumed ∧
      reader.delivered ++ reader.stream.readBuf = plaintexts (records.take consumed) ∧
      reader.stream.pendingRecord ++ reader.unread = wires (records.drop consumed)) ∧
    ∀ call, Serves P records reader call := by
  obtain ⟨done, rest, hsplit, hreads⟩ := run_reads hcbc (start_reads hnumbered) calls
  rw [List.nil_append] at hsplit
  subst hsplit
  constructor
  · refine ⟨done.length, ?_, hreads.counted, ?_, ?_⟩
    · rw [List.length_append]
      exact Nat.le_add_right ..
    · rw [List.take_left]
      exact hreads.served
    · rw [List.drop_left]
      exact hreads.coming.bytes
  · intro call
    refine hreads.serves hcbc (fun record hrecord => hdata record ?_) call
    exact List.mem_append_right _ hrecord

/-- Two records of a server whose encryption is the identity. -/
def plainRecords : List ServerRecord :=
  [⟨ctApplicationData, [7],
      List.replicate 16 0 ++ ([7] ++ List.replicate 20 0 ++ List.replicate 11 10)⟩,
    ⟨ctApplicationData, [8, 9],
      List.replicate 16 0 ++ ([8, 9] ++ List.replicate 20 0 ++ List.replicate 10 9)⟩]

theorem plainRecords_numbered : Numbered plainPrimitives plainKeys 1 plainRecords :=
  ⟨⟨⟨List.replicate 16 0, 10, rfl, by decide, rfl⟩, by decide⟩,
    ⟨⟨List.replicate 16 0, 9, rfl, by decide, rfl⟩, by decide⟩, trivial⟩

theorem poll_read_reassembles_plain :
    let calls : List ReadCall := [⟨4, [.ready 2, .pending]⟩, ⟨1, [.ready 99, .ready 99]⟩]
    let reader := (Reader.start plainKeys 1 (wires plainRecords)).run plainPrimitives calls
    (∃ consumed ≤ plainRecords.length, reader.stream.readSeq = 1 + UInt64.ofNat consumed ∧
      reader.delivered ++ reader.stream.readBuf = plaintexts (plainRecords.take consumed) ∧
      reader.stream.pendingRecord ++ reader.unread = wires (plainRecords.drop consumed)) ∧
    ∀ call, Serves plainPrimitives plainRecords reader call :=
  poll_read_reassembles plainPrimitives plainKeys 1 plainRecords _ (fun _ _ _ _ _ => rfl)
    plainRecords_numbered (by decide)

end Runs

end XitForge.TlsPsk
