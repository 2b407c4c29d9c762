import Mathlib.Data.List.Flatten
import XitForge.TlsPsk.Reads

/-!
The two readers of a TLS-PSK stream. `read_app_data` takes one record, refuses any type but
application data and then leaves `read_seq` where it was; `poll_read` hands on the plaintext
of a record of any type, and an empty one as the zero bytes that mean the end of the stream.
-/
namespace XitForge.TlsPsk

open RustEval

namespace TlsPskStream

/-- `read_record`: two reads of an exact length, which take what there is and fail when the
stream ends too early. -/
def readRecord (unread : Bytes) : Eval IdeviceError (UInt8 × Bytes) × Bytes :=
  match unread with
  | ct :: _ :: _ :: hi :: lo :: rest =>
    let len := hi.toNat * 256 + lo.toNat
    if rest.length < len then (.err .socket, [])
    else (.ok (ct, rest.take len), rest.drop len)
  | _ => (.err .socket, [])

def readAppData (P : Primitives) (s : TlsPskStream) (unread : Bytes) :
    Eval IdeviceError Bytes × TlsPskStream × Bytes :=
  match readRecord unread with
  | (.ok (ct, payload), unread) =>
    if ct ≠ ctApplicationData then
      (.err (.internalError s!"Expected application data, got ct={ct.toNat}"), s, unread)
    else
      match decryptRecord P s.keys true s.readSeq ctApplicationData payload with
      | .ok plaintext => (.ok plaintext, { s with readSeq := s.readSeq + 1 }, unread)
      | .err error => (.err error, s, unread)
      | .panic => (.panic, s, unread)
  | (.err error, unread) => (.err error, s, unread)
  | (.panic, unread) => (.panic, s, unread)

/-- The bytes that so many calls of `read_app_data` return, one after the other. -/
def readAll (P : Primitives) : ℕ → TlsPskStream → Bytes → Bytes
  | 0, _, _ => []
  | calls + 1, s, unread =>
    match s.readAppData P unread with
    | (.ok data, s, unread) => data ++ readAll P calls s unread
    | (_, s, unread) => readAll P calls s unread

end TlsPskStream

section ReadAll

def dataRecords (records : List ServerRecord) : List ServerRecord :=
  records.filter fun record => record.ct == ctApplicationData

theorem dataRecords_cons_of_data {record : ServerRecord} (rest : List ServerRecord)
    (h : record.ct = ctApplicationData) :
    dataRecords (record :: rest) = record :: dataRecords rest :=
  List.filter_cons_of_pos (beq_iff_eq.mpr h)

theorem dataRecords_cons_of_other {record : ServerRecord} (rest : List ServerRecord)
    (h : record.ct ≠ ctApplicationData) : dataRecords (record :: rest) = dataRecords rest :=
  List.filter_cons_of_neg fun heq => h (beq_iff_eq.mp heq)

variable {P : Primitives} {s : TlsPskStream} {records : List ServerRecord}

theorem readRecord_wire {record : ServerRecord} (hshort : record.body.length < 2 ^ 16)
    (rest : Bytes) :
    TlsPskStream.readRecord (record.wire ++ rest) = (.ok (record.ct, record.body), rest) := by
  have hlength : (UInt8.ofNat (record.body.length / 256)).toNat * 256 +
      (UInt8.ofNat record.body.length).toNat = record.body.length := by
    rw [UInt8.toNat_ofNat', UInt8.toNat_ofNat']
    omega
  rw [record.wire_eq]
  simp only [List.cons_append, TlsPskStream.readRecord, hlength]
  rw [if_neg (by rw [List.length_append]; omega), List.take_left, List.drop_left]

/-- Application data under the number that is expected. -/
theorem readAppData_data {record : ServerRecord} (hcbc : P.InvertsCbc)
    (hprotects : Protects P s.keys true s.readSeq record.ct record.plaintext record.body)
    (hshort : record.body.length < 2 ^ 16) (hdata : record.ct = ctApplicationData) (rest : Bytes) :
    s.readAppData P (record.wire ++ rest) =
      (.ok record.plaintext, { s with readSeq := s.readSeq + 1 }, rest) := by
  have hopens := decryptRecord_of_protects hprotects hcbc
  rw [hdata] at hopens
  unfold TlsPskStream.readAppData
  rw [readRecord_wire hshort]
  simp only [hdata, ne_eq, not_true_eq_false, if_false, hopens]

/-- Whatever the number is, a record is read as its plaintext or not at all, and not at all
if it is no application data. -/
theorem readAppData_other {record : ServerRecord} {seq : UInt64} (hcbc : P.InvertsCbc)
    (hprotects : Protects P s.keys true seq record.ct record.plaintext record.body)
    (hshort : record.body.length < 2 ^ 16) (rest : Bytes) :
    ∃ result s', s.readAppData P (record.wire ++ rest) = (result, s', rest) ∧ s'.keys = s.keys ∧
      ∀ data, result = .ok data → data = record.plaintext ∧ record.ct = ctApplicationData := by
  unfold TlsPskStream.readAppData
  rw [readRecord_wire hshort]
  dsimp only
  by_cases hdata : record.ct = ctApplicationData
  · rw [if_neg (not_not.mpr hdata)]
    cases hopens : decryptRecord P s.keys true s.readSeq ctApplicationData record.body with
    | ok plaintext =>
      refine ⟨_, _, rfl, rfl, ?_⟩
      intro data hok
      cases hok
      exact ⟨hprotects.eq_of_ok hcbc hopens, hdata⟩
    | err error => exact ⟨_, _, rfl, rfl, fun _ hok => nomatch hok⟩
    | panic => exact ⟨_, _, rfl, rfl, fun _ hok => nomatch hok⟩
  · rw [if_pos hdata]
    exact ⟨_, _, rfl, rfl, fun _ hok => nomatch hok⟩

/-- Records that are all application data are read as their plaintexts. -/
theorem readAll_data (hcbc : P.InvertsCbc) (hnumbered : Numbered P s.keys s.readSeq records)
    (hdata : ∀ record ∈ records, record.ct = ctApplicationData) :
    s.readAll P records.length (wires records) = plaintexts records := by
  induction records generalizing s with
  | nil => rfl
  | cons record rest ih =>
    obtain ⟨⟨hprotects, hshort⟩, hrest⟩ := hnumbered
    have hread := readAppData_data hcbc hprotects hshort (hdata record List.mem_cons_self)
      (wires rest)
    rw [wires_cons, List.length_cons, TlsPskStream.readAll, hread]
    dsimp only
    rw [ih hrest fun other hother => hdata other (List.mem_cons_of_mem _ hother)]
    exact List.flatMap_cons.symm

/-- Records read under any numbers: no more than the application data among them. -/
theorem readAll_le (hcbc : P.InvertsCbc) (hprotects : ∀ record ∈ records,
      (∃ seq, Protects P s.keys true seq record.ct record.plaintext record.body) ∧
        record.body.length < 2 ^ 16) :
    (s.readAll P records.length (wires records)).length ≤
      (plaintexts (dataRecords records)).length := by
  induction records generalizing s with
  | nil => exact Nat.le_refl 0
  | cons record rest ih =>
    obtain ⟨⟨seq, hfirst⟩, hshort⟩ := hprotects record List.mem_cons_self
    obtain ⟨result, s', hread, hkeys, hok⟩ := readAppData_other hcbc hfirst hshort (wires rest)
    have hrest := ih (s := s') (by
      intro other hother
      rw [hkeys]
      exact hprotects other (List.mem_cons_of_mem _ hother))
    rw [wires_cons, List.length_cons, TlsPskStream.readAll, hread]
    by_cases hdata : record.ct = ctApplicationData
    · rw [dataRecords_cons_of_data rest hdata, plaintexts_cons, List.length_append]
      cases result with
      | ok data =>
        obtain ⟨rfl, -⟩ := hok data rfl
        dsimp only
        rw [List.length_append]
        exact Nat.add_le_add_left hrest _
      | err error => exact Nat.le_trans hrest (Nat.le_add_left ..)
      | panic => exact Nat.le_trans hrest (Nat.le_add_left ..)
    · rw [dataRecords_cons_of_other rest hdata]
      cases result with
      | ok data => exact absurd (hok data rfl).2 hdata
      | err error => exact hrest
      | panic => exact hrest

/-- A record that is no application data and not empty is missing from what is read. -/
theorem filter_data_lt {record : ServerRecord} (hmem : record ∈ records)
    (hother : record.ct ≠ ctApplicationData) (hfull : record.plaintext ≠ []) :
    (plaintexts (dataRecords records)).length <
      (plaintexts records).length := by
  have hle : ∀ records : List ServerRecord,
      (plaintexts (dataRecords records)).length ≤
        (plaintexts records).length := fun records =>
    (List.filter_sublist.flatMap ServerRecord.plaintext).length_le
  induction records with
  | nil => exact absurd hmem List.not_mem_nil
  | cons head rest ih =>
    rw [plaintexts_cons, List.length_append]
    rcases List.mem_cons.mp hmem with rfl | hrest
    · rw [dataRecords_cons_of_other rest hother]
      have hpos := List.length_pos_iff.mpr hfull
      have hrest := hle rest
      omega
    · have hlt := ih hrest
      by_cases hdata : head.ct = ctApplicationData
      · rw [dataRecords_cons_of_data rest hdata, plaintexts_cons, List.length_append]
        omega
      · rw [dataRecords_cons_of_other rest hdata]
        omega

end ReadAll

section Agreement

variable {P : Primitives} {first : UInt64} {done rest : List ServerRecord} {r : Reader}

/-- The two readers agree on a stream of records: in every run what `poll_read` delivers are
the first bytes of what `read_app_data` returns, and all of them once the inner stream is at
its end; and zero bytes for a buffer with room in it mean that it is. -/
structure ReadsAgree (P : Primitives) (keys : KeyBlock) (first : UInt64)
    (records : List ServerRecord) : Prop where
  delivers : ∀ calls,
    ((Reader.start keys first (wires records)).run P calls).delivered <+:
      (Reader.start keys first (wires records)).stream.readAll P records.length (wires records)
  whole : ∀ calls call,
    (((Reader.start keys first (wires records)).run P calls).poll P call).eof = true →
      ((Reader.start keys first (wires records)).run P calls).delivered =
        (Reader.start keys first (wires records)).stream.readAll P records.length (wires records)
  ended : ∀ calls call, 0 < call.remaining →
    (((Reader.start keys first (wires records)).run P calls).poll P call).result =
      .ready (.ok []) →
    (((Reader.start keys first (wires records)).run P calls).poll P call).eof = true

/-- The end of the inner stream is seen when all records are opened and delivered. -/
theorem Reads.delivered_of_eof (hcbc : P.InvertsCbc) (h : Reads P first done rest r)
    {call : ReadCall} (heof : (r.poll P call).eof = true) :
    r.delivered = plaintexts (done ++ rest) := by
  rcases poll_cases hcbc h call with ⟨-, hpoll⟩ | ⟨hempty, hends⟩
  · rw [hpoll] at heof
    cases heof
  · cases hends with
    | waits result eof keeps coming =>
      rw [eof] at heof
      cases heof
    | ended result eof keeps coming hdone =>
      have hserved := h.served
      rw [hempty, List.append_nil] at hserved
      rw [hdone, List.append_nil, hserved]
    | opened hfirst result eof keys readSeq readBuf coming =>
      rw [eof] at heof
      cases heof

/-- Zero bytes for a buffer with room in it: the end, or an empty record. -/
theorem Reads.eof_of_nothing (hcbc : P.InvertsCbc) (h : Reads P first done rest r)
    (hfull : ∀ record ∈ rest, record.plaintext ≠ []) {call : ReadCall}
    (hroom : 0 < call.remaining) (hnothing : (r.poll P call).result = .ready (.ok [])) :
    (r.poll P call).eof = true := by
  rcases poll_cases hcbc h call with ⟨hbuffered, hpoll⟩ | ⟨hempty, hends⟩
  · rw [hpoll] at hnothing
    rcases List.take_eq_nil_iff.mp (Eval.ok.inj (Poll.ready.inj hnothing)) with hzero | hnil
    · omega
    · exact absurd hnil hbuffered
  · cases hends with
    | waits result eof keeps coming =>
      obtain hresult | hresult := result <;> rw [hresult] at hnothing <;> cases hnothing
    | ended result eof keeps coming hdone => exact eof
    | opened hfirst result eof keys readSeq readBuf coming =>
      rename_i record others
      rw [result] at hnothing
      rcases List.take_eq_nil_iff.mp (Eval.ok.inj (Poll.ready.inj hnothing)) with hzero | hnil
      · omega
      · exact absurd hnil (hfull record (by rw [hfirst]; exact List.mem_cons_self))

/-- A call with room for the next record while the inner stream keeps giving bytes. -/
def roomy (r : Reader) (record : ServerRecord) : ReadCall where
  remaining := record.plaintext.length + 1
  arrivals := List.replicate (r.unread.length + 1) (.ready 0)

/-- Such a call delivers the next record as a whole. -/
theorem Reads.poll_roomy {record : ServerRecord} (hcbc : P.InvertsCbc)
    (h : Reads P first done (record :: rest) r) (hempty : r.stream.readBuf = []) :
    (r.poll P (roomy r record)).result = .ready (.ok record.plaintext) ∧
      (r.poll P (roomy r record)).eof = false ∧
      (r.call P (roomy r record)).stream.readBuf = [] ∧
      Reads P first (done ++ [record]) rest (r.call P (roomy r record)) := by
  rcases poll_cases hcbc h (roomy r record) with ⟨hbuffered, -⟩ | ⟨-, hends⟩
  · exact absurd hempty hbuffered
  have htake : record.plaintext.take (record.plaintext.length + 1) = record.plaintext :=
    List.take_of_length_le (Nat.le_succ _)
  cases hends with
  | waits result eof keeps coming =>
    have hsettled : (r.poll P (roomy r record)).result ≠ .pending ∧
        (r.poll P (roomy r record)).result ≠ .ready (.err .inner) := by
      apply poll_settles hempty
      · exact fun arrival harrival => ⟨0, List.eq_of_mem_replicate harrival⟩
      · rw [roomy, List.length_replicate]
        exact Nat.lt_succ_self _
    rcases result with hresult | hresult
    · exact absurd hresult hsettled.1
    · exact absurd hresult hsettled.2
  | ended result eof keeps coming hdone => cases hdone
  | opened hfirst result eof keys readSeq readBuf coming =>
    cases hfirst
    have hnext := h.open hempty result keys readSeq readBuf coming
    refine ⟨result.trans (by rw [roomy, htake]), eof, ?_, hnext⟩
    change (r.poll P (roomy r record)).stream.readBuf = []
    rw [readBuf, hempty, List.nil_append]
    exact List.drop_of_length_le (Nat.le_succ _)

/-- Calls with room enough open any number of records. -/
theorem Reads.run_roomy {front : List ServerRecord} (hcbc : P.InvertsCbc)
    (h : Reads P first done (front ++ rest) r) (hempty : r.stream.readBuf = []) :
    ∃ calls, (r.run P calls).stream.readBuf = [] ∧
      Reads P first (done ++ front) rest (r.run P calls) := by
  induction front generalizing r done with
  | nil =>
    refine ⟨[], hempty, ?_⟩
    rw [List.append_nil]
    exact h
  | cons record front ih =>
    obtain ⟨-, -, hempty', hnext⟩ := h.poll_roomy hcbc hempty
    obtain ⟨calls, hbuffer, hreads⟩ := ih hnext hempty'
    refine ⟨roomy r record :: calls, hbuffer, ?_⟩
    rw [List.append_assoc] at hreads
    exact hreads

theorem Numbered.protects {keys : KeyBlock} {seq : UInt64} {records : List ServerRecord}
    (h : Numbered P keys seq records) : ∀ record ∈ records,
      (∃ seq, Protects P keys true seq record.ct record.plaintext record.body) ∧
        record.body.length < 2 ^ 16 := by
  induction records generalizing seq with
  | nil => exact fun record hmem => absurd hmem List.not_mem_nil
  | cons head rest ih =>
    intro record hmem
    rcases List.mem_cons.mp hmem with rfl | hrest
    · exact ⟨⟨seq, h.1.1⟩, h.1.2⟩
    · exact ih h.2 record hrest

/-- The two readers agree exactly on streams of application data without empty records. -/
theorem reads_agree_iff (P : Primitives) (keys : KeyBlock) (first : UInt64)
    (records : List ServerRecord) (hcbc : P.InvertsCbc)
    (hnumbered : Numbered P keys first records) :
    ReadsAgree P keys first records ↔
      ∀ record ∈ records, record.ct = ctApplicationData ∧ record.plaintext ≠ [] := by
  have hstart := start_reads hnumbered
  constructor
  · intro hagree
    have hfull : ∀ record ∈ records, record.plaintext ≠ [] := by
      intro record hmem hnil
      obtain ⟨before, after, rfl⟩ := List.append_of_mem hmem
      obtain ⟨calls, hempty, hreads⟩ := hstart.run_roomy hcbc rfl
      obtain ⟨hresult, hnot, -⟩ := hreads.poll_roomy hcbc hempty
      rw [hnil] at hresult
      have heof := hagree.ended calls _ (Nat.succ_pos _) hresult
      rw [hnot] at heof
      cases heof
    intro record hmem
    refine ⟨?_, hfull record hmem⟩
    by_contra hother
    have hwhole : Reads P first [] (records ++ []) (Reader.start keys first (wires records)) := by
      rw [List.append_nil]
      exact hstart
    obtain ⟨calls, hempty, hreads⟩ := hwhole.run_roomy hcbc rfl
    have hserved := hreads.served
    rw [hempty, List.append_nil, List.nil_append] at hserved
    have hprefix := (hagree.delivers calls).length_le
    rw [hserved] at hprefix
    have hread : ((Reader.start keys first (wires records)).stream.readAll P records.length
        (wires records)).length ≤ (plaintexts (dataRecords records)).length :=
      readAll_le hcbc hnumbered.protects
    have hlt := filter_data_lt hmem hother (hfull record hmem)
    omega
  · intro hgood
    have hall : (Reader.start keys first (wires records)).stream.readAll P records.length
        (wires records) = plaintexts records :=
      readAll_data hcbc hnumbered fun record hrecord => (hgood record hrecord).1
    refine ⟨?_, ?_, ?_⟩
    · intro calls
      obtain ⟨done, rest, hsplit, hreads⟩ := run_reads hcbc hstart calls
      rw [List.nil_append] at hsplit
      rw [hall, ← hsplit, plaintexts, List.flatMap_append]
      refine ⟨((Reader.start keys first (wires (done ++ rest))).run P calls).stream.readBuf ++
        plaintexts rest, ?_⟩
      rw [hsplit, ← List.append_assoc, hreads.served]
      rfl
    · intro calls call heof
      obtain ⟨done, rest, hsplit, hreads⟩ := run_reads hcbc hstart calls
      rw [hreads.delivered_of_eof hcbc heof, hsplit, hall, List.nil_append]
    · intro calls call hroom hnothing
      obtain ⟨done, rest, hsplit, hreads⟩ := run_reads hcbc hstart calls
      refine hreads.eof_of_nothing hcbc ?_ hroom hnothing
      intro record hrecord
      refine (hgood record ?_).2
      rw [List.nil_append] at hsplit
      rw [← hsplit]
      exact List.mem_append_right _ hrecord

theorem reads_agree_iff_plain :
    ReadsAgree plainPrimitives plainKeys 1 plainRecords ↔
      ∀ record ∈ plainRecords, record.ct = ctApplicationData ∧ record.plaintext ≠ [] :=
  reads_agree_iff plainPrimitives plainKeys 1 plainRecords (fun _ _ _ _ _ => rfl)
    plainRecords_numbered

/-- A close_notify of the server. -/
def closeNotify : ServerRecord :=
  ⟨ctAlert, [1, 0], List.replicate 16 0 ++ ([1, 0] ++ List.replicate 20 0 ++ List.replicate 10 9)⟩

/-- The two bytes of the alert are delivered as data. -/
theorem closeNotify_delivered :
    Numbered plainPrimitives plainKeys 1 [closeNotify] ∧
      ¬ ReadsAgree plainPrimitives plainKeys 1 [closeNotify] := by
  constructor
  · exact ⟨⟨⟨List.replicate 16 0, 9, rfl, by decide, rfl⟩, by decide⟩, trivial⟩
  · intro hagree
    have hdelivers := hagree.delivers [⟨4, [.ready 99]⟩]
    revert hdelivers
    decide

end Agreement

section Delivery

variable {P : Primitives} {first : UInt64} {done rest : List ServerRecord} {r : Reader}
  {calls : List ReadCall}

/-- A run of calls with room in their buffers, none of which comes back with zero bytes: what
`read_exact` makes of `poll_read`. -/
def Fed (P : Primitives) : Reader → List ReadCall → Prop
  | _, [] => True
  | r, call :: calls => (0 < call.remaining ∧ (r.poll P call).result ≠ .ready (.ok [])) ∧
      Fed P (r.call P call) calls

/-- What is read until a read comes back with zero bytes, however it is read. -/
def Gives (P : Primitives) (r : Reader) (bytes : Bytes) : Prop :=
  ∀ calls, Fed P r calls → (r.run P calls).delivered <+: r.delivered ++ bytes ∧
    ∀ call, 0 < call.remaining → ((r.run P calls).poll P call).result = .ready (.ok []) →
      (r.run P calls).delivered = r.delivered ++ bytes

/-- The plaintexts up to the first record without one. -/
def upToEmpty (records : List ServerRecord) : Bytes :=
  plaintexts (records.takeWhile fun record => record.plaintext ≠ [])

theorem upToEmpty_append {front : List ServerRecord}
    (h : ∀ record ∈ front, record.plaintext ≠ []) :
    upToEmpty (front ++ rest) = plaintexts front ++ upToEmpty rest := by
  unfold upToEmpty
  rw [List.takeWhile_append_of_pos fun record hmem => decide_eq_true (h record hmem), plaintexts,
    List.flatMap_append]
  rfl

/-- Calls that are fed open records with a plaintext only. -/
theorem run_fed (hcbc : P.InvertsCbc) (h : Reads P first done rest r) (hfed : Fed P r calls) :
    ∃ front back, rest = front ++ back ∧ (∀ record ∈ front, record.plaintext ≠ []) ∧
      Reads P first (done ++ front) back (r.run P calls) := by
  induction calls generalizing r done rest with
  | nil =>
    refine ⟨[], rest, rfl, fun _ hmem => absurd hmem List.not_mem_nil, ?_⟩
    rw [List.append_nil]
    exact h
  | cons call calls ih =>
    obtain ⟨⟨hroom, hsome⟩, hfed⟩ := hfed
    rcases call_reads hcbc h call with hnext | ⟨record, others, rfl, hresult, hnext⟩
    · exact ih hnext hfed
    · have hfull : record.plaintext ≠ [] := by
        intro hnil
        rw [hnil, List.take_nil] at hresult
        exact hsome hresult
      obtain ⟨front, back, rfl, hfront, hreads⟩ := ih hnext hfed
      refine ⟨record :: front, back, rfl, List.forall_mem_cons.mpr ⟨hfull, hfront⟩, ?_⟩
      rw [List.append_assoc] at hreads
      exact hreads

/-- Reading with room enough up to the first record without a plaintext. -/
theorem Reads.run_upToEmpty {front : List ServerRecord} (hcbc : P.InvertsCbc)
    (h : Reads P first done (front ++ rest) r) (hempty : r.stream.readBuf = [])
    (hfull : ∀ record ∈ front, record.plaintext ≠ []) :
    ∃ calls, Fed P r calls ∧ (r.run P calls).stream.readBuf = [] ∧
      Reads P first (done ++ front) rest (r.run P calls) := by
  induction front generalizing r done with
  | nil =>
    refine ⟨[], trivial, hempty, ?_⟩
    rw [List.append_nil]
    exact h
  | cons record front ih =>
    obtain ⟨hresult, -, hempty', hnext⟩ := h.poll_roomy hcbc hempty
    obtain ⟨calls, hfed, hbuffer, hreads⟩ := ih hnext hempty'
      fun other hother => hfull other (List.mem_cons_of_mem _ hother)
    refine ⟨roomy r record :: calls, ⟨⟨Nat.succ_pos _, ?_⟩, hfed⟩, hbuffer, ?_⟩
    · rw [hresult]
      intro hnothing
      exact hfull record List.mem_cons_self (Eval.ok.inj (Poll.ready.inj hnothing))
    · rw [List.append_assoc] at hreads
      exact hreads

/-- A call that comes back with zero bytes: all records are opened, or one without a plaintext
is next. -/
theorem Reads.exists_nothing (hcbc : P.InvertsCbc) (h : Reads P first done rest r)
    (hempty : r.stream.readBuf = []) (hnext : ∀ record ∈ rest.head?, record.plaintext = []) :
    ∃ call : ReadCall, 0 < call.remaining ∧ (r.poll P call).result = .ready (.ok []) := by
  cases rest with
  | cons record others =>
    obtain ⟨hresult, -⟩ := h.poll_roomy hcbc hempty
    rw [hnext record rfl] at hresult
    exact ⟨_, Nat.succ_pos _, hresult⟩
  | nil =>
    refine ⟨⟨1, List.replicate (r.unread.length + 1) (.ready 0)⟩, Nat.one_pos, ?_⟩
    obtain ⟨hbuffered, -⟩ | ⟨-, hends⟩ :=
      poll_cases hcbc h ⟨1, List.replicate (r.unread.length + 1) (.ready 0)⟩
    · exact absurd hempty hbuffered
    cases hends with
    | waits result eof keeps coming =>
      have hsettled : (r.poll P ⟨1, List.replicate (r.unread.length + 1) (.ready 0)⟩).result ≠
            .pending ∧
          (r.poll P ⟨1, List.replicate (r.unread.length + 1) (.ready 0)⟩).result ≠
            .ready (.err .inner) := by
        apply poll_settles hempty
        · exact fun arrival harrival => ⟨0, List.eq_of_mem_replicate harrival⟩
        · rw [List.length_replicate]
          exact Nat.lt_succ_self _
      rcases result with hresult | hresult
      · exact absurd hresult hsettled.1
      · exact absurd hresult hsettled.2
    | ended result eof keeps coming hdone => exact result
    | opened hfirst result eof keys readSeq readBuf coming => cases hfirst

/-- The records up to the first one without a plaintext, and that one if there is one. -/
theorem exists_upToEmpty (records : List ServerRecord) :
    ∃ front back, records = front ++ back ∧ (∀ record ∈ front, record.plaintext ≠ []) ∧
      (∀ record ∈ back.head?, record.plaintext = []) ∧ upToEmpty records = plaintexts front := by
  induction records with
  | nil =>
    refine ⟨[], [], rfl, ?_, ?_, rfl⟩
    · exact fun _ hmem => absurd hmem List.not_mem_nil
    · exact fun _ hmem => nomatch hmem
  | cons record rest ih =>
    by_cases hnil : record.plaintext = []
    · refine ⟨[], record :: rest, rfl, fun _ hmem => absurd hmem List.not_mem_nil, ?_, ?_⟩
      · intro other hother
        cases hother
        exact hnil
      · unfold upToEmpty
        rw [List.takeWhile_cons_of_neg (by simpa using hnil)]
    · obtain ⟨front, back, rfl, hfront, hback, hgives⟩ := ih
      refine ⟨record :: front, back, rfl, List.forall_mem_cons.mpr ⟨hnil, hfront⟩, hback, ?_⟩
      have hone : ∀ other ∈ [record], other.plaintext ≠ [] :=
        List.forall_mem_singleton.mpr hnil
      have happend : upToEmpty ([record] ++ (front ++ back)) =
          plaintexts [record] ++ upToEmpty (front ++ back) := upToEmpty_append hone
      rw [hgives] at happend
      exact happend.trans (List.flatMap_append).symm

/-- What is read until a read comes back with zero bytes are the plaintexts up to the first
record without one. -/
theorem Reads.gives_iff (hcbc : P.InvertsCbc) (h : Reads P first done rest r)
    (hempty : r.stream.readBuf = []) {bytes : Bytes} :
    Gives P r bytes ↔ bytes = upToEmpty rest := by
  have hserved := h.served
  rw [hempty, List.append_nil] at hserved
  have hbytes : ∀ front, plaintexts (done ++ front) = r.delivered ++ plaintexts front := by
    intro front
    rw [hserved]
    exact List.flatMap_append
  constructor
  · intro hgives
    obtain ⟨front, back, rfl, hfront, hback, hupTo⟩ := exists_upToEmpty rest
    obtain ⟨calls, hfed, hbuffer, hreads⟩ := h.run_upToEmpty hcbc hempty hfront
    obtain ⟨call, hroom, hnothing⟩ := hreads.exists_nothing hcbc hbuffer hback
    have hwhole := (hgives calls hfed).2 call hroom hnothing
    have hdelivered := hreads.served
    rw [hbuffer, List.append_nil, hbytes, hwhole] at hdelivered
    rw [hupTo]
    exact List.append_cancel_left hdelivered
  · rintro rfl calls hfed
    obtain ⟨front, back, rfl, hfront, hreads⟩ := run_fed hcbc h hfed
    have hdelivered := hreads.served
    rw [hbytes] at hdelivered
    rw [upToEmpty_append hfront]
    constructor
    · refine ⟨(r.run P calls).stream.readBuf ++ upToEmpty back, ?_⟩
      rw [← List.append_assoc, hdelivered, List.append_assoc]
    · intro call hroom hnothing
      rcases poll_cases hcbc hreads call with ⟨hbuffered, hpoll⟩ | ⟨hkept, hends⟩
      · rw [hpoll] at hnothing
        rcases List.take_eq_nil_iff.mp (Eval.ok.inj (Poll.ready.inj hnothing)) with hzero | hnil
        · omega
        · exact absurd hnil hbuffered
      · rw [hkept, List.append_nil] at hdelivered
        have hlast : upToEmpty back = [] := by
          cases hends with
          | waits result eof keeps coming =>
            obtain hresult | hresult := result <;> rw [hresult] at hnothing <;> cases hnothing
          | ended result eof keeps coming hdone =>
            rw [hdone]
            rfl
          | opened hfirst result eof keys readSeq readBuf coming =>
            rename_i record others
            rw [result] at hnothing
            rcases List.take_eq_nil_iff.mp (Eval.ok.inj (Poll.ready.inj hnothing)) with hzero | hnil
            · omega
            · unfold upToEmpty
              rw [hfirst, List.takeWhile_cons_of_neg (by simpa using hnil)]
              rfl
        rw [hlast, List.append_nil]
        exact hdelivered

end Delivery

end XitForge.TlsPsk
