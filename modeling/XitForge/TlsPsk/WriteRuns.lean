import XitForge.TlsPsk.Stream

/-!
Runs of the write side. Flushing moves bytes from `write_buf` to the inner
stream and changes nothing else, so each call either leaves the outgoing bytes
as they are or appends one record. The stream stays faithful to what it
reports as long as no fresh record with data in it is left pending: that branch
keeps the record and still asks the caller to write the same data again.
-/
namespace XitForge.TlsPsk

namespace TlsPskStream

/-- The bytes on their way to the peer. -/
def outgoing (s : TlsPskStream) : Bytes := s.inner.accepted ++ s.writeBuf

/-- What a flush can do: the outgoing bytes, the keys and the sequence number
stay, the buffer is empty if it finished, and unused answers come from the
schedule. -/
structure Flushes (s : TlsPskStream) (answers : List Answer)
    (result : Poll (Except IdeviceError Unit)) (s' : TlsPskStream) (rest : List Answer) :
    Prop where
  outgoing_eq : s'.outgoing = s.outgoing
  keys_eq : s'.keys = s.keys
  seq_eq : s'.writeSeq = s.writeSeq
  emptied : result = .ready (.ok ()) → s'.writeBuf = []
  rest_sub : rest ⊆ answers
  no_error : Answer.error ∉ answers → ∀ e, result ≠ .ready (.error e)

theorem flushWriteBuf_flushes (s : TlsPskStream) (answers : List Answer) :
    s.Flushes answers (s.flushWriteBuf answers).1 (s.flushWriteBuf answers).2.1
      (s.flushWriteBuf answers).2.2 := by
  induction answers generalizing s with
  | nil =>
    unfold flushWriteBuf
    split <;> constructor <;> simp_all
  | cons answer rest ih =>
    unfold flushWriteBuf
    split
    · constructor <;> simp_all
    · cases answer with
      | pending => constructor <;> simp [Inner.pollWrite]
      | error => constructor <;> simp [Inner.pollWrite]
      | ready n =>
        have h := ih { s with
          inner := ⟨s.inner.accepted ++ s.writeBuf.take n⟩
          writeBuf := s.writeBuf.drop (min n s.writeBuf.length) }
        simp only [Inner.pollWrite]
        refine ⟨h.outgoing_eq.trans ?_, h.keys_eq, h.seq_eq, h.emptied, ?_, ?_⟩
        · have hsplit : s.writeBuf.take n ++ s.writeBuf.drop (min n s.writeBuf.length) =
              s.writeBuf := by
            rcases Nat.le_total n s.writeBuf.length with hle | hle
            · rw [Nat.min_eq_left hle, List.take_append_drop]
            · rw [Nat.min_eq_right hle, List.take_of_length_le hle, List.drop_length,
                List.append_nil]
          simp only [outgoing, List.append_assoc, hsplit]
        · exact fun a ha => List.mem_cons_of_mem _ (h.rest_sub ha)
        · intro hfree
          exact h.no_error fun hmem => hfree (List.mem_cons_of_mem _ hmem)

/-- The fresh record of this write would meet a Pending inner stream. -/
def FreshPending (s : TlsPskStream) (answers : List Answer) : Prop :=
  (s.flushWriteBuf answers).1 = .ready (.ok ()) ∧
    (s.flushWriteBuf answers).2.2.headD .pending = .pending

instance (s : TlsPskStream) (answers : List Answer) : Decidable (s.FreshPending answers) :=
  inferInstanceAs (Decidable (_ ∧ _))

/-- The record `poll_write` makes of `data` at this point. -/
def fresh (s : TlsPskStream) (iv data : Bytes) : SentRecord :=
  ⟨s.writeSeq, iv, data.take TLS_MAX_PLAINTEXT⟩

/-- Everything an error-free `poll_write` can do. -/
theorem pollWrite_cases (P : Primitives) (iv : Bytes) (s : TlsPskStream) (data : Bytes)
    (answers : List Answer) (hfree : Answer.error ∉ answers) :
    ∃ s', s'.keys = s.keys ∧
      ((s.pollWrite P iv data answers = (.pending, s', none) ∧ ¬ s.FreshPending answers ∧
          s'.outgoing = s.outgoing ∧ s'.writeSeq = s.writeSeq) ∨
        (s.pollWrite P iv data answers =
            (.ready (.ok (data.take TLS_MAX_PLAINTEXT).length), s', some (s.fresh iv data)) ∧
          ¬ s.FreshPending answers ∧
          s'.outgoing = s.outgoing ++ (s.fresh iv data).wire P s.keys ∧
          s'.writeSeq = s.writeSeq + 1) ∨
        (s.pollWrite P iv data answers = (.pending, s', some (s.fresh iv data)) ∧
          s.FreshPending answers ∧
          s'.outgoing = s.outgoing ++ (s.fresh iv data).wire P s.keys ∧
          s'.writeSeq = s.writeSeq + 1)) := by
  have hflush := s.flushWriteBuf_flushes answers
  unfold pollWrite FreshPending
  rcases hrun : s.flushWriteBuf answers with ⟨result, s₁, rest⟩
  rw [hrun] at hflush
  cases result with
  | pending =>
    exact ⟨s₁, hflush.keys_eq, Or.inl ⟨rfl, by simp, hflush.outgoing_eq, hflush.seq_eq⟩⟩
  | ready result =>
    cases result with
    | error e => exact absurd rfl (hflush.no_error hfree e)
    | ok _ =>
      have hempty : s₁.writeBuf = [] := hflush.emptied rfl
      have haccepted : s₁.inner.accepted = s.outgoing := by
        simpa [outgoing, hempty] using hflush.outgoing_eq
      have hsent : (⟨s₁.writeSeq, iv, data.take TLS_MAX_PLAINTEXT⟩ : SentRecord) =
          s.fresh iv data := by rw [fresh, hflush.seq_eq]
      have hkeys : s₁.keys = s.keys := hflush.keys_eq
      have hseq : s₁.writeSeq = s.writeSeq := hflush.seq_eq
      simp only [hsent, hkeys]
      cases hanswer : rest.headD .pending with
      | error =>
        cases rest with
        | nil => simp at hanswer
        | cons answer rest =>
          simp only [List.headD_cons] at hanswer
          subst hanswer
          exact absurd (hflush.rest_sub (List.mem_cons_self ..)) hfree
      | pending =>
        refine ⟨{ s₁ with
          writeSeq := s₁.writeSeq + 1
          writeBuf := (s.fresh iv data).wire P s.keys }, hkeys, Or.inr (Or.inr ?_)⟩
        refine ⟨by simp [Inner.pollWrite, hkeys], by simp, ?_, by simp [hseq]⟩
        simp [outgoing, haccepted]
      | ready n =>
        generalize (s.fresh iv data).wire P s.keys = record
        refine ⟨{ s₁ with
          inner := ⟨s₁.inner.accepted ++ record.take n⟩
          writeSeq := s₁.writeSeq + 1
          writeBuf := s₁.writeBuf ++ record.drop (min n record.length) },
          hkeys, Or.inr (Or.inl ?_)⟩
        refine ⟨by simp [Inner.pollWrite, hkeys], by simp, ?_, by simp [hseq]⟩
        have hsplit : record.take n ++ record.drop (min n record.length) = record := by
          rcases Nat.le_total n record.length with hle | hle
          · rw [Nat.min_eq_left hle, List.take_append_drop]
          · rw [Nat.min_eq_right hle, List.take_of_length_le hle, List.drop_length,
              List.append_nil]
        simp [outgoing, haccepted, hempty, hsplit]

end TlsPskStream

namespace Writer

/-- The step the stream does not survive: data goes into a record that the
inner stream leaves pending, and the caller is told to offer it again. -/
def LeavesPending (w : Writer) : Call → Prop
  | .write data _ answers => data ≠ [] ∧ w.stream.FreshPending answers
  | _ => False

/-- Faithful, with the sequence number of the record to come. -/
structure Sound (P : Primitives) (w : Writer) : Prop extends Faithful P w where
  next : w.stream.writeSeq = UInt64.ofNat (w.handed.length + 1)

theorem start_sound (P : Primitives) (keys : KeyBlock) : Sound P (start keys) :=
  { bytes := rfl
    numbered := fun k r h => by simp [start] at h
    plaintexts := rfl
    next := rfl }

/-- Handing one more record over keeps bytes and numbers in step. -/
theorem Sound.hand {P : Primitives} {w : Writer} (h : Sound P w) {s' : TlsPskStream}
    {iv data : Bytes} (hkeys : s'.keys = w.stream.keys)
    (hout : s'.outgoing = w.stream.outgoing ++ (w.stream.fresh iv data).wire P w.stream.keys)
    (hseq : s'.writeSeq = w.stream.writeSeq + 1) {reported : Bytes} {owed : Option Bytes}
    (hreported : reported = w.reported ++ data.take TLS_MAX_PLAINTEXT) :
    Sound P ⟨s', w.handed ++ [w.stream.fresh iv data], reported, owed⟩ where
  bytes := by
    have hbytes : w.stream.outgoing = w.handed.flatMap (SentRecord.wire P w.stream.keys) :=
      h.bytes
    change s'.outgoing = _
    simp only [hout, hbytes, hkeys, List.flatMap_append, List.flatMap_cons, List.flatMap_nil,
      List.append_nil]
  numbered := by
    intro k r hr
    by_cases hk : k < w.handed.length
    · rw [List.getElem?_append_left hk] at hr
      exact h.numbered k r hr
    · have hlast : k = w.handed.length := by
        have hlt := (List.getElem?_eq_some_iff.mp hr).1
        simp only [List.length_append, List.length_singleton] at hlt
        omega
      subst hlast
      rw [List.getElem?_concat_length] at hr
      cases hr
      exact h.next
  plaintexts := by
    simp only [List.map_append, List.map_cons, List.map_nil, List.flatten_append,
      List.flatten_cons, List.flatten_nil, List.append_nil, h.plaintexts, hreported]
    rfl
  next := by
    simp only [hseq, h.next, List.length_append, List.length_singleton]
    simp [UInt64.ofNat_add]

/-- Calls that hand no record over keep a sound writer sound. -/
theorem Sound.quiet {P : Primitives} {w : Writer} (h : Sound P w) {s' : TlsPskStream}
    (hkeys : s'.keys = w.stream.keys) (hout : s'.outgoing = w.stream.outgoing)
    (hseq : s'.writeSeq = w.stream.writeSeq) {owed : Option Bytes} :
    Sound P ⟨s', w.handed, w.reported, owed⟩ where
  bytes := by
    change s'.outgoing = _
    rw [hout, hkeys]
    exact h.bytes
  numbered := h.numbered
  plaintexts := h.plaintexts
  next := hseq.trans h.next

/-- One call: a sound writer stays sound unless a record with data is left pending. -/
theorem call_sound {P : Primitives} {w : Writer} {c : Call} (h : Sound P w)
    (hfree : c.ErrorFree) (hclear : ¬ w.LeavesPending c) : Sound P (w.call P c) := by
  cases c with
  | write data iv answers =>
    obtain ⟨s', hkeys, hrun | hrun | hrun⟩ :=
      w.stream.pollWrite_cases P iv data answers hfree
    · obtain ⟨heq, -, hout, hseq⟩ := hrun
      simp only [call, heq, Option.toList_none, List.append_nil]
      exact h.quiet hkeys hout hseq
    · obtain ⟨heq, -, hout, hseq⟩ := hrun
      simp only [call, heq, Option.toList_some]
      refine h.hand hkeys hout hseq ?_
      simp [List.length_take, List.take_eq_take_iff]
    · obtain ⟨heq, hfresh, hout, hseq⟩ := hrun
      have hdata : data = [] := by
        by_contra hne
        exact hclear ⟨hne, hfresh⟩
      subst hdata
      simp only [call, heq, Option.toList_some]
      exact h.hand hkeys hout hseq (by simp)
  | flush answers =>
    have hflush := w.stream.flushWriteBuf_flushes answers
    exact h.quiet hflush.keys_eq hflush.outgoing_eq hflush.seq_eq
  | shutdown => exact h

/-- The step that loses the agreement: what was handed over is now longer than
what was reported. -/
theorem call_not_faithful {P : Primitives} {w : Writer} {c : Call} (h : Faithful P w)
    (hfree : c.ErrorFree) (hleft : w.LeavesPending c) : ¬ Faithful P (w.call P c) := by
  cases c with
  | write data iv answers =>
    obtain ⟨hdata, hfresh⟩ := hleft
    obtain ⟨s', -, hrun | hrun | hrun⟩ := w.stream.pollWrite_cases P iv data answers hfree
    · exact absurd hfresh hrun.2.1
    · exact absurd hfresh hrun.2.1
    · intro hfaithful
      have hlong := hfaithful.plaintexts
      simp only [call, hrun.1, Option.toList_some, List.map_append, List.map_cons, List.map_nil,
        List.flatten_append, List.flatten_cons, List.flatten_nil, List.append_nil,
        h.plaintexts] at hlong
      have hchunk : data.take TLS_MAX_PLAINTEXT ≠ [] := by
        simp [List.take_eq_nil_iff, TLS_MAX_PLAINTEXT, hdata]
      exact hchunk (List.append_right_eq_self.mp hlong)
  | flush answers => exact absurd hleft id
  | shutdown => exact absurd hleft id

theorem run_append (P : Primitives) (w : Writer) (before after : List Call) :
    w.run P (before ++ after) = (w.run P before).run P after := List.foldl_append ..

/-- A run whose calls never leave a record with data pending is sound throughout. -/
theorem run_sound {P : Primitives} {calls : List Call} {w : Writer} (h : Sound P w)
    (hfree : ∀ c ∈ calls, c.ErrorFree)
    (hclear : ∀ before c after, calls = before ++ c :: after →
      ¬ (w.run P before).LeavesPending c) : Sound P (w.run P calls) := by
  induction calls generalizing w with
  | nil => exact h
  | cons c rest ih =>
    have hfirst : Sound P (w.call P c) :=
      call_sound h (hfree c (List.mem_cons_self ..)) (hclear [] c rest rfl)
    refine ih hfirst (fun d hd => hfree d (List.mem_cons_of_mem _ hd)) ?_
    intro before d after heq
    exact hclear (c :: before) d after (by rw [heq]; rfl)

end Writer

theorem Admissible.errorFree {P : Primitives} {calls : List Call} {w : Writer}
    (h : Admissible P w calls) : ∀ c ∈ calls, c.ErrorFree := by
  induction calls generalizing w with
  | nil => simp
  | cons c rest ih =>
    intro d hd
    rcases List.mem_cons.mp hd with rfl | hd
    · exact h.1
    · exact ih h.2.2 d hd

/-- A run of writes, flushes and shutdowns stays faithful at every point if and
only if no call of it leaves a fresh record with data in it pending. -/
theorem poll_write_faithful_iff (P : Primitives) (keys : KeyBlock) (calls : List Call)
    (hrun : Admissible P (Writer.start keys) calls) :
    (∀ before after, calls = before ++ after → Faithful P ((Writer.start keys).run P before)) ↔
      ∀ before c after, calls = before ++ c :: after →
        ¬ ((Writer.start keys).run P before).LeavesPending c := by
  have hfree := hrun.errorFree
  constructor
  · intro hfaithful before c after heq hleft
    have hbefore := hfaithful before (c :: after) heq
    have hafter := hfaithful (before ++ [c]) after (by simp [heq])
    rw [Writer.run_append] at hafter
    exact Writer.call_not_faithful hbefore (hfree c (by simp [heq])) hleft hafter
  · intro hclear before after heq
    refine (Writer.run_sound (Writer.start_sound P keys) ?_ ?_).toFaithful
    · intro c hc
      exact hfree c (by simp [heq, hc])
    · intro first c second hsplit
      exact hclear first c (second ++ after) (by simp [heq, hsplit])

/-- Fixed output lengths and nothing else: enough to run the stream. -/
def plainPrimitives : Primitives where
  hmacSha1 _ _ := List.replicate 20 0
  hmacSha256 _ _ := List.replicate 32 0
  hmacSha384 _ _ := List.replicate 48 0
  sha256 _ := List.replicate 32 0
  sha384 _ := List.replicate 48 0
  cbcEncrypt _ _ _ data := data
  cbcDecrypt _ _ _ data := some data
  hmacSha1_length _ _ := rfl
  hmacSha256_length _ _ := rfl
  hmacSha384_length _ _ := rfl
  cbcEncrypt_length _ _ _ _ := rfl
  cbcDecrypt_length := by
    intro _ _ _ _ _ h
    cases h
    rfl

def plainKeys : KeyBlock := ⟨[], [], [], [], .aes128CbcSha⟩

/-- One byte is written, the inner stream is Pending once and then takes all. -/
def pendingThenRepeated : List Call :=
  [.write [7] [] [.pending], .write [7] [] [.ready 100, .ready 100]]

theorem poll_write_faithful_iff_clear :
    (∀ before after, [Call.write [7] [] [.ready 3], .flush [.ready 100]] = before ++ after →
      Faithful plainPrimitives ((Writer.start plainKeys).run plainPrimitives before)) ↔
      ∀ before c after, [Call.write [7] [] [.ready 3], .flush [.ready 100]] =
        before ++ c :: after →
        ¬ ((Writer.start plainKeys).run plainPrimitives before).LeavesPending c :=
  poll_write_faithful_iff plainPrimitives plainKeys _ (by decide)

/-- The byte of a repeated write is handed over twice and reported once. -/
theorem pending_write_sent_twice :
    Admissible plainPrimitives (Writer.start plainKeys) pendingThenRepeated ∧
      (((Writer.start plainKeys).run plainPrimitives pendingThenRepeated).handed.map
        SentRecord.plaintext).flatten = [7, 7] ∧
      ((Writer.start plainKeys).run plainPrimitives pendingThenRepeated).reported = [7] ∧
      ¬ Faithful plainPrimitives
        ((Writer.start plainKeys).run plainPrimitives pendingThenRepeated) := by
  refine ⟨by decide, by decide, by decide, ?_⟩
  intro h
  exact absurd h.plaintexts (by decide)

end XitForge.TlsPsk
