import Mathlib.Data.List.GetD
import XitForge.TlsPsk.Handshake

/-!
The first loop of `tls_psk_handshake` over a server flight that is laid out in records in any
way. It looks for messages in each record by itself, reads ServerHello at fixed offsets of
the record, and stops at the first record with the four bytes of ServerHelloDone anywhere in
it; a record of 38 bytes with a ServerHello in it is indexed past its end.
-/
namespace XitForge.TlsPsk

open RustEval

section Record

/-- The parser finds a message of the type of ServerHello in the record. -/
def hasHello (payload : Bytes) : Bool :=
  (parseHandshakeMessages payload).any fun message => message.1 == hsServerHello

/-- The record is indexed past its end. -/
def Overruns (payload : Bytes) : Prop := hasHello payload ∧ payload.length = 38

def GivesRandom (payload : Bytes) : Prop := hasHello payload ∧ 38 < payload.length

/-- The session id whose length is in byte 38 leaves room for the two bytes behind it. -/
def GivesCipher (payload : Bytes) : Prop :=
  GivesRandom payload ∧ 41 + (payload.getD 38 0).toNat ≤ payload.length

instance : DecidablePred Overruns := fun _ => inferInstanceAs (Decidable (_ ∧ _))

instance : DecidablePred GivesRandom := fun _ => inferInstanceAs (Decidable (_ ∧ _))

instance : DecidablePred GivesCipher := fun _ => inferInstanceAs (Decidable (_ ∧ _))

def randomAt (payload : Bytes) : Bytes := (payload.drop 6).take 32

def cipherAt (payload : Bytes) : UInt8 × UInt8 :=
  (payload.getD (39 + (payload.getD 38 0).toNat) 0, payload.getD (40 + (payload.getD 38 0).toNat) 0)

/-- What is known behind a record that is not indexed past its end. -/
def learn (hello : Hello) (payload : Bytes) : Hello where
  serverRandom := if GivesRandom payload then randomAt payload else hello.serverRandom
  selectedCipher := if GivesCipher payload then cipherAt payload else hello.selectedCipher

variable {payload : Bytes} {hello : Hello}

theorem readServerHello_of_overrun (h : payload.length = 38) :
    readServerHello payload hello = .panic := by
  have hnone : payload[38]? = none := List.getElem?_eq_none (by omega)
  unfold readServerHello
  rw [if_pos (by omega), hnone]

theorem readServerHello_of_short (h : payload.length < 38) :
    readServerHello payload hello = .ok hello := by
  unfold readServerHello
  exact if_neg (by omega)

theorem readServerHello_of_long (hmessage : hasHello payload) (h : 38 < payload.length) :
    readServerHello payload hello = .ok (learn hello payload) := by
  have hsid : payload[38]? = some (payload.getD 38 0) := by
    rw [List.getElem?_eq_getElem h, List.getD_eq_getElem _ _ h]
  have hrandom : GivesRandom payload := ⟨hmessage, h⟩
  unfold readServerHello learn
  rw [if_pos (by omega), hsid, if_pos hrandom]
  dsimp only
  generalize hlength : (payload.getD 38 0).toNat = sidLen
  by_cases hroom : 39 + sidLen + 2 ≤ payload.length
  · have hcipher : GivesCipher payload := ⟨hrandom, by rw [hlength]; omega⟩
    have hdrop : payload.drop (39 + sidLen) = payload.getD (39 + sidLen) 0 ::
        payload.getD (40 + sidLen) 0 :: payload.drop (41 + sidLen) := by
      rw [List.drop_eq_getElem_cons (by omega), List.drop_eq_getElem_cons (by omega),
        List.getD_eq_getElem _ _ (by omega), List.getD_eq_getElem _ _ (by omega)]
      congr 2
      · congr 1
        omega
      · congr 1
        omega
    rw [if_pos hroom, hdrop, if_pos hcipher, cipherAt, hlength]
    rfl
  · have hcipher : ¬ GivesCipher payload := by
      intro hgiven
      obtain ⟨-, hfits⟩ := hgiven
      rw [hlength] at hfits
      omega
    rw [if_neg hroom, if_neg hcipher]
    rfl

theorem readMessages_cons (message : Message) (rest : List Message) :
    readMessages payload (message :: rest) hello =
      (if message.1 = hsServerHello then readServerHello payload hello else .ok hello) >>=
        readMessages payload rest := by
  obtain ⟨msgType, bytes⟩ := message
  unfold readMessages
  by_cases htype : msgType = hsServerHello
  · rw [if_pos htype, if_pos htype]
  · rw [if_neg htype, if_neg htype]
    rfl

/-- The branch of ServerHello reads the record, so taking it again changes nothing. -/
theorem readMessages_of_ok {messages : List Message} {f : Hello → Hello}
    (hread : ∀ hello, readServerHello payload hello = .ok (f hello))
    (htwice : ∀ hello, f (f hello) = f hello) :
    readMessages payload messages hello = .ok
      (if messages.any (fun message => message.1 == hsServerHello) then f hello else hello) := by
  induction messages generalizing hello with
  | nil => rfl
  | cons message rest ih =>
    rw [readMessages_cons]
    by_cases htype : message.1 = hsServerHello
    · rw [if_pos htype, hread, Eval.ok_bind, ih, List.any_cons, beq_iff_eq.mpr htype,
        Bool.true_or, if_pos rfl, htwice]
      simp only [ite_self]
    · rw [if_neg htype, Eval.ok_bind, ih, List.any_cons,
        beq_eq_false_iff_ne.mpr htype, Bool.false_or]

theorem readMessages_of_panic {messages : List Message}
    (hread : ∀ hello, readServerHello payload hello = .panic)
    (hany : messages.any fun message => message.1 == hsServerHello) :
    readMessages payload messages hello = .panic := by
  induction messages with
  | nil => cases hany
  | cons message rest ih =>
    rw [readMessages_cons]
    by_cases htype : message.1 = hsServerHello
    · rw [if_pos htype, hread, Eval.panic_bind]
    · rw [List.any_cons, beq_eq_false_iff_ne.mpr htype, Bool.false_or] at hany
      rw [if_neg htype, Eval.ok_bind, ih hany]

theorem learn_of_not_gives (h : ¬ GivesRandom payload) : learn hello payload = hello := by
  have hcipher : ¬ GivesCipher payload := fun hgives => h hgives.1
  unfold learn
  rw [if_neg h, if_neg hcipher]

theorem learn_learn : learn (learn hello payload) payload = learn hello payload := by
  unfold learn
  congr 1
  · split <;> rfl
  · split <;> rfl

/-- All that the loop makes of one record. -/
theorem readMessages_record :
    readMessages payload (parseHandshakeMessages payload) hello =
      if Overruns payload then .panic else .ok (learn hello payload) := by
  by_cases hmessage : hasHello payload
  · rcases Nat.lt_trichotomy payload.length 38 with hshort | hexact | hlong
    · have hnot : ¬ Overruns payload := fun h => absurd h.2 (Nat.ne_of_lt hshort)
      have hgives : ¬ GivesRandom payload := fun h => absurd h.2 (by omega)
      rw [if_neg hnot, learn_of_not_gives hgives,
        readMessages_of_ok (fun hello => readServerHello_of_short hshort) fun _ => rfl, ite_self]
    · rw [if_pos ⟨hmessage, hexact⟩]
      exact readMessages_of_panic (fun hello => readServerHello_of_overrun hexact) hmessage
    · have hnot : ¬ Overruns payload := fun h => absurd h.2 (Nat.ne_of_gt hlong)
      rw [if_neg hnot, readMessages_of_ok
        (fun hello => readServerHello_of_long hmessage hlong) fun _ => learn_learn]
      exact congrArg Eval.ok (if_pos hmessage)
  · have hnot : ¬ Overruns payload := fun h => hmessage h.1
    have hgives : ¬ GivesRandom payload := fun h => hmessage h.1
    rw [if_neg hnot, learn_of_not_gives hgives]
    unfold hasHello at hmessage
    generalize parseHandshakeMessages payload = messages at hmessage ⊢
    induction messages with
    | nil => rfl
    | cons message rest ih =>
      rw [List.any_cons, Bool.or_eq_true, not_or] at hmessage
      rw [readMessages_cons, if_neg fun htype => hmessage.1 (beq_iff_eq.mpr htype), Eval.ok_bind,
        ih hmessage.2]

end Record

section Loop

/-- The loop leaves behind this record. -/
def Stops (payload : Bytes) : Prop := containsHelloDone payload

instance : DecidablePred Stops := fun _ => inferInstanceAs (Decidable (_ = _))

theorem Stops.mem_and_length {payload : Bytes} (h : Stops payload) :
    hsServerHelloDone ∈ payload ∧ 4 ≤ payload.length := by
  unfold Stops at h
  fun_induction containsHelloDone payload with
  | case1 a b c d rest ih =>
    constructor
    · rw [Bool.or_eq_true] at h
      rcases h with hhere | hlater
      · simp only [Bool.and_eq_true, beq_iff_eq] at hhere
        rw [hhere.1.1.1]
        exact List.mem_cons_self
      · exact List.mem_cons_of_mem _ (ih hlater).1
    · simp only [List.length_cons]
      omega
  | case2 bytes hshort => cases h

theorem stops_iff {payload : Bytes} : Stops payload ↔
    (payload.contains hsServerHelloDone && decide (4 ≤ payload.length) &&
      containsHelloDone payload) = true := by
  rw [Bool.and_eq_true, Bool.and_eq_true, decide_eq_true_iff, List.contains_iff_mem]
  constructor
  · exact fun h => ⟨h.mem_and_length, h⟩
  · exact fun h => h.2

/-- One handshake record. -/
theorem readServerFlight_handshake (payload : Bytes) (rest : List Record) (hello : Hello)
    (transcript : Bytes) :
    readServerFlight (⟨ctHandshake, payload⟩ :: rest) hello transcript =
      if Overruns payload then .panic
      else if Stops payload then .ok (learn hello payload, transcript ++ payload, rest)
      else readServerFlight rest (learn hello payload) (transcript ++ payload) := by
  rw [readServerFlight]
  dsimp only
  rw [if_neg (by decide), if_neg (by decide), readMessages_record]
  by_cases hover : Overruns payload
  · rw [if_pos hover, if_pos hover, Eval.panic_bind]
  · rw [if_neg hover, if_neg hover, Eval.ok_bind]
    by_cases hstops : Stops payload
    · rw [if_pos hstops, if_pos (stops_iff.mp hstops), Eval.pure_eq]
    · rw [if_neg hstops, if_neg fun h => hstops (stops_iff.mpr h)]

def handshakeRecord (payload : Bytes) : Record := ⟨ctHandshake, payload⟩

def learnAll (hello : Hello) (payloads : List Bytes) : Hello := payloads.foldl learn hello

variable {hello : Hello} {transcript : Bytes} {records rest : List Record}

/-- Records that are neither indexed past their ends nor stopped at. -/
theorem readServerFlight_append {front : List Bytes}
    (hcalm : ∀ payload ∈ front, ¬ Overruns payload ∧ ¬ Stops payload) :
    readServerFlight (front.map handshakeRecord ++ rest) hello transcript =
      readServerFlight rest (learnAll hello front) (transcript ++ front.flatten) := by
  induction front generalizing hello transcript with
  | nil =>
    rw [List.flatten_nil, List.append_nil]
    rfl
  | cons payload front ih =>
    obtain ⟨hover, hstops⟩ := hcalm payload List.mem_cons_self
    have hstep := readServerFlight_handshake payload (front.map handshakeRecord ++ rest) hello
      transcript
    rw [if_neg hover, if_neg hstops] at hstep
    rw [List.flatten_cons, ← List.append_assoc]
    exact hstep.trans (ih fun other hother => hcalm other (List.mem_cons_of_mem _ hother))

/-- A loop that ends has read a record. -/
theorem readServerFlight_shorter {hello' : Hello} {transcript' : Bytes}
    (h : readServerFlight records hello transcript = .ok (hello', transcript', rest)) :
    rest.length < records.length := by
  induction records generalizing hello transcript with
  | nil => cases h
  | cons record records ih =>
    rw [readServerFlight] at h
    split at h
    · cases h
    · split at h
      · cases h
      · obtain ⟨next, -, hnext⟩ := Eval.bind_eq_ok.mp h
        split at hnext
        · cases hnext
          exact Nat.lt_succ_self _
        · exact Nat.lt_succ_of_lt (ih hnext)

/-- The loop panics exactly if it reaches a record that is indexed past its end. -/
theorem readServerFlight_panic_iff :
    readServerFlight records hello transcript = .panic ↔
      ∃ (front : List Bytes) (payload : Bytes) (rest : List Record),
      records = front.map handshakeRecord ++ handshakeRecord payload :: rest ∧
        (∀ other ∈ front, ¬ Stops other) ∧ Overruns payload := by
  constructor
  · intro h
    induction records generalizing hello transcript with
    | nil => cases h
    | cons record records ih =>
      by_cases htype : record.ct = ctHandshake
      · have hrecord : record = handshakeRecord record.payload := by
          rw [handshakeRecord, ← htype]
        rw [hrecord] at h
        have hstep := (readServerFlight_handshake _ _ _ _).symm.trans h
        split at hstep
        · rename_i hover
          refine ⟨[], record.payload, records, ?_, ?_, hover⟩
          · rw [← hrecord]
            rfl
          · exact fun _ hmem => absurd hmem List.not_mem_nil
        · split at hstep
          · cases hstep
          · rename_i hover hstops
            obtain ⟨front, other, rest, rfl, hfront, hother⟩ := ih hstep
            refine ⟨record.payload :: front, other, rest, ?_, ?_, hother⟩
            · rw [List.map_cons, ← hrecord]
              rfl
            · exact List.forall_mem_cons.mpr ⟨hstops, hfront⟩
      · rw [readServerFlight] at h
        split at h <;> cases h
  · intro hgiven
    obtain ⟨front, payload, rest, rfl, hfront, hover⟩ := hgiven
    induction front generalizing hello transcript with
    | nil => exact (readServerFlight_handshake payload rest hello transcript).trans (if_pos hover)
    | cons other front ih =>
      have hstep := readServerFlight_handshake other
        (front.map handshakeRecord ++ handshakeRecord payload :: rest) hello transcript
      refine Eq.trans hstep ?_
      by_cases hother : Overruns other
      · rw [if_pos hother]
      · rw [if_neg hother, if_neg (hfront other List.mem_cons_self)]
        exact ih fun more hmore => hfront more (List.mem_cons_of_mem _ hmore)

/-- The loop over records ends with this one exactly if it stops there and nowhere before, and
nothing is indexed past its end. -/
theorem readServerFlight_ends_iff {before : List Bytes} {last : Bytes} {hello' : Hello}
    {transcript' : Bytes} :
    readServerFlight ((before ++ [last]).map handshakeRecord ++ rest) hello transcript =
        .ok (hello', transcript', rest) ↔
      (Stops last ∧ ∀ payload ∈ before, ¬ Stops payload) ∧
        (∀ payload ∈ before ++ [last], ¬ Overruns payload) ∧
        learnAll hello (before ++ [last]) = hello' ∧
        transcript ++ (before ++ [last]).flatten = transcript' := by
  constructor
  · intro h
    induction before generalizing hello transcript with
    | nil =>
      have hstep := (readServerFlight_handshake last rest hello transcript).symm.trans h
      split at hstep
      · cases hstep
      · rename_i hover
        split at hstep
        · rename_i hstops
          cases hstep
          refine ⟨⟨hstops, fun _ hmem => absurd hmem List.not_mem_nil⟩, ?_, rfl, ?_⟩
          · exact List.forall_mem_singleton.mpr hover
          · rw [List.nil_append, List.flatten_singleton]
        · exact absurd (readServerFlight_shorter hstep) (Nat.lt_irrefl _)
    | cons payload before ih =>
      have hstep := (readServerFlight_handshake payload
        ((before ++ [last]).map handshakeRecord ++ rest) hello transcript).symm.trans h
      split at hstep
      · cases hstep
      · rename_i hover
        split at hstep
        · have hlength := congrArg List.length (Prod.mk.inj (Prod.mk.inj (Eval.ok.inj hstep)).2).2
          rw [List.length_append, List.length_map, List.length_append,
            List.length_singleton] at hlength
          omega
        · rename_i hstops
          obtain ⟨⟨hlast, hbefore⟩, hovers, hlearn, htranscript⟩ := ih hstep
          refine ⟨⟨hlast, List.forall_mem_cons.mpr ⟨hstops, hbefore⟩⟩,
            List.forall_mem_cons.mpr ⟨hover, hovers⟩, hlearn, ?_⟩
          rw [← htranscript, List.cons_append, List.flatten_cons, List.append_assoc]
  · intro hgiven
    obtain ⟨⟨hlast, hbefore⟩, hovers, rfl, rfl⟩ := hgiven
    have hcalm : ∀ payload ∈ before, ¬ Overruns payload ∧ ¬ Stops payload := by
      intro payload hmem
      exact ⟨hovers payload (List.mem_append_left _ hmem), hbefore payload hmem⟩
    have hover : ¬ Overruns last := hovers last (List.mem_append_right _ List.mem_cons_self)
    rw [List.map_append, List.append_assoc]
    refine (readServerFlight_append hcalm).trans ((readServerFlight_handshake _ _ _ _).trans ?_)
    rw [if_neg hover, if_pos hlast, List.flatten_append, List.flatten_singleton, learnAll,
      learnAll, List.foldl_append, List.append_assoc]
    rfl

end Loop

section Flight

/-- A ServerHello: the version, the random, a session id of any length, the cipher suite, and
whatever follows it. -/
structure ServerHello where
  version : UInt8 × UInt8
  random : Bytes
  sessionId : Bytes
  cipher : UInt8 × UInt8
  tail : Bytes
  random_length : random.length = 32
  sessionId_length : sessionId.length < 256

def ServerHello.body (hello : ServerHello) : Bytes :=
  [hello.version.1, hello.version.2] ++ hello.random ++
    [UInt8.ofNat hello.sessionId.length] ++ hello.sessionId ++
    [hello.cipher.1, hello.cipher.2] ++ hello.tail

/-- The messages of the server: ServerHello, any others, ServerHelloDone. -/
def flightMessages (hello : ServerHello) (others : List (UInt8 × Bytes)) : Bytes :=
  makeHandshake hsServerHello hello.body ++
    others.flatMap (fun message => makeHandshake message.1 message.2) ++
    makeHandshake hsServerHelloDone []

/-- A server flight, cut into the payloads of records in any way; the last one completes
ServerHelloDone. -/
structure ServerFlight where
  hello : ServerHello
  others : List (UInt8 × Bytes)
  before : List Bytes
  last : Bytes
  hello_length : hello.body.length < 2 ^ 24
  others_type : ∀ message ∈ others, message.1 ≠ hsServerHello ∧ message.1 ≠ hsServerHelloDone
  others_length : ∀ message ∈ others, message.2.length < 2 ^ 24
  laid_out : (before ++ [last]).flatten = flightMessages hello others
  completes : last ≠ []

namespace ServerFlight

variable (flight : ServerFlight)

def payloads : List Bytes := flight.before ++ [flight.last]

/-- The last of the records that the random is copied from. -/
def randomRecord : Option Bytes :=
  (flight.payloads.filter fun payload => GivesRandom payload).getLast?

/-- The last of the records that the cipher suite is copied from. -/
def cipherRecord : Option Bytes :=
  (flight.payloads.filter fun payload => GivesCipher payload).getLast?

/-- A layout that the loop can read: the bytes 0e 00 00 00 are in the last record and in none
before it, no record with a ServerHello has 38 bytes, and what the last record with one has
at the offsets of a ServerHello is what the message has. -/
structure Readable : Prop where
  stops : Stops flight.last ∧ ∀ payload ∈ flight.before, ¬ Stops payload
  inside : ∀ payload ∈ flight.payloads, ¬ Overruns payload
  random : (flight.randomRecord.map randomAt).getD (List.replicate 32 0) = flight.hello.random
  cipher : (flight.cipherRecord.map cipherAt).getD (0, 0) = flight.hello.cipher

end ServerFlight

/-- A value that is replaced now and then is what it was replaced by last. -/
theorem foldl_replace {α β : Type} (p : α → Prop) [DecidablePred p] (g : α → β) (items : List α)
    (start : β) :
    items.foldl (fun value item => if p item then g item else value) start =
      ((items.filter fun item => p item).getLast?.map g).getD start := by
  induction items generalizing start with
  | nil => rfl
  | cons item rest ih =>
    rw [List.foldl_cons, ih]
    by_cases hitem : p item
    · rw [if_pos hitem, List.filter_cons, if_pos (decide_eq_true hitem), List.getLast?_cons]
      cases (rest.filter fun item => p item).getLast? <;> rfl
    · rw [if_neg hitem, List.filter_cons, if_neg (by simpa using hitem)]

theorem learnAll_eq (hello : Hello) (payloads : List Bytes) : learnAll hello payloads =
    { serverRandom := ((payloads.filter fun payload => GivesRandom payload).getLast?.map
        randomAt).getD hello.serverRandom
      selectedCipher := ((payloads.filter fun payload => GivesCipher payload).getLast?.map
        cipherAt).getD hello.selectedCipher } := by
  rw [← foldl_replace, ← foldl_replace]
  unfold learnAll
  induction payloads generalizing hello with
  | nil => rfl
  | cons payload rest ih => exact ih (learn hello payload)

/-- The loop reads a flight as its messages say exactly if the layout is readable; and over
any records it is never indexed past the end of one exactly if it reaches none of 38 bytes
with a ServerHello in it. -/
theorem server_flight_iff (flight : ServerFlight) (transcript : Bytes) (after : List Record)
    (records : List Record) (hello : Hello) :
    (readServerFlight (flight.payloads.map handshakeRecord ++ after) {} transcript =
        .ok (⟨flight.hello.random, flight.hello.cipher⟩,
          transcript ++ flightMessages flight.hello flight.others, after) ↔ flight.Readable) ∧
      (readServerFlight records hello transcript ≠ .panic ↔
        ∀ (front : List Bytes) (payload : Bytes) (rest : List Record),
          records = front.map handshakeRecord ++ handshakeRecord payload :: rest →
            (∀ other ∈ front, ¬ Stops other) → ¬ Overruns payload) := by
  constructor
  · refine Iff.trans readServerFlight_ends_iff ?_
    rw [learnAll_eq, flight.laid_out]
    constructor
    · intro h
      obtain ⟨hstops, hinside, hlearnt, -⟩ := h
      obtain ⟨hrandom, hcipher⟩ := Hello.mk.inj hlearnt
      exact ⟨hstops, hinside, hrandom, hcipher⟩
    · intro h
      obtain ⟨hstops, hinside, hrandom, hcipher⟩ := h
      exact ⟨hstops, hinside, Hello.mk.injEq .. ▸ ⟨hrandom, hcipher⟩, rfl⟩
  · rw [ne_eq, readServerFlight_panic_iff]
    constructor
    · intro hnone front payload rest hrecords hfront hover
      exact hnone ⟨front, payload, rest, hrecords, hfront, hover⟩
    · intro hall h
      obtain ⟨front, payload, rest, hrecords, hfront, hover⟩ := h
      exact hall front payload rest hrecords hfront hover

theorem getD_drop (bytes : Bytes) (n k : ℕ) :
    (bytes.drop n).getD k 0 = bytes.getD (n + k) 0 := by
  rw [List.getD_eq_getElem?_getD, List.getElem?_drop, List.getD_eq_getElem?_getD]

namespace ServerHello

variable (hello : ServerHello) (more : Bytes)

/-- The bytes of a record that begins with the message. -/
theorem front_eq : makeHandshake hsServerHello hello.body ++ more =
    [hsServerHello, UInt8.ofNat (hello.body.length / 65536), UInt8.ofNat (hello.body.length / 256),
      UInt8.ofNat hello.body.length, hello.version.1, hello.version.2] ++ (hello.random ++
        (UInt8.ofNat hello.sessionId.length :: (hello.sessionId ++
          (hello.cipher.1 :: hello.cipher.2 :: (hello.tail ++ more))))) := by
  simp only [makeHandshake, body, be24, List.cons_append, List.nil_append, List.append_assoc]

theorem hasHello_front (hlength : hello.body.length < 2 ^ 24) :
    hasHello (makeHandshake hsServerHello hello.body ++ more) := by
  unfold hasHello parseHandshakeMessages
  have hbytes : makeHandshake hsServerHello hello.body ++ more = hsServerHello ::
      UInt8.ofNat (hello.body.length / 65536) :: UInt8.ofNat (hello.body.length / 256) ::
        UInt8.ofNat hello.body.length :: (hello.body ++ more) := rfl
  have hmessage : (UInt8.ofNat (hello.body.length / 65536)).toNat * 65536 +
      (UInt8.ofNat (hello.body.length / 256)).toNat * 256 +
        (UInt8.ofNat hello.body.length).toNat = hello.body.length := by
    simp only [UInt8.toNat_ofNat']
    omega
  have hroom : ¬ (hello.body ++ more).length < hello.body.length := by
    rw [List.length_append]
    omega
  rw [hbytes, List.length_cons, parseMessages, hmessage, if_neg hroom, List.any_cons,
    beq_self_eq_true, Bool.true_or]

theorem length_front : 41 + hello.sessionId.length ≤
    (makeHandshake hsServerHello hello.body ++ more).length := by
  rw [front_eq]
  simp only [List.length_append, List.length_cons, List.length_nil, hello.random_length]
  omega

theorem randomAt_front : randomAt (makeHandshake hsServerHello hello.body ++ more) =
    hello.random := by
  rw [front_eq]
  exact List.take_left' hello.random_length

theorem drop_front : (makeHandshake hsServerHello hello.body ++ more).drop 38 =
    UInt8.ofNat hello.sessionId.length :: (hello.sessionId ++
      (hello.cipher.1 :: hello.cipher.2 :: (hello.tail ++ more))) := by
  rw [front_eq, ← List.append_assoc]
  apply List.drop_left'
  rw [List.length_append, hello.random_length]
  rfl

theorem sidLen_front :
    ((makeHandshake hsServerHello hello.body ++ more).getD 38 0).toNat = hello.sessionId.length := by
  have hbyte := getD_drop (makeHandshake hsServerHello hello.body ++ more) 38 0
  have hsmall := hello.sessionId_length
  rw [drop_front, List.getD_cons_zero] at hbyte
  rw [← hbyte, UInt8.toNat_ofNat']
  omega

theorem cipherAt_front : cipherAt (makeHandshake hsServerHello hello.body ++ more) =
    hello.cipher := by
  have hdrop : (makeHandshake hsServerHello hello.body ++ more).drop
      (39 + hello.sessionId.length) = hello.cipher.1 :: hello.cipher.2 :: (hello.tail ++ more) := by
    have hsplit : 39 + hello.sessionId.length = 38 + (hello.sessionId.length + 1) := by omega
    rw [hsplit, ← List.drop_drop, drop_front, List.drop_succ_cons, List.drop_left]
  have hfirst := getD_drop (makeHandshake hsServerHello hello.body ++ more)
    (39 + hello.sessionId.length) 0
  have hsecond := getD_drop (makeHandshake hsServerHello hello.body ++ more)
    (39 + hello.sessionId.length) 1
  rw [hdrop] at hfirst hsecond
  have hnext : 40 + hello.sessionId.length = 39 + hello.sessionId.length + 1 := by omega
  rw [cipherAt, sidLen_front, hnext, ← hsecond]
  exact congrArg₂ Prod.mk hfirst.symm rfl

end ServerHello

/-- The layouts of most servers: ServerHello is whole at the front of the first record, no other
record has a message of its type, and the bytes of ServerHelloDone are in the last one only. -/
theorem ServerFlight.readable_of_first (flight : ServerFlight) {more : Bytes} {others : List Bytes}
    (hfirst : flight.payloads = (makeHandshake hsServerHello flight.hello.body ++ more) :: others)
    (hothers : ∀ payload ∈ others, ¬ hasHello payload)
    (hstops : Stops flight.last ∧ ∀ payload ∈ flight.before, ¬ Stops payload) :
    flight.Readable := by
  have hmessage := flight.hello.hasHello_front more flight.hello_length
  have hlength := flight.hello.length_front more
  have hsid := flight.hello.sidLen_front more
  have hrandom := flight.hello.randomAt_front more
  have hcipher := flight.hello.cipherAt_front more
  generalize makeHandshake hsServerHello flight.hello.body ++ more = first at *
  have hgives : GivesRandom first := ⟨hmessage, by omega⟩
  have hgives' : GivesCipher first := ⟨hgives, by omega⟩
  have hnone : ∀ payload ∈ others, ¬ GivesRandom payload := fun payload hmem hgives =>
    hothers payload hmem hgives.1
  have hrandomRecord : flight.randomRecord = some first := by
    unfold randomRecord
    rw [hfirst, List.filter_cons, if_pos (decide_eq_true hgives), List.filter_eq_nil_iff.mpr]
    · rfl
    · exact fun payload hmem => by simpa using hnone payload hmem
  have hcipherRecord : flight.cipherRecord = some first := by
    unfold cipherRecord
    rw [hfirst, List.filter_cons, if_pos (decide_eq_true hgives'), List.filter_eq_nil_iff.mpr]
    · rfl
    · exact fun payload hmem => by simpa using fun h : GivesCipher payload => hnone payload hmem h.1
  refine ⟨hstops, ?_, ?_, ?_⟩
  · rw [hfirst]
    refine List.forall_mem_cons.mpr ⟨fun hover => ?_, ?_⟩
    · have hexact := hover.2
      omega
    · exact fun payload hmem hover => hothers payload hmem hover.1
  · rw [hrandomRecord]
    exact hrandom
  · rw [hcipherRecord]
    exact hcipher

/-- A flight whose ServerHelloDone is cut in the middle. -/
def splitFlight : ServerFlight where
  hello := ⟨(3, 3), List.replicate 32 2, [], (0, 0x8C), [0], rfl, by decide⟩
  others := []
  before := [makeHandshake hsServerHello
    ([3, 3] ++ List.replicate 32 2 ++ [0, 0, 0x8C, 0]) ++ [hsServerHelloDone, 0]]
  last := [0, 0]
  hello_length := by decide
  others_type := fun _ hmem => absurd hmem List.not_mem_nil
  others_length := fun _ hmem => absurd hmem List.not_mem_nil
  laid_out := by decide
  completes := List.cons_ne_nil _ _

/-- The loop reads on behind the split message, and a record with a ServerHello that ends
behind the random is indexed past its end. -/
theorem split_flight_not_read :
    readServerFlight (splitFlight.payloads.map handshakeRecord) {} [] ≠
        .ok (⟨splitFlight.hello.random, splitFlight.hello.cipher⟩,
          flightMessages splitFlight.hello splitFlight.others, []) ∧
      readServerFlight
        [⟨ctHandshake, makeHandshake hsServerHello ([3, 3] ++ List.replicate 32 5)⟩] {} [] =
          .panic := by
  constructor
  · have hsocket : readServerFlight (splitFlight.payloads.map handshakeRecord) {} [] =
        .err .socket := by decide
    rw [hsocket]
    exact nofun
  · decide

end Flight

end XitForge.TlsPsk
