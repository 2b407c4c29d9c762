import XitForge.TlsPsk.WriteRuns

/-!
`tls_psk_handshake`. The peer is the list of records it sends; a read past the
last one fails. The five writes of the client succeed or fail as `writes` says.
The server's Finished is decrypted and authenticated as a record, but its
verify_data is only compared and logged: a mismatch ends the loop like a match.
-/
namespace XitForge.TlsPsk

open RustEval

structure Record where
  ct : UInt8
  payload : Bytes
  deriving DecidableEq, Repr

/-- What the handshake draws at random and what its peer and socket do. -/
structure Peer where
  clientRandom : Bytes
  finishedIv : Bytes
  writes : ℕ → Bool
  records : List Record

abbrev Handshake := Eval IdeviceError

def readRecord : List Record → Handshake (Record × List Record)
  | [] => .err .socket
  | record :: rest => .ok (record, rest)

/-- `stream.write_all`: the `n`-th write of the handshake. -/
def writeAll (peer : Peer) (n : ℕ) : Handshake Unit :=
  if peer.writes n then .ok () else .err .socket

/-- A handshake message: its type and all its bytes, header included. -/
abbrev Message := UInt8 × Bytes

/-- Messages of one record payload; `fuel` is the length of what is left. -/
def parseMessages : ℕ → Bytes → List Message
  | fuel + 1, msgType :: a :: b :: c :: rest =>
    let msgLen := a.toNat * 65536 + b.toNat * 256 + c.toNat
    if rest.length < msgLen then []
    else (msgType, msgType :: a :: b :: c :: rest.take msgLen) ::
      parseMessages fuel (rest.drop msgLen)
  | _, _ => []

def parseHandshakeMessages (data : Bytes) : List Message := parseMessages data.length data

/-- `windows(4).any(..)` of the ServerHelloDone check. -/
def containsHelloDone : Bytes → Bool
  | a :: b :: c :: d :: rest =>
    (a == hsServerHelloDone && b == 0 && c == 0 && d == 0) || containsHelloDone (b :: c :: d :: rest)
  | _ => false

structure Hello where
  serverRandom : Bytes := List.replicate 32 0
  selectedCipher : UInt8 × UInt8 := (0, 0)
  deriving DecidableEq, Repr

/-- The ServerHello branch reads the record payload, not the message: the byte
after the random is indexed without a check and panics when it is not there. -/
def readServerHello (payload : Bytes) (hello : Hello) : Handshake Hello :=
  if 4 + 2 + 32 ≤ payload.length then
    match payload[38]? with
    | none => .panic
    | some sidLen =>
      let hello := { hello with serverRandom := (payload.drop 6).take 32 }
      if 39 + sidLen.toNat + 2 ≤ payload.length then
        match payload.drop (39 + sidLen.toNat) with
        | first :: second :: _ => .ok { hello with selectedCipher := (first, second) }
        | _ => .panic
      else .ok hello
  else .ok hello

def readMessages (payload : Bytes) : List Message → Hello → Handshake Hello
  | [], hello => .ok hello
  | (msgType, _) :: rest, hello => do
    let hello ← if msgType = hsServerHello then readServerHello payload hello else pure hello
    readMessages payload rest hello

def alertName : UInt8 → String
  | 0 => "close_notify"
  | 10 => "unexpected_message"
  | 20 => "bad_record_mac"
  | 40 => "handshake_failure"
  | 47 => "illegal_parameter"
  | 70 => "protocol_version"
  | 71 => "insufficient_security"
  | 80 => "internal_error"
  | _ => "unknown"

def alertError (payload : Bytes) : IdeviceError :=
  let level := payload.headD 0
  let desc := payload.getD 1 0
  .internalError s!"TLS Alert: level={level.toNat} desc={desc.toNat} ({alertName desc})"

def lateAlertError (payload : Bytes) : IdeviceError :=
  let level := payload.headD 0
  let desc := payload.getD 1 0
  .internalError s!"TLS Alert after Finished: level={level.toNat} desc={desc.toNat}"

/-- The first loop: records until one holds a ServerHelloDone. Returns what was
learnt, the transcript and the records not read yet. -/
def readServerFlight : List Record → Hello → (transcript : Bytes) →
    Handshake (Hello × Bytes × List Record)
  | [], _, _ => .err .socket
  | record :: rest, hello, transcript => do
    if record.ct = ctAlert then .err (alertError record.payload)
    else if record.ct ≠ ctHandshake then
      .err (.internalError s!"Expected handshake, got ct={record.ct.toNat}")
    else
      let transcript := transcript ++ record.payload
      let hello ← readMessages record.payload (parseHandshakeMessages record.payload) hello
      if record.payload.contains hsServerHelloDone && decide (4 ≤ record.payload.length) &&
          containsHelloDone record.payload then
        pure (hello, transcript, rest)
      else readServerFlight rest hello transcript

/-- What ended the second loop: the plaintext taken for the server's Finished,
the sequence number it was authenticated under, and how the comparison went. -/
structure ServerFinished where
  plaintext : Bytes
  body : Bytes
  seq : UInt64
  verified : Bool
  deriving DecidableEq, Repr

/-- The second loop. `transcript` is not extended here. -/
def readServerFinished (P : Primitives) (keys : KeyBlock) (master transcript : Bytes)
    (suite : CipherSuite) : List Record → (serverSeq : UInt64) → Handshake ServerFinished
  | [], _ => .err .socket
  | record :: rest, serverSeq =>
    if record.ct = ctAlert then .err (lateAlertError record.payload)
    else if record.ct = ctChangeCipherSpec then
      readServerFinished P keys master transcript suite rest serverSeq
    else if record.ct = ctApplicationData ∨ record.ct = ctHandshake then do
      let plaintext ← decryptRecord P keys true serverSeq ctHandshake record.payload
      if 4 ≤ plaintext.length ∧ plaintext.head? = some hsFinished then
        let serverVd := finishedVerifyData P master (label "server finished") transcript suite
        -- both outcomes of the comparison are logged and leave the loop
        pure ⟨plaintext, record.payload, serverSeq, plaintext.drop 4 == serverVd⟩
      else readServerFinished P keys master transcript suite rest (serverSeq + 1)
    else readServerFinished P keys master transcript suite rest serverSeq

def clientHello (clientRandom : Bytes) : Bytes :=
  makeHandshake hsClientHello
    ([0x03, 0x03] ++ clientRandom ++ [0x00] ++ be16 (pskCipherSuites.length * 2) ++
      pskCipherSuites.flatMap (fun suite => [suite.1, suite.2]) ++ [0x01, 0x00])

def clientKeyExchange : Bytes := makeHandshake hsClientKeyExchange [0x00, 0x00]

def clientFinished (P : Primitives) (master transcript : Bytes) (suite : CipherSuite) : Bytes :=
  makeHandshake hsFinished
    (finishedVerifyData P master (label "client finished") transcript suite)

/-- Where the handshake stands when it starts to wait for the server's Finished. -/
structure Flight where
  suite : CipherSuite
  master : Bytes
  keys : KeyBlock
  transcript : Bytes
  sent : Bytes
  rest : List Record
  deriving DecidableEq, Repr

/-- Steps 1 to 6: hello exchange, key derivation and the client's Finished. The
transcript holds all handshake messages sent and received so far. -/
def sendClientFlight (P : Primitives) (peer : Peer) (psk : Bytes) : Handshake Flight := do
  let ch := clientHello peer.clientRandom
  writeAll peer 0
  let (hello, transcript, rest) ← readServerFlight peer.records {} ch
  match CipherSuite.fromBytes hello.selectedCipher with
  | none => .err (.internalError "Server selected unsupported cipher")
  | some suite =>
    let master := deriveMasterSecret P psk peer.clientRandom hello.serverRandom suite
    let keys := deriveKeyBlock P master peer.clientRandom hello.serverRandom suite
    let transcript := transcript ++ clientKeyExchange
    writeAll peer 1
    writeAll peer 2
    let fin := clientFinished P master transcript suite
    let encFin := encryptRecord P keys peer.finishedIv 0 ctHandshake fin
    writeAll peer 3
    writeAll peer 4
    pure
      { suite := suite
        master := master
        keys := keys
        transcript := transcript ++ fin
        sent := makeRecord ctHandshake ch ++ makeRecord ctHandshake clientKeyExchange ++
          makeRecord ctChangeCipherSpec [0x01] ++ makeRecord ctHandshake encFin
        rest := rest }

def tlsPskHandshake (P : Primitives) (peer : Peer) (psk : Bytes) : Handshake TlsPskStream := do
  let flight ← sendClientFlight P peer psk
  let finished ← readServerFinished P flight.keys flight.master flight.transcript flight.suite
    flight.rest 0
  pure
    { inner := ⟨flight.sent⟩
      keys := flight.keys
      writeSeq := 1
      readSeq := finished.seq + 1 }

/-- A record the second loop accepts as a Finished under this sequence number. -/
structure AuthenticatedFinished (P : Primitives) (flight : Flight) (seq : UInt64)
    (record : Record) (plaintext : Bytes) : Prop where
  type : record.ct = ctApplicationData ∨ record.ct = ctHandshake
  decrypted : decryptRecord P flight.keys true seq ctHandshake record.payload = .ok plaintext
  header : 4 ≤ plaintext.length
  finished : plaintext.head? = some hsFinished

/-- The verify_data the client expects of the server for its own transcript. -/
def Flight.serverVerifyData (P : Primitives) (flight : Flight) : Bytes :=
  finishedVerifyData P flight.master (label "server finished") flight.transcript flight.suite

/-- One record read as protected advances the sequence number by one, any other
leaves it: so the number is the count of protected records read before. -/
def protectedBefore (before : List Record) : ℕ :=
  before.countP fun record => record.ct == ctApplicationData || record.ct == ctHandshake

theorem readServerFinished_ok {P : Primitives} {flight : Flight} {records : List Record}
    {seq : UInt64} {finished : ServerFinished}
    (h : readServerFinished P flight.keys flight.master flight.transcript flight.suite records seq =
      .ok finished) :
    ∃ before record after, records = before ++ record :: after ∧
      finished.seq = seq + UInt64.ofNat (protectedBefore before) ∧
      AuthenticatedFinished P flight finished.seq record finished.plaintext ∧
      finished.verified = (finished.plaintext.drop 4 == flight.serverVerifyData P) := by
  induction records generalizing seq with
  | nil => simp [readServerFinished] at h
  | cons record rest ih =>
    simp only [readServerFinished] at h
    split at h
    · cases h
    · split at h
      · rename_i hccs
        obtain ⟨before, found, after, hsplit, hseq, hfound⟩ := ih h
        refine ⟨record :: before, found, after, by simp [hsplit], ?_, hfound⟩
        simpa [protectedBefore, hccs, ctChangeCipherSpec, ctApplicationData, ctHandshake] using hseq
      · split at h
        · rename_i htype
          obtain ⟨plaintext, hdecrypted, hnext⟩ := Eval.bind_eq_ok.mp h
          split at hnext
          · rename_i hfin
            cases hnext
            exact ⟨[], record, rest, rfl, by simp [protectedBefore],
              ⟨htype, hdecrypted, hfin.1, hfin.2⟩, rfl⟩
          · obtain ⟨before, found, after, hsplit, hseq, hfound⟩ := ih hnext
            refine ⟨record :: before, found, after, by simp [hsplit], ?_, hfound⟩
            have hcount : protectedBefore (record :: before) = protectedBefore before + 1 := by
              rcases htype with htype | htype <;> simp [protectedBefore, htype]
            rw [hseq, hcount, UInt64.ofNat_add, UInt64.add_assoc]
            congr 1
            exact UInt64.add_comm ..
        · rename_i htype
          obtain ⟨before, found, after, hsplit, hseq, hfound⟩ := ih h
          refine ⟨record :: before, found, after, by simp [hsplit], ?_, hfound⟩
          have hcount : protectedBefore (record :: before) = protectedBefore before := by
            simp only [not_or] at htype
            simp [protectedBefore, htype.1, htype.2]
          rw [hseq, hcount]

/-- A handshake that returns Ok has read, after its own Finished went out, a
record that decrypts and authenticates under the server keys at the number of
protected records read before it, to a Finished message. The comparison of its
verify_data with the client's transcript decides nothing. -/
theorem handshake_ok_authenticated (P : Primitives) (peer : Peer) (psk : Bytes)
    (stream : TlsPskStream) (h : tlsPskHandshake P peer psk = .ok stream) :
    ∃ flight before record after plaintext,
      sendClientFlight P peer psk = .ok flight ∧
      flight.rest = before ++ record :: after ∧
      AuthenticatedFinished P flight (UInt64.ofNat (protectedBefore before)) record plaintext ∧
      stream.keys = flight.keys ∧ stream.writeSeq = 1 ∧
      stream.readSeq = UInt64.ofNat (protectedBefore before) + 1 := by
  obtain ⟨flight, hflight, hnext⟩ := Eval.bind_eq_ok.mp h
  obtain ⟨finished, hfinished, hstream⟩ := Eval.bind_eq_ok.mp hnext
  obtain ⟨before, record, after, hsplit, hseq, hfound, -⟩ := readServerFinished_ok hfinished
  rw [UInt64.zero_add] at hseq
  rw [hseq] at hfound
  cases hstream
  exact ⟨flight, before, record, after, finished.plaintext, hflight, hsplit, hfound, rfl, rfl,
    by rw [hseq]⟩

/-- A server that answers with the AES-128 suite and then with a Finished whose
verify_data is not the expected one. -/
def lenientPeer : Peer where
  clientRandom := List.replicate 32 1
  finishedIv := List.replicate 16 0
  writes _ := true
  records :=
    [⟨ctHandshake, makeHandshake hsServerHello
        ([0x03, 0x03] ++ List.replicate 32 2 ++ [0x00, 0x00, 0x8C, 0x00])⟩,
      ⟨ctHandshake, makeHandshake hsServerHelloDone []⟩,
      ⟨ctChangeCipherSpec, [0x01]⟩,
      ⟨ctHandshake, List.replicate 16 0 ++ makeHandshake hsFinished (List.replicate 12 9) ++
        List.replicate 20 0 ++ List.replicate 12 11⟩]

theorem handshake_ok_authenticated_lenient :
    ∃ stream, tlsPskHandshake plainPrimitives lenientPeer [5] = .ok stream ∧
    ∃ flight before record after plaintext,
      sendClientFlight plainPrimitives lenientPeer [5] = .ok flight ∧
      flight.rest = before ++ record :: after ∧
      AuthenticatedFinished plainPrimitives flight (UInt64.ofNat (protectedBefore before)) record
        plaintext ∧
      stream.keys = flight.keys ∧ stream.writeSeq = 1 ∧
      stream.readSeq = UInt64.ofNat (protectedBefore before) + 1 := by
  have hok : ∃ stream, tlsPskHandshake plainPrimitives lenientPeer [5] = .ok stream := ⟨_, rfl⟩
  obtain ⟨stream, hstream⟩ := hok
  exact ⟨stream, hstream, handshake_ok_authenticated plainPrimitives lenientPeer [5] stream hstream⟩

/-- A constant MAC is accepted under every sequence number or under none. -/
theorem decryptRecord_plainPrimitives (keys : KeyBlock) (isServer : Bool) (seq : UInt64)
    (ct : UInt8) (encrypted : Bytes) :
    decryptRecord plainPrimitives keys isServer seq ct encrypted =
      decryptRecord plainPrimitives keys isServer 0 ct encrypted := by
  have hmac : ∀ macKey data suite, computeMac plainPrimitives macKey seq ct data suite =
      computeMac plainPrimitives macKey 0 ct data suite := by
    intro macKey data suite
    cases suite <;> rfl
  simp only [decryptRecord, hmac]

/-- The handshake returns Ok although no record of the peer carries, under any
sequence number, the verify_data of the client's transcript. -/
theorem handshake_ok_unverified :
    (∃ stream, tlsPskHandshake plainPrimitives lenientPeer [5] = .ok stream) ∧
      ∃ flight, sendClientFlight plainPrimitives lenientPeer [5] = .ok flight ∧
        ∀ record ∈ lenientPeer.records, ∀ seq plaintext,
          decryptRecord plainPrimitives flight.keys true seq ctHandshake record.payload =
            .ok plaintext → plaintext.drop 4 ≠ flight.serverVerifyData plainPrimitives := by
  refine ⟨⟨_, rfl⟩, _, rfl, ?_⟩
  intro record hrecord seq plaintext hdecrypted
  rw [decryptRecord_plainPrimitives] at hdecrypted
  simp only [lenientPeer, List.mem_cons, List.not_mem_nil, or_false] at hrecord
  rcases hrecord with rfl | rfl | rfl | rfl
  · cases hdecrypted
  · cases hdecrypted
  · cases hdecrypted
  · cases hdecrypted
    decide

end XitForge.TlsPsk
