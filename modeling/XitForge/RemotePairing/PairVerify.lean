import XitForge.RemotePairing.PairingFile

/-!
`RemotePairingClient::connect`: pair-verify, and pair-setup if it does not succeed. Whatever
the device answers, a client that returns has the main ciphers of the key that it agreed on,
the pairing file changes only behind a proof of the PIN, and the messages are counted without
a gap. Pair-verify itself asks for no proof: who has any X25519 key passes it.
-/
namespace XitForge.RemotePairing

open Xpc (PlistValue asBytes)
open Program

section Model

/-- What `validate_pairing` adds to the errors of pairing. -/
inductive VerifyError where
  | idevice (error : IdeviceError)
  | notEnoughBytes (expected got : ℕ)
  deriving DecidableEq, Repr

abbrev Verifying := Prog Session VerifyError

def lift {α : Type} (m : Pairing α) : Verifying α := fun session =>
  match m session with
  | (.done value, session) => (.done value, session)
  | (.failed error, session) => (.failed (.idevice error), session)
  | (.stopped, session) => (.stopped, session)

/-- `x25519_dalek`. -/
structure X25519 where
  publicKey : Vector UInt8 32 → Vector UInt8 32
  diffieHellman : Vector UInt8 32 → Vector UInt8 32 → Vector UInt8 32

/-- `WIRE_PROTOCOL_VERSION`. -/
def wireProtocolVersion : ℤ := 19

def attemptPairVerify : Pairing PlistValue := do
  sendPlain (nested ["request", "_0", "handshake", "_0"] (.dictionary [
    ("hostOptions", .dictionary [("attemptPairVerify", .boolean true)]),
    ("wireProtocolVersion", .integer wireProtocolVersion)]))
  let response ← recvPlain
  match getPath ["response", "_1", "handshake", "_0"] response with
  | some response => return response
  | none => Prog.fail (.unexpectedResponse "missing handshake response in attemptPairVerify")

def sendPairVerifiedFailed : Pairing Unit :=
  sendPlain (nested ["event", "_0", "pairVerifyFailed"] (.dictionary []))

variable (P : Provider) (C : Crypto) (X : X25519) (client : RemotePairingClient)
  (xPrivate : Vector UInt8 32)

/-- A request of pair-verify. -/
def verifyData (tlv : Bytes) (startNewSession : Bool) : PlistValue :=
  .dictionary [
    ("data", P.serializeBytes tlv),
    ("kind", .string "verifyManualPairing"),
    ("startNewSession", .boolean startNewSession)]

/-- The entries of a response, unless there is an `ErrorResponse`, which is answered. -/
def receiveVerified (message : String) : Verifying (List TLV8Entry) := do
  let data ← lift receivePairingData
  let entries ← lift (ofExcept (entriesOf P data message))
  if containsComponent entries .errorResponse then do
    lift sendPairVerifiedFailed
    Prog.fail (.idevice (.remotePairing .pairVerifyFailed))
  else return entries

def devicePublicKey (entries : List TLV8Entry) : Verifying (Vector UInt8 32) :=
  match entries.find? fun entry => entry.tlvType == .publicKey with
  | none => Prog.fail (.idevice (.unexpectedResponse "missing public key in pair-verify TLV data"))
  | some entry =>
    if h : entry.data.length = 32 then return ⟨entry.data.toArray, h⟩
    else Prog.fail (.notEnoughBytes 32 entry.data.length)

def verifyEncryptionKey (sharedSecret : Bytes) : Vector UInt8 32 :=
  C.hkdf (some "Pair-Verify-Encrypt-Salt") sharedSecret "Pair-Verify-Encrypt-Info"

def msg03 : String := "\x00\x00\x00\x00PV-Msg03"

/-- The client's proof of its identity. -/
def verifyTlv (pairingFile : RpPairingFile) (devicePublicKey : Vector UInt8 32) : Bytes :=
  let signbuf := (X.publicKey xPrivate).toList ++ asBytes pairingFile.identifier ++
    devicePublicKey.toList
  serializeTlv8 [
    ⟨.identifier, asBytes pairingFile.identifier⟩,
    ⟨.signature, (C.sign pairingFile.ePrivateKey signbuf).toList⟩]

/-- `derive_main_ciphers` of the encryption key. -/
def deriveMainCiphers (session : Session) : Session :=
  { session with
    clientCipher := C.hkdf none session.encryptionKey "ClientEncrypt-main"
    serverCipher := C.hkdf none session.encryptionKey "ServerEncrypt-main" }

def validatePairing : Verifying Unit := do
  let tlv := serializeTlv8 [⟨.state, [0x01]⟩, ⟨.publicKey, (X.publicKey xPrivate).toList⟩]
  lift (sendPairingData (verifyData P tlv true))
  let entries ← receiveVerified P "failed to deserialize pair-verify response bytes"
  let devicePublicKey ← devicePublicKey entries
  let sharedSecret := (X.diffieHellman xPrivate devicePublicKey).toList
  Prog.modify fun session => { session with encryptionKey := sharedSecret }
  let session ← Prog.get
  match C.encrypt (verifyEncryptionKey C sharedSecret) msg03
    (verifyTlv C X xPrivate session.pairingFile devicePublicKey) with
  | none => Prog.stop
  | some ciphertext =>
    let msg := serializeTlv8 [⟨.state, [0x03]⟩, ⟨.encryptedData, ciphertext⟩]
    lift (sendPairingData (verifyData P msg false))
    let _ ← receiveVerified P "failed to deserialize pair-verify signature response bytes"
    Prog.modify (deriveMainCiphers C)

/-- A panic in the middle is not an error that pairing follows. -/
def connect : Verifying Unit := do
  let _ ← lift attemptPairVerify
  match ← Prog.attempt (validatePairing P C X xPrivate) with
  | .ok _ => return ()
  | .error _ => lift (client.pair P C)

end Model

section Talking

/-- The messages of a session carry its numbers, one after the other. -/
structure Counts (session session' : Session) : Prop where
  numbered : ∃ said : List PlistValue, session'.sequenceNumber = session.sequenceNumber + said.length ∧
    session'.inner.sent = session.inner.sent ++ said.zipIdx session.sequenceNumber
  received : session'.inner.receives <:+ session.inner.receives

/-- A conversation: at most the encryption key changes beside what is sent. -/
structure Speaks (session session' : Session) : Prop extends Counts session session' where
  clientCipher : session'.clientCipher = session.clientCipher
  serverCipher : session'.serverCipher = session.serverCipher
  pairingFile : session'.pairingFile = session.pairingFile
  pairedPeerDevice : session'.pairedPeerDevice = session.pairedPeerDevice

/-- The encryption key stays, too. -/
structure Talks (session session' : Session) : Prop extends Speaks session session' where
  encryptionKey : session'.encryptionKey = session.encryptionKey

instance : IsPreorder Session Counts where
  refl _ := ⟨⟨[], rfl, (List.append_nil _).symm⟩, List.suffix_rfl⟩
  trans first second third h h' := by
    obtain ⟨said, hcount, hsent⟩ := h.numbered
    obtain ⟨said', hcount', hsent'⟩ := h'.numbered
    refine ⟨⟨said ++ said', ?_, ?_⟩, h'.received.trans h.received⟩
    · rw [hcount', hcount, List.length_append, Nat.add_assoc]
    · rw [hsent', hsent, hcount, List.zipIdx_append, List.append_assoc]

instance : IsPreorder Session Speaks where
  refl session := ⟨refl_of Counts session, rfl, rfl, rfl, rfl⟩
  trans _ _ _ h h' := ⟨trans_of Counts h.toCounts h'.toCounts, h'.clientCipher.trans h.clientCipher,
    h'.serverCipher.trans h.serverCipher, h'.pairingFile.trans h.pairingFile,
    h'.pairedPeerDevice.trans h.pairedPeerDevice⟩

instance : IsPreorder Session Talks where
  refl session := ⟨refl_of Speaks session, rfl⟩
  trans _ _ _ h h' := ⟨trans_of Speaks h.toSpeaks h'.toSpeaks, h'.encryptionKey.trans h.encryptionKey⟩

instance sendPlain_talks (value : PlistValue) : Keeps Talks (sendPlain value) := by
  constructor
  intro session
  unfold sendPlain
  split
  · exact refl_of Talks session
  · exact ⟨⟨⟨⟨[], rfl, (List.append_nil _).symm⟩, List.suffix_rfl⟩, rfl, rfl, rfl, rfl⟩, rfl⟩
  · exact ⟨⟨⟨⟨[value], rfl, rfl⟩, List.suffix_rfl⟩, rfl, rfl, rfl, rfl⟩, rfl⟩

instance recvPlain_talks : Keeps Talks recvPlain := by
  constructor
  intro session
  have htalks : ∀ receives, receives <:+ session.inner.receives →
      Talks session { session with inner := { session.inner with receives := receives } } :=
    fun receives h => ⟨⟨⟨⟨[], rfl, (List.append_nil _).symm⟩, h⟩, rfl, rfl, rfl, rfl⟩, rfl⟩
  unfold recvPlain
  split
  · exact refl_of Talks session
  · rename_i heq
    exact htalks _ (heq ▸ List.suffix_cons _ _)
  · rename_i heq
    exact htalks _ (heq ▸ List.suffix_cons _ _)

instance ofOutcome_talks {α : Type} (outcome : Outcome IdeviceError α) :
    Keeps Talks (ofOutcome outcome) := ⟨fun session => refl_of Talks session⟩

instance ofExcept_talks {α : Type} (result : Except IdeviceError α) : Keeps Talks (ofExcept result) := by
  constructor
  intro session
  cases result <;> exact refl_of Talks session

instance sendPairingData_talks (pairingData : PlistValue) :
    Keeps Talks (sendPairingData pairingData) := sendPlain_talks _

instance receivePairingData_talks : Keeps Talks receivePairingData :=
  Keeps.bind inferInstance fun _ => inferInstance

instance lift_keeps {R : Session → Session → Prop} {α : Type} {m : Pairing α} [hm : Keeps R m] :
    Keeps R (lift m) := by
  constructor
  intro session
  have hkeeps := hm.keeps session
  unfold lift
  rcases heq : m session with ⟨outcome, session'⟩
  rw [heq] at hkeeps
  cases outcome <;> exact hkeeps

theorem lift_triple {α : Type} {I C : Session → Prop} {m : Pairing α} {Q : α → Session → Prop}
    {F : Session → Prop} (h : Triple I m Q (fun _ => F) C) : Triple I (lift m) Q (fun _ => F) C := by
  intro session hsession
  have hends := h session hsession
  unfold lift
  rcases heq : m session with ⟨outcome, session'⟩
  rw [heq] at hends
  cases outcome <;> exact hends

instance attemptPairVerify_talks : Keeps Talks attemptPairVerify := by
  refine Keeps.bind inferInstance fun _ => Keeps.bind inferInstance fun response => ?_
  split <;> infer_instance

instance receiveVerified_talks (P : Provider) (message : String) :
    Keeps Talks (receiveVerified P message) := by
  refine Keeps.bind inferInstance fun data => Keeps.bind inferInstance fun entries => ?_
  have hfailed : Keeps Talks sendPairVerifiedFailed := sendPlain_talks _
  split
  · exact Keeps.bind inferInstance fun _ => inferInstance
  · infer_instance

instance devicePublicKey_talks (entries : List TLV8Entry) : Keeps Talks (devicePublicKey entries) := by
  unfold devicePublicKey
  split
  · infer_instance
  · split <;> infer_instance

variable (P : Provider) (C : Crypto) (client : RemotePairingClient)

instance requestPairConsent_talks : Keeps Talks (client.requestPairConsent P) := by
  refine Keeps.bind inferInstance fun _ => Keeps.bind inferInstance fun response =>
    Keeps.bind inferInstance fun consent => Keeps.bind ?_ fun _ => ?_
  · cases consent <;> infer_instance
  · refine Keeps.bind inferInstance fun tlv => Keeps.bind inferInstance fun _ => ?_
    dsimp only
    infer_instance

instance initSrpContext_talks (salt publicKey : Bytes) (pin : String) :
    Keeps Talks (client.initSrpContext P C salt publicKey pin) := by
  unfold RemotePairingClient.initSrpContext
  dsimp only
  split
  · infer_instance
  split
  · infer_instance
  split
  · infer_instance
  refine Keeps.bind inferInstance fun _ => Keeps.bind inferInstance fun response =>
    Keeps.bind inferInstance fun entries => ?_
  split <;> infer_instance

instance agree_talks : Keeps Talks (client.agree P C) :=
  Keeps.bind inferInstance fun _ => inferInstance

end Talking

section Ends

variable (P : Provider) (C : Crypto) (X : X25519) (client : RemotePairingClient)
  (xPrivate : Vector UInt8 32)

/-- The main ciphers are those of the encryption key. -/
def Keyed (session : Session) : Prop :=
  session.clientCipher = C.hkdf none session.encryptionKey "ClientEncrypt-main" ∧
    session.serverCipher = C.hkdf none session.encryptionKey "ServerEncrypt-main"

/-- The key of an SRP exchange in which the device has proved that it knows the PIN. -/
def Proved (key : Bytes) : Prop :=
  ∃ salt publicKey pin verifier proof, (pin = "000000" ∨ pin = client.pin) ∧
    C.clientReply client.aPrivate.toList (asBytes "Pair-Setup") ((asBytes pin).take 6) salt
      publicKey = some verifier ∧
    verifier.verifies proof = true ∧ verifier.key = key

/-- A key that the device has sent as its own, in a response without an error. -/
def Offered (origin : Session) (theirs : Vector UInt8 32) : Prop :=
  ∃ response data entries entry, some response ∈ origin.inner.receives ∧
    pairingDataOf response = .ok data ∧
    entriesOf P data "failed to deserialize pair-verify response bytes" = .ok entries ∧
    containsComponent entries .errorResponse = false ∧
    entries.find? (fun entry => entry.tlvType == .publicKey) = some entry ∧
    entry.data = theirs.toList

/-- Pair-verify has come to its end. -/
structure Verified (origin session : Session) : Prop extends Counts origin session where
  keyed : Keyed C session
  key : ∃ theirs, Offered P origin theirs ∧
    session.encryptionKey = (X.diffieHellman xPrivate theirs).toList
  pairingFile : session.pairingFile = origin.pairingFile
  pairedPeerDevice : session.pairedPeerDevice = origin.pairedPeerDevice

/-- Pair-setup has drawn new signing keys. -/
structure Renewed (origin session : Session) : Prop extends Counts origin session where
  keyed : Keyed C session
  key : Proved C client session.encryptionKey
  pairingFile : session.pairingFile = origin.pairingFile.recreateSigningKeys C client.signingKey
  pairedPeerDevice : session.pairedPeerDevice = origin.pairedPeerDevice

/-- Pair-setup has come to its end. -/
structure Paired (origin session : Session) : Prop extends Counts origin session where
  keyed : Keyed C session
  key : Proved C client session.encryptionKey
  device : ∃ peerDevice, session.pairedPeerDevice = some peerDevice ∧ session.pairingFile =
    { origin.pairingFile.recreateSigningKeys C client.signingKey with
      altIrk := some peerDevice.altIrk }

variable {P C X client xPrivate} {origin : Session}

/-- What a conversation leaves is left by a program that only talks. -/
theorem speaks_triple {ε α : Type} {m : Prog Session ε α} [hm : Keeps Talks m] :
    Triple (Speaks origin) m (fun _ => Speaks origin) (fun _ => Speaks origin) (Speaks origin) :=
  hm.triple fun _ _ h h' => trans_of Speaks h h'.toSpeaks

/-- The secret that pair-verify has stored stays for what is still to be said. -/
theorem secret_triple {α : Type} {key : Bytes} {m : Verifying α} [hm : Keeps Talks m] :
    Triple (fun session => Speaks origin session ∧ session.encryptionKey = key) m
      (fun _ session => Speaks origin session ∧ session.encryptionKey = key)
      (fun _ => Speaks origin) (Speaks origin) := by
  have hstays := hm.triple (I := fun session => Speaks origin session ∧ session.encryptionKey = key)
    fun _ _ h h' => ⟨trans_of Speaks h.1 h'.toSpeaks, h'.encryptionKey.trans h.2⟩
  exact hstays.conseq (fun _ => id) (fun _ _ => id) (fun _ _ h => h.1) fun _ h => h.1

theorem ofExcept_triple {α : Type} (result : Except IdeviceError α) :
    Triple (Speaks origin) (ofExcept result)
      (fun value session => result = .ok value ∧ Speaks origin session) (fun _ => Speaks origin)
      (Speaks origin) := by
  intro session h
  cases result with
  | error error => exact h
  | ok value => exact ⟨rfl, h⟩

theorem receivePairingData_response : Triple (Speaks origin) receivePairingData
    (fun data session => (∃ response, some response ∈ origin.inner.receives ∧
      pairingDataOf response = .ok data) ∧ Speaks origin session)
    (fun _ => Speaks origin) (Speaks origin) := by
  have hrecv : Triple (Speaks origin) recvPlain
      (fun response session => some response ∈ origin.inner.receives ∧ Speaks origin session)
      (fun _ => Speaks origin) (Speaks origin) := by
    intro session h
    have hkeeps : Speaks origin (recvPlain session).2 :=
      trans_of Speaks h (recvPlain_talks.keeps session).toSpeaks
    unfold recvPlain at hkeeps ⊢
    split at hkeeps
    · exact hkeeps
    · exact hkeeps
    · rename_i heq
      refine ⟨h.received.subset ?_, hkeeps⟩
      rw [heq]
      exact List.mem_cons_self
  refine Triple.bind hrecv fun response => Triple.given fun hresponse => ?_
  exact (ofExcept_triple _).post fun data session h => ⟨⟨response, hresponse, h.1⟩, h.2⟩

theorem receiveVerified_entries {message : String} : Triple (Speaks origin)
    (receiveVerified P message)
    (fun entries session => (∃ response data, some response ∈ origin.inner.receives ∧
      pairingDataOf response = .ok data ∧ entriesOf P data message = .ok entries ∧
      containsComponent entries .errorResponse = false) ∧ Speaks origin session)
    (fun _ => Speaks origin) (Speaks origin) := by
  refine Triple.bind (lift_triple receivePairingData_response) fun data =>
    Triple.given fun hdata => ?_
  refine Triple.bind (lift_triple (ofExcept_triple _)) fun entries => Triple.given fun hparsed => ?_
  obtain ⟨response, hresponse, hdata⟩ := hdata
  have hfailed : Keeps Talks sendPairVerifiedFailed := sendPlain_talks _
  refine Triple.ite (fun _ => Triple.bind speaks_triple fun _ => Triple.fail fun _ h => h)
    fun hclean => Triple.pure fun _ h => ?_
  exact ⟨⟨response, data, hresponse, hdata, hparsed, Bool.eq_false_iff.mpr hclean⟩, h⟩

theorem devicePublicKey_entry {entries : List TLV8Entry} : Triple (Speaks origin)
    (devicePublicKey entries)
    (fun theirs session => (∃ entry,
      entries.find? (fun entry => entry.tlvType == .publicKey) = some entry ∧
        entry.data = theirs.toList) ∧ Speaks origin session)
    (fun _ => Speaks origin) (Speaks origin) := by
  unfold devicePublicKey
  split
  · exact Triple.fail fun _ h => h
  · rename_i entry hfound
    split
    · exact Triple.pure fun _ h => ⟨⟨entry, hfound, rfl⟩, h⟩
    · exact Triple.fail fun _ h => h

theorem validatePairing_ends : Triple (Speaks origin) (validatePairing P C X xPrivate)
    (fun _ => Verified P C X xPrivate origin) (fun _ => Speaks origin) (Speaks origin) := by
  unfold validatePairing
  dsimp only
  refine Triple.bind speaks_triple fun _ => Triple.bind receiveVerified_entries fun entries =>
    Triple.given fun hentries => Triple.bind devicePublicKey_entry fun theirs =>
      Triple.given fun hentry => ?_
  have hoffered : Offered P origin theirs := by
    obtain ⟨response, data, hresponse, hdata, hparsed, hclean⟩ := hentries
    obtain ⟨entry, hfound, hkey⟩ := hentry
    exact ⟨response, data, entries, entry, hresponse, hdata, hparsed, hclean, hfound, hkey⟩
  refine Triple.bind (Q := fun _ session => Speaks origin session ∧
    session.encryptionKey = (X.diffieHellman xPrivate theirs).toList) ?_ fun _ => ?_
  · exact Triple.modify fun _ h =>
      ⟨⟨⟨h.numbered, h.received⟩, h.clientCipher, h.serverCipher, h.pairingFile, h.pairedPeerDevice⟩, rfl⟩
  refine Triple.bind secret_triple fun session => ?_
  split
  · exact fun _ h => h.1
  · refine Triple.bind secret_triple fun _ => Triple.bind secret_triple fun _ => ?_
    refine Triple.modify fun session' h => ?_
    exact ⟨⟨h.1.numbered, h.1.received⟩, ⟨rfl, rfl⟩, ⟨theirs, hoffered, h.2⟩, h.1.pairingFile, h.1.pairedPeerDevice⟩

theorem requestPairConsent_pin : Triple (fun _ => True) (client.requestPairConsent P)
    (fun found _ => found.2.2 = "000000" ∨ found.2.2 = client.pin) (fun _ _ => True)
    fun _ => True := by
  unfold RemotePairingClient.requestPairConsent
  dsimp only
  refine Triple.bind Triple.anyway fun _ => Triple.bind Triple.anyway fun response =>
    Triple.bind Triple.anyway fun consent => ?_
  refine Triple.bind (Q := fun found _ => (found.1 = some "000000" ∨ found.1 = none) ∧ True) ?_
    fun found => Triple.given fun hpin => ?_
  · cases consent with
    | awaitingUserConsent =>
      exact Triple.bind Triple.anyway fun data => Triple.pure fun _ _ => ⟨.inl rfl, trivial⟩
    | pairingData data => exact Triple.pure fun _ _ => ⟨.inr rfl, trivial⟩
  obtain ⟨pin, data⟩ := found
  refine Triple.bind Triple.anyway fun tlv => Triple.bind Triple.anyway fun found => ?_
  obtain ⟨salt, publicKey⟩ := found
  refine Triple.ite (fun _ => Triple.fail fun _ _ => trivial) fun _ => Triple.pure fun _ _ => ?_
  rcases hpin with rfl | rfl
  · exact .inl rfl
  · exact .inr rfl

/-- A key that comes out of the exchange is proved. -/
theorem initSrpContext_proved (salt publicKey : Bytes) {pin : String}
    (hpin : pin = "000000" ∨ pin = client.pin) :
    Triple (fun _ => True) (client.initSrpContext P C salt publicKey pin)
      (fun key _ => Proved C client key) (fun _ _ => True) fun _ => True := by
  unfold RemotePairingClient.initSrpContext
  dsimp only
  refine Triple.ite (fun _ _ _ => trivial) fun _ => ?_
  cases hreply : C.clientReply client.aPrivate.toList (asBytes "Pair-Setup") ((asBytes pin).take 6)
    salt publicKey with
  | none => exact Triple.fail fun _ _ => trivial
  | some verifier =>
    refine Triple.ite (fun _ _ _ => trivial) fun _ => ?_
    refine Triple.bind Triple.anyway fun _ => Triple.bind Triple.anyway fun response =>
      Triple.bind Triple.anyway fun entries => ?_
    split
    · exact Triple.fail fun _ _ => trivial
    · rename_i proof _
      refine Triple.ite (fun hverifies => Triple.pure fun _ _ => ?_) fun _ => Triple.fail fun _ _ => trivial
      exact ⟨salt, publicKey, pin, verifier, proof.data, hpin, hreply, hverifies, rfl⟩

theorem agree_proved : Triple (Speaks origin) (client.agree P C)
    (fun key session => Speaks origin session ∧ Proved C client key) (fun _ => Speaks origin)
    (Speaks origin) := by
  have hproved : Triple (fun _ => True) (client.agree P C) (fun key _ => Proved C client key)
      (fun _ _ => True) fun _ => True := by
    refine Triple.bind requestPairConsent_pin fun found => ?_
    obtain ⟨salt, publicKey, pin⟩ := found
    exact fun session hpin => initSrpContext_proved salt publicKey hpin session trivial
  refine (hproved.frame (I := Speaks origin) (agree_talks P C client)
    fun _ _ h h' => trans_of Speaks h h'.toSpeaks).conseq (fun _ h => ⟨h, trivial⟩) (fun _ _ => id)
    (fun _ _ h => h.1) fun _ h => h.1

/-- New keys, and nothing but a conversation since then. -/
theorem renewed_of_talks {key : Bytes} {session session' : Session} (hspeaks : Speaks origin session)
    (hproved : Proved C client key) (h : Talks (client.renewed C key session) session') :
    Renewed C client origin session' := by
  have hkey : session'.encryptionKey = key := h.encryptionKey
  refine ⟨⟨?_, ?_⟩, ⟨?_, ?_⟩, hkey ▸ hproved, ?_, ?_⟩
  · exact (trans_of Counts hspeaks.toCounts ⟨h.numbered, h.received⟩).numbered
  · exact h.received.trans hspeaks.received
  · rw [hkey]
    exact h.clientCipher
  · rw [hkey]
    exact h.serverCipher
  · rw [h.pairingFile, ← hspeaks.pairingFile]
    rfl
  · exact h.pairedPeerDevice.trans hspeaks.pairedPeerDevice

/-- From a proved key on the file has new keys, and in the end the device. -/
theorem commit_ends (key : Bytes) :
    Triple (fun session => Speaks origin session ∧ Proved C client key) (client.commit P C key)
      (fun _ => Paired C client origin) (fun _ => Renewed C client origin)
      (Renewed C client origin) := by
  intro session h
  obtain ⟨hspeaks, hproved⟩ := h
  have hrenewed : ∀ session', Talks (client.renewed C key session) session' →
      Renewed C client origin session' := fun _ => renewed_of_talks hspeaks hproved
  have htalk : ∀ {α : Type} {m : Pairing α} [Keeps Talks m],
      Triple (Talks (client.renewed C key session)) m
        (fun _ => Talks (client.renewed C key session)) (fun _ => Renewed C client origin)
        (Renewed C client origin) := fun {_ _} hm =>
    (hm.triple fun _ _ => trans_of Talks).conseq (fun _ => id) (fun _ _ => id)
      (fun _ => hrenewed) hrenewed
  have hexchange : Triple (Talks (client.renewed C key session)) (client.exchange P C key)
      (fun _ => Paired C client origin) (fun _ => Renewed C client origin)
      (Renewed C client origin) := by
    refine Triple.bind htalk fun _ => Triple.bind htalk fun tlv => Triple.bind htalk fun _ => ?_
    refine Triple.bind htalk fun response => Triple.bind htalk fun entries =>
      Triple.bind htalk fun peerDevice => Triple.modify fun session' h => ?_
    have hnew := hrenewed session' h
    refine ⟨⟨hnew.numbered, hnew.received⟩, hnew.keyed, hnew.key, peerDevice, rfl, ?_⟩
    show { session'.pairingFile with altIrk := some peerDevice.altIrk } = _
    rw [hnew.pairingFile]
  rw [client.commit_eq]
  exact hexchange _ (refl_of Talks _)

/-- However pair-setup ends. -/
theorem pair_ends : Triple (Speaks origin) (client.pair P C) (fun _ => Paired C client origin)
    (fun _ session => Speaks origin session ∨ Renewed C client origin session)
    (fun session => Speaks origin session ∨ Renewed C client origin session) := by
  rw [client.pair_eq]
  refine Triple.bind (agree_proved.conseq (fun _ => id) (fun _ _ => id) (fun _ _ => .inl)
    fun _ => .inl) fun key => ?_
  exact (commit_ends key).conseq (fun _ => id) (fun _ _ => id) (fun _ _ => .inr) fun _ => .inr

/-- What is left by a connection attempt: of one that returns, the ciphers of the key that it
has agreed on; of any other, the ciphers, the file and the device that there were, or those of
a pair-setup that went on until the device had proved itself. -/
def Settled (P : Provider) (C : Crypto) (X : X25519) (client : RemotePairingClient)
    (xPrivate : Vector UInt8 32) (origin : Session) : Outcome VerifyError Unit × Session → Prop
  | (.done (), session) => Verified P C X xPrivate origin session ∨ Paired C client origin session
  | (_, session) => Speaks origin session ∨ Renewed C client origin session

theorem connect_settles (P : Provider) (C : Crypto) (X : X25519) (client : RemotePairingClient)
    (xPrivate : Vector UInt8 32) (session : Session) :
    Settled P C X client xPrivate session (connect P C X client xPrivate session) := by
  have hconnect : Triple (Speaks session) (connect P C X client xPrivate)
      (fun _ last => Verified P C X xPrivate session last ∨ Paired C client session last)
      (fun _ last => Speaks session last ∨ Renewed C client session last)
      (fun last => Speaks session last ∨ Renewed C client session last) := by
    unfold connect
    refine Triple.bind (speaks_triple.conseq (fun _ => id) (fun _ _ => id) (fun _ _ => .inl)
      fun _ => .inl) fun _ => ?_
    refine Triple.bind (validatePairing_ends.conseq (fun _ => id) (fun _ _ => id) (fun _ _ => id)
      fun _ => .inl).attempt fun result => ?_
    cases result with
    | ok _ => exact Triple.pure fun _ h => .inl h
    | error error =>
      have hpair : Triple (Speaks session) (lift (client.pair P C))
          (fun _ last => Paired C client session last)
          (fun _ last => Speaks session last ∨ Renewed C client session last)
          (fun last => Speaks session last ∨ Renewed C client session last) := lift_triple pair_ends
      exact hpair.post fun _ _ => .inr
  have hends := hconnect session (refl_of Speaks session)
  rcases heq : connect P C X client xPrivate session with ⟨outcome, last⟩
  rw [heq] at hends
  cases outcome <;> exact hends

end Ends

section Strangers

variable {P : Provider} {C : Crypto} {X : X25519} {client : RemotePairingClient}
  {xPrivate : Vector UInt8 32} {session : Session} {answers : List PlistValue} {sends : ℕ}

/-- So many messages can be sent, and these are received next. -/
def Expects (session : Session) (sends : ℕ) (answers : List PlistValue) : Prop :=
  (∃ further, session.inner.sends = List.replicate sends true ++ further) ∧
    ∃ further, session.inner.receives = answers.map some ++ further

/-- The message of a device with these entries. -/
def verifyReply (P : Provider) (entries : List TLV8Entry) : PlistValue :=
  nested ["event", "_0", "pairingData", "_0", "data"] (P.serializeBytes (serializeTlv8 entries))

/-- Entries that are read as they were written, without an error. -/
def Readable (entries : List TLV8Entry) : Prop :=
  (∀ entry ∈ entries, entry.data.length ≤ 255) ∧ containsComponent entries .errorResponse = false

theorem lift_done {α : Type} {m : Pairing α} {value : α} {session' : Session}
    (h : m session = (.done value, session')) : lift m session = (.done value, session') := by
  unfold lift
  rw [h]

theorem sendPlain_expected (value : PlistValue) (h : Expects session (sends + 1) answers) :
    ∃ session', sendPlain value session = (.done (), session') ∧ Expects session' sends answers ∧
      session'.encryptionKey = session.encryptionKey := by
  obtain ⟨⟨further, hsends⟩, hanswers⟩ := h
  rw [List.replicate_succ, List.cons_append] at hsends
  refine ⟨{ session with
    inner := { session.inner with
      sends := List.replicate sends true ++ further
      sent := session.inner.sent ++ [(value, session.sequenceNumber)] }
    sequenceNumber := session.sequenceNumber + 1 }, ?_, ⟨⟨further, rfl⟩, hanswers⟩, rfl⟩
  unfold sendPlain
  rw [hsends]

theorem recvPlain_expected {answer : PlistValue} (h : Expects session sends (answer :: answers)) :
    ∃ session', recvPlain session = (.done answer, session') ∧ Expects session' sends answers ∧
      session'.encryptionKey = session.encryptionKey := by
  obtain ⟨hsends, further, hanswers⟩ := h
  rw [List.map_cons, List.cons_append] at hanswers
  refine ⟨{ session with
    inner := { session.inner with receives := answers.map some ++ further } }, ?_,
    ⟨hsends, further, rfl⟩, rfl⟩
  unfold recvPlain
  rw [hanswers]

theorem attemptPairVerify_expected {hello : PlistValue} (h : Expects session (sends + 1)
    (nested ["response", "_1", "handshake", "_0"] hello :: answers)) :
    ∃ session', attemptPairVerify session = (.done hello, session') ∧
      Expects session' sends answers := by
  unfold attemptPairVerify
  obtain ⟨middle, hsend, hsent, -⟩ := sendPlain_expected (nested ["request", "_0", "handshake", "_0"]
    (.dictionary [("hostOptions", .dictionary [("attemptPairVerify", .boolean true)]),
      ("wireProtocolVersion", .integer wireProtocolVersion)])) h
  obtain ⟨session', hrecv, hexpects, -⟩ := recvPlain_expected hsent
  refine ⟨session', ?_, hexpects⟩
  rw [Prog.bind_done hsend, Prog.bind_done hrecv]
  rfl

theorem entriesOf_reply (hbytes : ∀ bytes, P.deserializeBytes (P.serializeBytes bytes) = some bytes)
    {entries : List TLV8Entry} (h : ∀ entry ∈ entries, entry.data.length ≤ 255) (message : String) :
    entriesOf P (P.serializeBytes (serializeTlv8 entries)) message = .ok entries := by
  have hread := deserializeTlv8_append h []
  rw [List.append_nil] at hread
  unfold entriesOf
  rw [hbytes]
  dsimp only
  rw [hread]
  show Except.ok (entries ++ []) = _
  rw [List.append_nil]

theorem receiveVerified_reply
    (hbytes : ∀ bytes, P.deserializeBytes (P.serializeBytes bytes) = some bytes)
    {entries : List TLV8Entry} (hentries : Readable entries) (message : String)
    (h : Expects session sends (verifyReply P entries :: answers)) :
    ∃ session', receiveVerified P message session = (.done entries, session') ∧
      Expects session' sends answers ∧ session'.encryptionKey = session.encryptionKey := by
  obtain ⟨session', hrecv, hexpects, hkey⟩ := recvPlain_expected h
  refine ⟨session', ?_, hexpects, hkey⟩
  have hdata : receivePairingData session =
      (.done (P.serializeBytes (serializeTlv8 entries)), session') := by
    unfold receivePairingData
    rw [Prog.bind_done hrecv]
    rfl
  unfold receiveVerified
  rw [Prog.bind_done (lift_done hdata), entriesOf_reply hbytes hentries.1]
  show (if containsComponent entries .errorResponse = true then _ else _ : Verifying _) session' = _
  rw [hentries.2]
  rfl

/-- Pair-verify with a device that has any key pair of its own. -/
theorem validatePairing_expected
    (hbytes : ∀ bytes, P.deserializeBytes (P.serializeBytes bytes) = some bytes)
    (hencrypts : ∀ key nonce message, (C.encrypt key nonce message).isSome = true)
    {offer answer : List TLV8Entry} {theirs : Vector UInt8 32} (hoffer : Readable offer)
    (hanswer : Readable answer)
    (htheirs : offer.find? (fun entry => entry.tlvType == .publicKey) =
      some ⟨.publicKey, theirs.toList⟩)
    (h : Expects session 2 [verifyReply P offer, verifyReply P answer]) :
    ∃ last, validatePairing P C X xPrivate session = (.done (), last) ∧ Keyed C last ∧
      last.encryptionKey = (X.diffieHellman xPrivate theirs).toList := by
  obtain ⟨session₁, hsend, hsent, -⟩ := sendPlain_expected (nested ["event", "_0", "pairingData", "_0"]
    (verifyData P (serializeTlv8
      [⟨.state, [0x01]⟩, ⟨.publicKey, (X.publicKey xPrivate).toList⟩]) true)) h
  obtain ⟨session₂, hreceived, hexpects, -⟩ := receiveVerified_reply hbytes hoffer
    "failed to deserialize pair-verify response bytes" hsent
  have hkey : devicePublicKey offer session₂ = (.done theirs, session₂) := by
    unfold devicePublicKey
    have hlength : theirs.toList.length = 32 := Vector.length_toList
    rw [htheirs]
    dsimp only
    rw [dif_pos hlength]
    rfl
  let shared := (X.diffieHellman xPrivate theirs).toList
  let session₃ : Session := { session₂ with encryptionKey := shared }
  obtain ⟨ciphertext, hciphertext⟩ := Option.isSome_iff_exists.mp
    (hencrypts (verifyEncryptionKey C shared) msg03
      (verifyTlv C X xPrivate session₃.pairingFile theirs))
  have hstored : Expects session₃ 1 [verifyReply P answer] := hexpects
  obtain ⟨session₄, hsend', hsent', hkey'⟩ := sendPlain_expected
    (nested ["event", "_0", "pairingData", "_0"] (verifyData P (serializeTlv8
      [⟨.state, [0x03]⟩, ⟨.encryptedData, ciphertext⟩]) false)) hstored
  obtain ⟨session₅, hreceived', -, hkey''⟩ := receiveVerified_reply hbytes hanswer
    "failed to deserialize pair-verify signature response bytes" hsent'
  have hmodify : (Prog.modify (fun session => { session with encryptionKey := shared }) : Verifying Unit)
      session₂ = (.done (), session₃) := rfl
  have hget : (Prog.get : Verifying Session) session₃ = (.done session₃, session₃) := rfl
  refine ⟨deriveMainCiphers C session₅, ?_, ⟨rfl, rfl⟩, hkey''.trans hkey'⟩
  unfold validatePairing sendPairingData
  dsimp only
  rw [Prog.bind_done (lift_done hsend), Prog.bind_done hreceived, Prog.bind_done hkey,
    Prog.bind_done hmodify, Prog.bind_done hget, hciphertext]
  dsimp only
  rw [Prog.bind_done (lift_done hsend'), Prog.bind_done hreceived']
  rfl

/-- A device that has any key pair of its own, and proves nothing, gets the client to take the
key that the two have in common. -/
theorem connect_accepts_stranger
    (hbytes : ∀ bytes, P.deserializeBytes (P.serializeBytes bytes) = some bytes)
    (hencrypts : ∀ key nonce message, (C.encrypt key nonce message).isSome = true)
    {hello : PlistValue} {offer answer : List TLV8Entry} {theirs : Vector UInt8 32}
    (hoffer : Readable offer) (hanswer : Readable answer)
    (htheirs : offer.find? (fun entry => entry.tlvType == .publicKey) =
      some ⟨.publicKey, theirs.toList⟩)
    (h : Expects session 3 [nested ["response", "_1", "handshake", "_0"] hello,
      verifyReply P offer, verifyReply P answer]) :
    ∃ last, connect P C X client xPrivate session = (.done (), last) ∧ Keyed C last ∧
      last.encryptionKey = (X.diffieHellman xPrivate theirs).toList := by
  obtain ⟨session', hattempt, hexpects⟩ := attemptPairVerify_expected h
  obtain ⟨last, hvalidate, hkeyed, hkey⟩ :=
    validatePairing_expected hbytes hencrypts hoffer hanswer htheirs hexpects
  refine ⟨last, ?_, hkeyed, hkey⟩
  have hverified : Prog.attempt (validatePairing P C X xPrivate) session' = (.done (.ok ()), last) := by
    unfold Prog.attempt
    rw [hvalidate]
  unfold connect
  rw [Prog.bind_done (lift_done hattempt), Prog.bind_done hverified]
  rfl

/-- A key exchange in which every pair has the same key in common. -/
def plainX25519 : X25519 := ⟨fun secret => secret, fun _ theirs => theirs⟩

def strangerOffer : List TLV8Entry :=
  [⟨.state, [2]⟩, ⟨.publicKey, (Vector.replicate 32 8).toList⟩]

def strangerSession : Session :=
  { RemotePairingClient.droppedSession with
    inner := ⟨[true, true, true], [some (nested ["response", "_1", "handshake", "_0"] (.boolean true)),
      some (verifyReply remoteXpc strangerOffer), some (verifyReply remoteXpc [⟨.state, [4]⟩])], []⟩ }

theorem strangerSession_expects : Expects strangerSession 3
    [nested ["response", "_1", "handshake", "_0"] (.boolean true),
      verifyReply remoteXpc strangerOffer, verifyReply remoteXpc [⟨.state, [4]⟩]] :=
  ⟨⟨[], rfl⟩, [], rfl⟩

theorem connect_accepts_stranger_plain : ∃ last,
    connect remoteXpc openCrypto plainX25519 RemotePairingClient.sampleClient (Vector.replicate 32 6)
      strangerSession = (.done (), last) ∧ Keyed openCrypto last ∧
    last.encryptionKey = (plainX25519.diffieHellman (Vector.replicate 32 6)
      (Vector.replicate 32 8)).toList :=
  connect_accepts_stranger (fun _ => rfl) (fun _ _ _ => rfl) ⟨by decide, rfl⟩ ⟨by decide, rfl⟩ rfl
    strangerSession_expects

end Strangers

end XitForge.RemotePairing
