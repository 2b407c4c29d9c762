import XitForge.RemotePairing.PairSetup

/-!
What a pairing that fails leaves in the pairing file. A host changes it in its last step.
A client draws new keys as soon as the device has proved that it knows the PIN, with the
exchange of the identities still to come: from there on the old keys are gone.
-/
namespace XitForge.RemotePairing

open Xpc (PlistValue)
open Program

section Files

def SameFile (session session' : Session) : Prop := session'.pairingFile = session.pairingFile

instance : IsPreorder Session SameFile where
  refl _ := rfl
  trans _ _ _ h h' := h'.trans h

instance sendPlain_keeps (value : PlistValue) : Keeps SameFile (sendPlain value) := by
  constructor
  intro session
  unfold sendPlain
  split <;> rfl

instance recvPlain_keeps : Keeps SameFile recvPlain := by
  constructor
  intro session
  unfold recvPlain
  split <;> rfl

instance ofOutcome_keeps {α : Type} (outcome : Outcome IdeviceError α) :
    Keeps SameFile (ofOutcome outcome) := ⟨fun _ => rfl⟩

instance ofExcept_keeps {α : Type} (result : Except IdeviceError α) :
    Keeps SameFile (ofExcept result) := by
  constructor
  intro session
  cases result <;> rfl

instance sendPairingData_keeps (pairingData : PlistValue) :
    Keeps SameFile (sendPairingData pairingData) := sendPlain_keeps _

instance receivePairingData_keeps : Keeps SameFile receivePairingData :=
  Keeps.bind inferInstance fun _ => inferInstance

/-- If the operation fails, the pairing file is the one that it was handed. -/
def KeepsOnError {α : Type} (m : Pairing α) (session : Session) : Prop :=
  ∀ error session', m session = (.failed error, session') →
    session'.pairingFile = session.pairingFile

theorem KeepsOnError.bind {α β : Type} {m : Pairing α} {next : α → Pairing β} (hm : Keeps SameFile m)
    (hnext : ∀ value session, KeepsOnError (next value) session) (session : Session) :
    KeepsOnError (m >>= next) session := by
  intro error session' h
  have hfirst := hm.keeps session
  cases hrun : m session with
  | mk outcome middle =>
    rw [hrun] at hfirst
    cases outcome with
    | done value =>
      rw [Prog.bind_done hrun] at h
      exact (hnext value middle error session' h).trans hfirst
    | failed error' =>
      rw [Prog.bind_failed hrun] at h
      cases h
      exact hfirst
    | stopped =>
      rw [Prog.bind_stopped hrun] at h
      cases h

end Files

section Host

variable (P : Provider) (C : Crypto) (host : PairableHost)

namespace PairableHost

instance sendPairingTlv_keeps (entries : List TLV8Entry) :
    Keeps SameFile (sendPairingTlv P entries) := sendPairingData_keeps _

instance recvPairingTlv_keeps : Keeps SameFile (recvPairingTlv P) := by
  refine Keeps.bind inferInstance fun response => ?_
  split <;> infer_instance

instance handshake_keeps : Keeps SameFile host.handshake := by
  refine Keeps.bind inferInstance fun request => ?_
  split
  · infer_instance
  · split <;> infer_instance

instance agree_keeps : Keeps SameFile (host.agree P C) := by
  refine Keeps.bind inferInstance fun m1 => Keeps.bind inferInstance fun _ => ?_
  dsimp only
  split
  · infer_instance
  · refine Keeps.bind inferInstance fun _ => Keeps.bind inferInstance fun m3 =>
      Keeps.bind inferInstance fun _ => Keeps.bind inferInstance fun _ => ?_
    split
    · infer_instance
    · split
      · infer_instance
      · split <;> infer_instance

instance receiveIdentity_keeps (sessionKey : Bytes) :
    Keeps SameFile (receiveIdentity P C sessionKey) := by
  refine Keeps.bind inferInstance fun m5 => Keeps.bind inferInstance fun _ =>
    Keeps.bind inferInstance fun _ => ?_
  split <;> infer_instance

instance sendIdentity_keeps (sessionKey : Bytes) :
    Keeps SameFile (host.sendIdentity P C sessionKey) := by
  refine Keeps.bind inferInstance fun session => ?_
  split <;> infer_instance

/-- A host stores the device's key when nothing can fail any more. -/
theorem accept_keepsOnError (session : Session) : KeepsOnError (host.accept P C) session := by
  refine KeepsOnError.bind inferInstance (fun _ => ?_) session
  refine KeepsOnError.bind inferInstance fun sessionKey => ?_
  refine KeepsOnError.bind inferInstance fun peerDevice => ?_
  refine KeepsOnError.bind inferInstance fun _ session error session' h => ?_
  cases h

end PairableHost

end Host

section Client

variable (P : Provider) (C : Crypto) (client : RemotePairingClient)

namespace RemotePairingClient

instance requestPairConsent_keeps : Keeps SameFile (client.requestPairConsent P) := by
  refine Keeps.bind inferInstance fun _ => Keeps.bind inferInstance fun response =>
    Keeps.bind inferInstance fun consent => Keeps.bind ?_ fun _ => ?_
  · cases consent <;> infer_instance
  · refine Keeps.bind inferInstance fun tlv => Keeps.bind inferInstance fun _ => ?_
    dsimp only
    infer_instance

instance initSrpContext_keeps (salt publicKey : Bytes) (pin : String) :
    Keeps SameFile (client.initSrpContext P C salt publicKey pin) := by
  unfold initSrpContext
  dsimp only
  split
  · infer_instance
  split
  · infer_instance
  split
  · infer_instance
  refine Keeps.bind inferInstance fun _ => Keeps.bind inferInstance fun response =>
    Keeps.bind inferInstance fun entries => ?_
  split <;> infer_instance

/-- M1 to M4: the session key, once the device has shown that it knows the PIN. -/
def agree : Pairing Bytes := do
  let (salt, publicKey, pin) ← client.requestPairConsent P
  client.initSrpContext P C salt publicKey pin

/-- M5 and M6, from the new keys on. -/
def commit (key : Bytes) : Pairing Unit := do
  let tlv ← client.savePairRecordOnPeer P C key
  let peerDevice ← ofExcept (parsePeerDeviceFromTlv tlv)
  Prog.modify fun session => { session with
    pairingFile := { session.pairingFile with altIrk := some peerDevice.altIrk }
    pairedPeerDevice := some peerDevice }

theorem pair_eq : client.pair P C = client.agree P C >>= client.commit P C :=
  Prog.bind_assoc.symm

instance agree_keeps : Keeps SameFile (client.agree P C) :=
  Keeps.bind inferInstance fun _ => inferInstance

theorem agree_file {session session' : Session} {outcome : Outcome IdeviceError Bytes}
    (h : client.agree P C session = (outcome, session')) :
    session'.pairingFile = session.pairingFile := by
  have hkeeps := (client.agree_keeps P C).keeps session
  rw [h] at hkeeps
  exact hkeeps

/-- The session in which the exchange of the identities begins. -/
def renewed (key : Bytes) (session : Session) : Session :=
  { session with
    encryptionKey := key
    pairingFile := session.pairingFile.recreateSigningKeys C client.signingKey
    clientCipher := C.hkdf none key "ClientEncrypt-main"
    serverCipher := C.hkdf none key "ServerEncrypt-main" }

/-- M6, and the device that is stored. -/
def receiveRecord (key : Bytes) : Pairing Unit := do
  let response ← receivePairingData
  let tlv ← ofOutcome (readPairRecord P C key response)
  let peerDevice ← ofExcept (parsePeerDeviceFromTlv tlv)
  Prog.modify fun session => { session with
    pairingFile := { session.pairingFile with altIrk := some peerDevice.altIrk }
    pairedPeerDevice := some peerDevice }

def exchange (key : Bytes) : Pairing Unit := do
  let session ← Prog.get
  let tlv ← ofOutcome (client.pairRecordRequest C session.pairingFile key)
  sendPairingData (client.setupData P tlv false)
  receiveRecord P C key

theorem commit_eq (key : Bytes) (session : Session) :
    client.commit P C key session = client.exchange P C key (client.renewed C key session) := by
  have hassoc : ∀ {α β γ : Type} (m : Pairing α) (next : α → Pairing β) (last : β → Pairing γ),
      m >>= next >>= last = m >>= fun value => next value >>= last :=
    fun _ _ _ => Prog.bind_assoc
  unfold commit savePairRecordOnPeer
  simp only [hassoc]
  rfl

theorem receiveRecord_keepsOnError (key : Bytes) (session : Session) :
    KeepsOnError (receiveRecord P C key) session := by
  refine KeepsOnError.bind inferInstance (fun response => ?_) session
  refine KeepsOnError.bind inferInstance fun entries => ?_
  refine KeepsOnError.bind inferInstance fun peerDevice session error session' h => ?_
  cases h

theorem exchange_keepsOnError (key : Bytes) (session : Session) :
    KeepsOnError (client.exchange P C key) session := by
  refine KeepsOnError.bind inferInstance (fun file => ?_) session
  refine KeepsOnError.bind inferInstance fun tlv => ?_
  exact KeepsOnError.bind inferInstance fun _ => receiveRecord_keepsOnError P C key

/-- What the client makes of the message that it awaits as M6. -/
def acceptRecord (key : Bytes) (response : PlistValue) : Outcome IdeviceError PeerDevice :=
  match pairingDataOf response with
  | .error error => .failed error
  | .ok data =>
    match readPairRecord P C key data with
    | .failed error => .failed error
    | .stopped => .stopped
    | .done tlv =>
      match parsePeerDeviceFromTlv tlv with
      | .error error => .failed error
      | .ok peerDevice => .done peerDevice

/-- M5 is not sent, or M6 does not come or is refused. -/
def LateExit (key : Bytes) (session : Session) : Prop :=
  match client.pairRecordRequest C (client.renewed C key session).pairingFile key with
  | .failed _ => True
  | .stopped => False
  | .done _ =>
    session.inner.sends.head? ≠ some true ∨
      ∀ response, session.inner.receives.head? = some (some response) →
        ∃ error, acceptRecord P C key response = .failed error

/-- Some error is what `m` ends in. -/
def Fails {α : Type} (m : Pairing α) (session : Session) : Prop :=
  ∃ error session', m session = (.failed error, session')

theorem recvPlain_fails {session : Session}
    (h : ∀ response, session.inner.receives.head? ≠ some (some response)) : Fails recvPlain session := by
  unfold Fails recvPlain
  match hreceives : session.inner.receives with
  | [] => exact ⟨_, _, rfl⟩
  | none :: receives => exact ⟨_, _, rfl⟩
  | some response :: receives =>
    rw [hreceives] at h
    exact absurd rfl (h response)

theorem recvPlain_done {session : Session} {response : PlistValue}
    (h : session.inner.receives.head? = some (some response)) :
    ∃ session', recvPlain session = (.done response, session') := by
  unfold recvPlain
  match hreceives : session.inner.receives with
  | [] =>
    rw [hreceives] at h
    cases h
  | first :: receives =>
    rw [hreceives] at h
    cases h
    exact ⟨_, rfl⟩

theorem sendPlain_fails {session : Session} (value : PlistValue)
    (h : session.inner.sends.head? ≠ some true) : Fails (sendPlain value) session := by
  unfold Fails sendPlain
  match hsends : session.inner.sends with
  | [] => exact ⟨_, _, rfl⟩
  | false :: sends => exact ⟨_, _, rfl⟩
  | true :: sends =>
    rw [hsends] at h
    exact absurd rfl h

theorem sendPlain_done {session : Session} (value : PlistValue)
    (h : session.inner.sends.head? = some true) :
    ∃ session', sendPlain value session = (.done (), session') ∧
      session'.inner.receives = session.inner.receives := by
  unfold sendPlain
  match hsends : session.inner.sends with
  | [] =>
    rw [hsends] at h
    cases h
  | first :: sends =>
    rw [hsends] at h
    cases h
    exact ⟨_, rfl, rfl⟩

theorem Fails.bind {α β : Type} {m : Pairing α} {session : Session} (h : Fails m session)
    (next : α → Pairing β) : Fails (m >>= next) session := by
  obtain ⟨error, session', hm⟩ := h
  exact ⟨error, session', Prog.bind_failed hm⟩

theorem bind_fails {α β : Type} {m : Pairing α} {next : α → Pairing β} {session session' : Session}
    {value : α} (h : m session = (.done value, session')) :
    Fails (m >>= next) session ↔ Fails (next value) session' := by
  unfold Fails
  rw [Prog.bind_done h]

theorem ofOutcome_done {α : Type} (value : α) (session : Session) :
    ofOutcome (.done value) session = (.done value, session) := rfl

/-- What becomes of the data in M6. -/
theorem readRecord_fails (key : Bytes) (data : PlistValue) (next : PeerDevice → Pairing Unit)
    (hnext : ∀ peerDevice session, ¬ Fails (next peerDevice) session) (session : Session) :
    Fails (do
      let tlv ← ofOutcome (readPairRecord P C key data)
      let peerDevice ← ofExcept (parsePeerDeviceFromTlv tlv)
      next peerDevice) session ↔
      ∃ error, (match readPairRecord P C key data with
        | .failed error => .failed error
        | .stopped => .stopped
        | .done tlv =>
          match parsePeerDeviceFromTlv tlv with
          | .error error => .failed error
          | .ok peerDevice => .done peerDevice : Outcome IdeviceError PeerDevice) = .failed error := by
  cases readPairRecord P C key data with
  | failed error => exact ⟨fun _ => ⟨error, rfl⟩, fun _ => ⟨error, session, rfl⟩⟩
  | stopped =>
    constructor
    · intro ⟨error, session', h⟩
      cases h
    · intro ⟨error, h⟩
      cases h
  | done tlv =>
    rw [bind_fails (ofOutcome_done tlv session)]
    dsimp only
    cases parsePeerDeviceFromTlv tlv with
    | error error => exact ⟨fun _ => ⟨error, rfl⟩, fun _ => ⟨error, session, rfl⟩⟩
    | ok peerDevice =>
      constructor
      · intro h
        exact absurd h (hnext peerDevice session)
      · intro ⟨error, h⟩
        cases h

theorem receiveRecord_fails (key : Bytes) (session : Session) :
    Fails (receiveRecord P C key) session ↔
      ∀ response, session.inner.receives.head? = some (some response) →
        ∃ error, acceptRecord P C key response = .failed error := by
  by_cases hreceives : ∀ response, session.inner.receives.head? ≠ some (some response)
  · constructor
    · intro _ response hresponse
      exact absurd hresponse (hreceives response)
    · intro _
      exact ((recvPlain_fails hreceives).bind _).bind _
  · obtain ⟨response, hnot⟩ := not_forall.mp hreceives
    have hresponse := not_not.mp hnot
    obtain ⟨session', hrecv⟩ := recvPlain_done hresponse
    have haccept : Fails (receiveRecord P C key) session ↔
        ∃ error, acceptRecord P C key response = .failed error := by
      unfold receiveRecord receivePairingData acceptRecord
      rw [Prog.bind_assoc, bind_fails hrecv]
      cases pairingDataOf response with
      | error error => exact ⟨fun _ => ⟨error, rfl⟩, fun _ => ⟨error, session', rfl⟩⟩
      | ok data =>
        refine readRecord_fails P C key data _ ?_ session'
        intro peerDevice session ⟨error, session'', h⟩
        cases h
    rw [haccept]
    constructor
    · intro herror response' hresponse'
      rw [hresponse] at hresponse'
      cases hresponse'
      exact herror
    · intro hall
      exact hall response hresponse

theorem exchange_fails (key : Bytes) (session : Session) :
    Fails (client.exchange P C key) (client.renewed C key session) ↔
      client.LateExit P C key session := by
  have hget : (Prog.get : Pairing Session) (client.renewed C key session) =
      (.done (client.renewed C key session), client.renewed C key session) := rfl
  unfold exchange LateExit
  rw [bind_fails hget]
  cases client.pairRecordRequest C (client.renewed C key session).pairingFile key with
  | failed error => exact ⟨fun _ => trivial, fun _ => ⟨error, _, rfl⟩⟩
  | stopped =>
    constructor
    · intro ⟨error, session', h⟩
      cases h
    · intro h
      cases h
  | done tlv =>
    rw [bind_fails (ofOutcome_done tlv _)]
    dsimp only
    by_cases hsends : session.inner.sends.head? = some true
    · have hrenewed : (client.renewed C key session).inner.sends.head? = some true := hsends
      obtain ⟨session', hsend, hreceives⟩ := sendPlain_done
        (nested ["event", "_0", "pairingData", "_0"] (client.setupData P tlv false)) hrenewed
      have hsendData : sendPairingData (client.setupData P tlv false)
          (client.renewed C key session) = (.done (), session') := hsend
      rw [bind_fails hsendData, receiveRecord_fails, hreceives]
      constructor
      · intro h
        exact .inr h
      · intro h
        rcases h with h | h
        · exact absurd hsends h
        · exact h
    · constructor
      · intro _
        exact .inl hsends
      · intro _
        have hrenewed : (client.renewed C key session).inner.sends.head? ≠ some true := hsends
        exact (sendPlain_fails
          (nested ["event", "_0", "pairingData", "_0"] (client.setupData P tlv false)) hrenewed).bind _

/-- `PairableHost::accept` leaves the pairing file alone when it fails. `pair` does exactly
when the device does not get to prove that it knows the PIN, or its identity is accepted
in the end, or the new keys are the old ones. -/
theorem failed_pairing_keeps_file (host : PairableHost) (session : Session) :
    KeepsOnError (host.accept P C) session ∧
      (KeepsOnError (client.pair P C) session ↔
        ∀ key session', client.agree P C session = (.done key, session') →
          client.LateExit P C key session' →
            session.pairingFile.recreateSigningKeys C client.signingKey = session.pairingFile) := by
  refine ⟨host.accept_keepsOnError P C session, ?_⟩
  rw [pair_eq]
  constructor
  · intro hkeeps key session' hagree hlate
    obtain ⟨error, last, hexchange⟩ := (client.exchange_fails P C key session').mpr hlate
    have hcommit := (client.commit_eq P C key session').trans hexchange
    have hfile := hkeeps error last ((Prog.bind_done hagree).trans hcommit)
    have hnew := client.exchange_keepsOnError P C key _ error last hexchange
    have hagreed := client.agree_file P C hagree
    calc session.pairingFile.recreateSigningKeys C client.signingKey
        = session'.pairingFile.recreateSigningKeys C client.signingKey := by rw [hagreed]
      _ = last.pairingFile := hnew.symm
      _ = session.pairingFile := hfile
  · intro hlates error last hpair
    cases hagree : client.agree P C session with
    | mk outcome session' =>
      have hagreed := client.agree_file P C hagree
      cases outcome with
      | failed error' =>
        rw [Prog.bind_failed hagree] at hpair
        cases hpair
        exact hagreed
      | stopped =>
        rw [Prog.bind_stopped hagree] at hpair
        cases hpair
      | done key =>
        rw [Prog.bind_done hagree, commit_eq] at hpair
        have hlate := (client.exchange_fails P C key session').mp ⟨error, last, hpair⟩
        have hnew := client.exchange_keepsOnError P C key _ error last hpair
        have hsame := hlates key session' hagree hlate
        rw [hnew, ← hsame, ← hagreed]
        rfl

/-- A device's message with pairing data. -/
def dataMessage (entries : List TLV8Entry) : PlistValue :=
  nested ["event", "_0", "pairingData", "_0", "data"] (.data (serializeTlv8 entries))

def sampleClient : RemotePairingClient :=
  ⟨"host", Vector.replicate 32 0, Vector.replicate 32 9, "123456"⟩

/-- The device sends a salt and a key, and its proof, and then the connection is gone. -/
def droppedSession : Session :=
  { inner := ⟨[true, true, true], [some (dataMessage [⟨.salt, [1]⟩, ⟨.publicKey, [2]⟩]),
      some (dataMessage [⟨.state, [4]⟩, ⟨.proof, [3]⟩])], []⟩
    sequenceNumber := 0
    encryptionKey := []
    clientCipher := Vector.replicate 32 0
    serverCipher := Vector.replicate 32 0
    pairedPeerDevice := none
    pairingFile := samplePairingFile }

theorem dropped_connection_loses_keys :
    (sampleClient.pair remoteXpc openCrypto droppedSession).1 = .failed .socket ∧
      (sampleClient.pair remoteXpc openCrypto droppedSession).2.pairingFile.ePrivateKey ≠
        droppedSession.pairingFile.ePrivateKey := by
  constructor
  · decide +kernel
  · decide +kernel

end RemotePairingClient

end Client

end XitForge.RemotePairing
