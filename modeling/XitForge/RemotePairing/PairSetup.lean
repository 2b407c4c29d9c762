import XitForge.Program
import XitForge.RemotePairing.Identity

/-!
Pair-setup from both sides: `RemotePairingClient::pair`, and `PairableHost::accept` for a
device that drives it. The peer is what its side of the socket does: which sends succeed,
and what is received or fails to be. A panic and a loop that never ends are a stop.
-/
namespace XitForge.RemotePairing

open Xpc (PlistValue asBytes)
open Program

section Socket

/-- How a socket provider encodes bytes. -/
structure Provider where
  serializeBytes : Bytes → PlistValue
  deserializeBytes : PlistValue → Option Bytes

/-- The provider `RemoteXpcClient`. -/
def remoteXpc : Provider where
  serializeBytes := .data
  deserializeBytes
    | .data bytes => some bytes
    | _ => none

/-- What the other side still does, and what was sent to it under which number. -/
structure Socket where
  sends : List Bool
  receives : List (Option PlistValue)
  sent : List (PlistValue × ℕ)

/-- A client or a host, with the pairing file that it was handed. -/
structure Session where
  inner : Socket
  sequenceNumber : ℕ
  encryptionKey : Bytes
  /-- The keys of the main ciphers, which a host has not. -/
  clientCipher : Vector UInt8 32
  serverCipher : Vector UInt8 32
  pairedPeerDevice : Option PeerDevice
  pairingFile : RpPairingFile

abbrev Pairing := Prog Session IdeviceError

def ofOutcome {α : Type} (outcome : Outcome IdeviceError α) : Pairing α := fun session =>
  (outcome, session)

def ofExcept {α : Type} : Except IdeviceError α → Pairing α
  | .ok value => pure value
  | .error error => Prog.fail error

/-- `send_plain`, and the count behind it. -/
def sendPlain (value : PlistValue) : Pairing Unit := fun session =>
  match session.inner.sends with
  | [] => (.failed .socket, session)
  | false :: sends => (.failed .socket, { session with inner := { session.inner with sends } })
  | true :: sends =>
    (.done (), { session with
      inner := { session.inner with
        sends
        sent := session.inner.sent ++ [(value, session.sequenceNumber)] }
      sequenceNumber := session.sequenceNumber + 1 })

def recvPlain : Pairing PlistValue := fun session =>
  match session.inner.receives with
  | [] => (.failed .socket, session)
  | none :: receives =>
    (.failed .socket, { session with inner := { session.inner with receives } })
  | some value :: receives =>
    (.done value, { session with inner := { session.inner with receives } })

/-- A dictionary in a dictionary, and so on down to the value. -/
def nested (keys : List String) (value : PlistValue) : PlistValue :=
  keys.foldr (fun key value => .dictionary [(key, value)]) value

def getBy (key : String) : PlistValue → Option PlistValue
  | .dictionary entries => getEntry entries key
  | _ => none

def getPath : List String → PlistValue → Option PlistValue
  | [], value => some value
  | key :: keys, value => (getBy key value).bind (getPath keys)

/-- `deserialize_bytes` and `deserialize_tlv8`. -/
def entriesOf (P : Provider) (data : PlistValue) (message : String) :
    Except IdeviceError (List TLV8Entry) :=
  match P.deserializeBytes data with
  | none => .error (.unexpectedResponse message)
  | some bytes => (deserializeTlv8 bytes).mapError fun error => .remotePairing (.tlv error)

end Socket

section Client

variable (P : Provider) (C : Crypto)

structure RemotePairingClient where
  sendingHost : String
  /-- What is drawn at random: the SRP secret and the new signing key. -/
  aPrivate : Vector UInt8 32
  signingKey : Vector UInt8 32
  /-- What `pin_callback` returns. -/
  pin : String

def sendPairingData (pairingData : PlistValue) : Pairing Unit :=
  sendPlain (nested ["event", "_0", "pairingData", "_0"] pairingData)

def rejectionContext (error : PlistValue) : String :=
  match getPath ["wrappedError", "userInfo", "NSLocalizedDescription"] error with
  | some (.string context) => context
  | _ => ""

def pairingDataOf (response : PlistValue) : Except IdeviceError PlistValue :=
  match getPath ["event", "_0"] response with
  | none => .error (.unexpectedResponse "missing event._0 in pairing data response")
  | some response =>
    match getPath ["pairingData", "_0", "data"] response with
    | some data => .ok data
    | none =>
      match getBy "pairingRejectedWithError" response with
      | some error => .error (.remotePairing (.pairingRejected (rejectionContext error)))
      | none => .error (.unexpectedResponse
          "pairing data response contained neither data nor rejection")

def receivePairingData : Pairing PlistValue := do
  let response ← recvPlain
  ofExcept (pairingDataOf response)

inductive Consent where
  | awaitingUserConsent
  | pairingData (data : PlistValue)

def consentOf (response : PlistValue) : Except IdeviceError Consent :=
  match getPath ["event", "_0"] response with
  | some (.dictionary response) =>
    match getEntry response "pairingRejectedWithError" with
    | some error => .error (.remotePairing (.pairingRejected (rejectionContext error)))
    | none =>
      if (getEntry response "awaitingUserConsent").isSome then .ok .awaitingUserConsent
      else
        match (getEntry response "pairingData").bind (getPath ["_0", "data"]) with
        | some data => .ok (.pairingData data)
        | none => .error (.unexpectedResponse "missing pairing data in pair consent response")
  | _ => .error (.unexpectedResponse "missing event._0 in pair consent response")

/-- The last salt and all of the public key. -/
def saltAndPublicKey : List TLV8Entry → Bytes × Bytes → Except IdeviceError (Bytes × Bytes)
  | [], found => .ok found
  | entry :: rest, (salt, publicKey) =>
    match entry.tlvType with
    | .salt => saltAndPublicKey rest (entry.data, publicKey)
    | .publicKey => saltAndPublicKey rest (salt, publicKey ++ entry.data)
    | .errorResponse => .error (.unexpectedResponse
        "pairing data contained error response during pair consent")
    | _ => saltAndPublicKey rest (salt, publicKey)

namespace RemotePairingClient

variable (client : RemotePairingClient)

/-- A request of pair-setup behind the first one. -/
def setupData (tlv : Bytes) (startNewSession : Bool) : PlistValue :=
  .dictionary [
    ("data", P.serializeBytes tlv),
    ("kind", .string "setupManualPairing"),
    ("sendingHost", .string client.sendingHost),
    ("startNewSession", .boolean startNewSession)]

def requestPairConsent : Pairing (Bytes × Bytes × String) := do
  let tlv := serializeTlv8 [⟨.method, [0x00]⟩, ⟨.state, [0x01]⟩]
  sendPairingData (client.setupData P tlv true)
  let response ← recvPlain
  let consent ← ofExcept (consentOf response)
  let (pin, pairingData) ← (match consent with
    | .awaitingUserConsent => do
      let data ← receivePairingData
      return (some "000000", data)
    | .pairingData data => return (none, data) : Pairing (Option String × PlistValue))
  let tlv ← ofExcept (entriesOf P pairingData
    "failed to deserialize pairing data bytes in pair consent")
  let (salt, publicKey) ← ofExcept (saltAndPublicKey tlv ([], []))
  let pin := pin.getD client.pin
  if salt = [] ∨ publicKey = [] then
    Prog.fail (.unexpectedResponse "pairing data missing salt or public key")
  else return (salt, publicKey, pin)

def initSrpContext (salt publicKey : Bytes) (pin : String) : Pairing Bytes :=
  let aPublic := C.clientPublic client.aPrivate.toList
  if (asBytes pin).length < 6 then Prog.stop
  else
    match C.clientReply client.aPrivate.toList (asBytes "Pair-Setup") ((asBytes pin).take 6) salt
      publicKey with
    | none => Prog.fail (.remotePairing .srpAuthFailed)
    | some verifier =>
      if aPublic.length < 254 then Prog.stop
      else do
        let tlv := serializeTlv8 [⟨.state, [0x03]⟩, ⟨.publicKey, aPublic.take 254⟩,
          ⟨.publicKey, aPublic.drop 254⟩, ⟨.proof, verifier.proof⟩]
        sendPairingData (client.setupData P tlv false)
        let response ← receivePairingData
        let response ← ofExcept (entriesOf P response
          "failed to deserialize SRP proof response bytes")
        match response.find? fun entry => entry.tlvType == .proof with
        | none => Prog.fail (.unexpectedResponse "missing server proof in SRP response")
        | some proof =>
          if verifier.verifies proof.data then return verifier.key
          else Prog.fail (.remotePairing .srpAuthFailed)

end RemotePairingClient

def RpPairingFile.recreateSigningKeys (pairingFile : RpPairingFile) (signingKey : Vector UInt8 32) :
    RpPairingFile :=
  { pairingFile with
    ePublicKey := C.verifyingKey signingKey
    ePrivateKey := signingKey
    altIrk := none }

def setupEncryptionKey (encryptionKey : Bytes) : Vector UInt8 32 :=
  C.hkdf (some "Pair-Setup-Encrypt-Salt") encryptionKey "Pair-Setup-Encrypt-Info"

def msg05 : String := "\x00\x00\x00\x00PS-Msg05"

def msg06 : String := "\x00\x00\x00\x00PS-Msg06"

/-- What becomes of the entries of the device's last message. -/
def encryptedDataOf : List TLV8Entry → Bytes → Except IdeviceError Bytes
  | [], found => .ok found
  | entry :: rest, found =>
    match entry.tlvType with
    | .encryptedData => encryptedDataOf rest (found ++ entry.data)
    | .errorResponse => .error (.unexpectedResponse "TLV error response in pair record save")
    | _ => encryptedDataOf rest found

namespace RemotePairingClient

variable (client : RemotePairingClient)

def deviceInfo (pairingFile : RpPairingFile) : PlistValue :=
  .dictionary [
    ("altIRK", .data [0xe9, 0xe8, 0x2d, 0xc0, 0x6a, 0x49, 0x79, 0x6b, 0x56, 0x6f, 0x54, 0x00, 0x19,
      0xb1, 0xc7, 0x7b]),
    ("btAddr", .string "11:22:33:44:55:66"),
    ("mac", .data [0x11, 0x22, 0x33, 0x44, 0x55, 0x66]),
    ("remotepairing_serial_number", .string "AAAAAAAAAAAA"),
    ("accountID", .string pairingFile.identifier),
    ("model", .string "computer-model"),
    ("name", .string client.sendingHost)]

/-- The client's identity in M5. -/
def identityTlv (pairingFile : RpPairingFile) (encryptionKey : Bytes) : Bytes :=
  let hkdfOut := C.hkdf (some "Pair-Setup-Controller-Sign-Salt") encryptionKey
    "Pair-Setup-Controller-Sign-Info"
  let signbuf := hkdfOut.toList ++ asBytes pairingFile.identifier ++ pairingFile.ePublicKey.toList
  let signature := C.sign pairingFile.ePrivateKey signbuf
  serializeTlv8 [
    ⟨.identifier, asBytes pairingFile.identifier⟩,
    ⟨.publicKey, pairingFile.ePublicKey.toList⟩,
    ⟨.signature, signature.toList⟩,
    ⟨.info, plistToOpack (client.deviceInfo pairingFile)⟩]

/-- M5: the identity, encrypted. -/
def pairRecordRequest (pairingFile : RpPairingFile) (encryptionKey : Bytes) :
    Outcome IdeviceError Bytes :=
  match C.encrypt (setupEncryptionKey C encryptionKey) msg05
    (client.identityTlv C pairingFile encryptionKey) with
  | none => .failed (.remotePairing .chachaEncryption)
  | some ciphertext =>
    if ciphertext.length < 254 then .stopped
    else .done (serializeTlv8 [⟨.encryptedData, ciphertext.take 254⟩,
      ⟨.encryptedData, ciphertext.drop 254⟩, ⟨.state, [0x05]⟩])

end RemotePairingClient

/-- M6: the device's identity, decrypted. -/
def readPairRecord (encryptionKey : Bytes) (response : PlistValue) :
    Outcome IdeviceError (List TLV8Entry) :=
  match entriesOf P response "failed to deserialize pair record response bytes" with
  | .error error => .failed error
  | .ok entries =>
    match encryptedDataOf entries [] with
    | .error error => .failed error
    | .ok encrypted =>
      match C.decrypt (setupEncryptionKey C encryptionKey) msg06 encrypted with
      | none => .stopped
      | some plaintext =>
        match deserializeTlv8 plaintext with
        | .error error => .failed (.remotePairing (.tlv error))
        | .ok entries => .done entries

namespace RemotePairingClient

variable (client : RemotePairingClient)

def savePairRecordOnPeer (encryptionKey : Bytes) : Pairing (List TLV8Entry) := do
  Prog.modify fun session => { session with encryptionKey }
  Prog.modify fun session =>
    { session with pairingFile := session.pairingFile.recreateSigningKeys C client.signingKey }
  Prog.modify fun session => { session with
    clientCipher := C.hkdf none encryptionKey "ClientEncrypt-main"
    serverCipher := C.hkdf none encryptionKey "ServerEncrypt-main" }
  let session ← Prog.get
  let tlv ← ofOutcome (client.pairRecordRequest C session.pairingFile encryptionKey)
  sendPairingData (client.setupData P tlv false)
  let response ← receivePairingData
  ofOutcome (readPairRecord P C encryptionKey response)

def pair : Pairing Unit := do
  let (salt, publicKey, pin) ← client.requestPairConsent P
  let key ← client.initSrpContext P C salt publicKey pin
  let tlv ← client.savePairRecordOnPeer P C key
  let peerDevice ← ofExcept (parsePeerDeviceFromTlv tlv)
  Prog.modify fun session => { session with
    pairingFile := { session.pairingFile with altIrk := some peerDevice.altIrk }
    pairedPeerDevice := some peerDevice }

end RemotePairingClient

end Client

section Host

variable (P : Provider) (C : Crypto)

structure PairableHost where
  hostInfo : PairableHostInfo
  /-- What is drawn at random: the salt, a PIN, and the SRP secrets one after the other. -/
  salt : Vector UInt8 16
  pin : ℕ
  bs : List (Vector UInt8 32)

def attemptsPairVerify (handshake : PlistValue) : Bool :=
  match getPath ["hostOptions", "attemptPairVerify"] handshake with
  | some (.boolean value) => value
  | _ => false

/-- Returns an error if there is an `ErrorResponse`. -/
def ensureNoError (entries : List TLV8Entry) : Except IdeviceError Unit :=
  match entries.find? fun entry => entry.tlvType == .errorResponse with
  | some error => .error (.deviceError error.data)
  | none => .ok ()

def stateOf (entries : List TLV8Entry) : Option UInt8 :=
  (entries.find? fun entry => entry.tlvType == .state).bind fun entry => entry.data.head?

def expectState (entries : List TLV8Entry) (expected : UInt8) : Except IdeviceError Unit :=
  if stateOf entries = some expected then .ok () else .error (.state expected (stateOf entries))

/-- `{:06}`. -/
def sixDigits (number : ℕ) : String :=
  "".pushn '0' (6 - (toString number).length) ++ toString number

namespace PairableHost

variable (host : PairableHost)

def handshakeResponse : PlistValue :=
  let peerInfo : PlistValue := .dictionary [
    ("udid", .string host.hostInfo.udid),
    ("deviceKVSIncludesSensitiveInfo", .boolean false),
    ("identifier", .string host.hostInfo.identifier),
    ("name", .string host.hostInfo.name),
    ("model", .string host.hostInfo.model)]
  .dictionary [("response", .dictionary [
    ("forRequestIdentifier", .integer 0),
    ("_1", nested ["handshake", "_0"] (.dictionary [
      ("wireProtocolVersion", .integer host.hostInfo.wireProtocolVersion.toNat),
      ("minimumSupportedWireProtocolVersion", .integer 8),
      ("deviceOptions", .dictionary [
        ("allowsPairSetup", .boolean true),
        ("allowsPinlessPairing", .boolean host.hostInfo.allowsPinlessPairing),
        ("allowsIncomingTunnelConnections", .boolean false),
        ("allowsUpgradeOfLockdownPairings", .boolean false),
        ("allowsSharingSensitiveInfo", .boolean false)]),
      ("peerDeviceInfo", peerInfo)]))])]

def handshake : Pairing Unit := do
  let request ← recvPlain
  match getPath ["request", "_0", "handshake", "_0"] request with
  | none => Prog.fail (.unexpectedResponse
      "missing request._0.handshake._0 in device handshake")
  | some handshake =>
    if attemptsPairVerify handshake then
      Prog.fail (.unexpectedResponse
        "device requested pair-verify; only device-initiated pair-setup is supported")
    else sendPlain host.handshakeResponse

def sendPairingTlv (entries : List TLV8Entry) : Pairing Unit :=
  sendPairingData (.dictionary [
    ("data", P.serializeBytes (serializeTlv8 entries)),
    ("startNewSession", .boolean false),
    ("kind", .string "setupManualPairing")])

def recvPairingTlv : Pairing (List TLV8Entry) := do
  let response ← recvPlain
  match getPath ["event", "_0", "pairingData", "_0", "data"] response with
  | none => Prog.fail (.unexpectedResponse
      "missing event._0.pairingData._0.data in device message")
  | some data => ofExcept (entriesOf P data "failed to deserialize pairing data bytes")

/-- The setup code to show. -/
def setupCode : String :=
  if host.hostInfo.allowsPinlessPairing then "000000" else sixDigits host.pin

/-- M1 to M4: the session key, once the device has shown that it knows the PIN. -/
def agree : Pairing Bytes := do
  let m1 ← recvPairingTlv P
  ofExcept (expectState m1 1)
  let salt := host.salt.toList
  let verifier := C.computeVerifier (asBytes "Pair-Setup") (asBytes host.setupCode) salt
  match host.bs.find? fun b => (C.serverPublic b.toList verifier).length = 384 with
  | none => Prog.stop
  | some b =>
    sendPairingTlv P ([⟨.state, [0x02]⟩, ⟨.salt, salt⟩] ++
      chunkTlv .publicKey (C.serverPublic b.toList verifier))
    let m3 ← recvPairingTlv P
    ofExcept (ensureNoError m3)
    ofExcept (expectState m3 3)
    let aPub := collectComponentData m3 .publicKey
    let clientProof := collectComponentData m3 .proof
    if aPub = [] ∨ clientProof = [] then
      Prog.fail (.unexpectedResponse "pair-setup M3 missing public key or proof")
    else
      match C.serverReply b.toList verifier aPub (asBytes "Pair-Setup") salt with
      | none => Prog.fail (.remotePairing .srpAuthFailed)
      | some verifier =>
        if verifier.verifies clientProof then
          sendPairingTlv P [⟨.state, [0x04]⟩, ⟨.proof, verifier.proof⟩]
          return verifier.key
        else
          sendPairingTlv P [⟨.state, [0x04]⟩, ⟨.errorResponse, [0x02]⟩]
          Prog.fail (.remotePairing .srpAuthFailed)

/-- M5: the device's identity. -/
def receiveIdentity (sessionKey : Bytes) : Pairing PeerDevice := do
  let m5 ← recvPairingTlv P
  ofExcept (ensureNoError m5)
  ofExcept (expectState m5 5)
  match C.decrypt (setupEncryptionKey C sessionKey) msg05 (collectComponentData m5 .encryptedData) with
  | none => Prog.fail (.remotePairing .chachaEncryption)
  | some plaintext =>
    let deviceTlv ← ofExcept
      ((deserializeTlv8 plaintext).mapError fun error => .remotePairing (.tlv error))
    ofExcept (parsePeerDeviceFromTlv deviceTlv)

/-- M6: our identity. -/
def sendIdentity (sessionKey : Bytes) : Pairing Unit := do
  let session ← Prog.get
  match C.encrypt (setupEncryptionKey C sessionKey) msg06
    (buildAccessoryIdentityTlv C host.hostInfo session.pairingFile sessionKey) with
  | none => Prog.fail (.remotePairing .chachaEncryption)
  | some m6 => sendPairingTlv P (chunkTlv .encryptedData m6 ++ [⟨.state, [0x06]⟩])

def pairSetup : Pairing PeerDevice := do
  let sessionKey ← host.agree P C
  let peerDevice ← receiveIdentity P C sessionKey
  host.sendIdentity P C sessionKey
  Prog.modify fun session => { session with
    pairingFile := { session.pairingFile with altIrk := some peerDevice.altIrk }
    encryptionKey := sessionKey
    pairedPeerDevice := some peerDevice }
  return peerDevice

def accept : Pairing PeerDevice := do
  host.handshake
  host.pairSetup P C

end PairableHost

end Host

end XitForge.RemotePairing
