import XitForge.RemotePairing.OpackRoundTrip
import XitForge.RemotePairing.Tlv

/-!
The identity that a pairable host sends in M6, and the one that its receiver reads. The
OPACK blob is one TLV8 entry: it is not chunked, and comes back as long as the host's
names leave it at most 255 bytes.
-/
namespace XitForge.RemotePairing

open Xpc (PlistValue asBytes)

section Model

inductive RemotePairingError where
  | tlv (error : TlvError)
  | pairingRejected (context : String)
  | pairVerifyFailed
  | srpAuthFailed
  | chachaEncryption
  deriving DecidableEq, Repr

inductive IdeviceError where
  | unexpectedResponse (message : String)
  /-- `failed to parse OPACK info payload from pair record response` -/
  | infoPayload (error : OpackError)
  /-- `invalid altIRK length in peer device info: expected 16 bytes` -/
  | altIrkLength (len : ℕ)
  /-- `device returned pairing error` -/
  | deviceError (data : Bytes)
  /-- `unexpected pair-setup state` -/
  | state (expected : UInt8) (got : Option UInt8)
  | remotePairing (error : RemotePairingError)
  | socket
  deriving DecidableEq, Repr

/-- An SRP reply that was processed: the session key, our proof, and the check of theirs. -/
structure SrpVerifier where
  key : Bytes
  proof : Bytes
  verifies : Bytes → Bool

/-- What pairing takes from other crates. -/
structure Crypto where
  /-- `Hkdf::<Sha512>::new(salt, key).expand(info)`. -/
  hkdf (salt : Option String) (key : Bytes) (info : String) : Vector UInt8 32
  sign (key : Vector UInt8 32) (message : Bytes) : Vector UInt8 64
  /-- `VerifyingKey::from`. -/
  verifyingKey (key : Vector UInt8 32) : Vector UInt8 32
  encrypt (key : Vector UInt8 32) (nonce : String) (message : Bytes) : Option Bytes
  decrypt (key : Vector UInt8 32) (nonce : String) (message : Bytes) : Option Bytes
  /-- `compute_public_ephemeral` and `process_reply` of the SRP client. -/
  clientPublic (secret : Bytes) : Bytes
  clientReply (secret username password salt publicKey : Bytes) : Option SrpVerifier
  /-- `compute_verifier`, and the SRP server's. -/
  computeVerifier (username password salt : Bytes) : Bytes
  serverPublic (secret verifier : Bytes) : Bytes
  serverReply (secret verifier publicKey username salt : Bytes) : Option SrpVerifier

structure RpPairingFile where
  ePrivateKey : Vector UInt8 32
  ePublicKey : Vector UInt8 32
  identifier : String
  altIrk : Option Bytes
  deriving DecidableEq

structure PairableHostInfo where
  name : String
  model : String
  udid : String
  identifier : String
  wireProtocolVersion : UInt8
  altIrk : Vector UInt8 16
  allowsPinlessPairing : Bool

structure PeerDevice where
  accountId : String
  altIrk : Bytes
  model : String
  name : String
  remotepairingUdid : String
  deriving DecidableEq, Repr

/-- `Dictionary::get`. -/
def getEntry (entries : List (String × PlistValue)) (key : String) : Option PlistValue :=
  (entries.find? fun entry => entry.1 == key).map Prod.snd

def requiredStringField (dict : List (String × PlistValue)) (key : String) :
    Except IdeviceError String :=
  match getEntry dict key with
  | some (.string value) => .ok value
  | _ => .error (.unexpectedResponse ("missing string field `" ++ key ++ "` in peer device info"))

def requiredDataField (dict : List (String × PlistValue)) (key : String) :
    Except IdeviceError Bytes :=
  match getEntry dict key with
  | some (.data value) => .ok value
  | _ => .error (.unexpectedResponse ("missing data field `" ++ key ++ "` in peer device info"))

def tryFromInfoDictionary (dict : List (String × PlistValue)) : Except IdeviceError PeerDevice := do
  let altIrk ← requiredDataField dict "altIRK"
  if altIrk.length ≠ 16 then .error (.altIrkLength altIrk.length)
  else do
    let accountId ← requiredStringField dict "accountID"
    let model ← requiredStringField dict "model"
    let name ← requiredStringField dict "name"
    let remotepairingUdid ← requiredStringField dict "remotepairing_udid"
    return ⟨accountId, altIrk, model, name, remotepairingUdid⟩

def parseInfoDictionaryFromTlv (entries : List TLV8Entry) :
    Except IdeviceError (List (String × PlistValue)) :=
  if containsComponent entries .errorResponse then
    .error (.unexpectedResponse "TLV error response in pair record save")
  else
    let info := collectComponentData entries .info
    if info = [] then
      .error (.unexpectedResponse "missing info payload in pair record response")
    else match opackToPlist info with
      | .error error => .error (.infoPayload error)
      | .ok (.dictionary dict) => .ok dict
      | .ok _ => .error (.unexpectedResponse "info OPACK payload is not a dictionary")

def parsePeerDeviceFromTlv (entries : List TLV8Entry) : Except IdeviceError PeerDevice := do
  let info ← parseInfoDictionaryFromTlv entries
  tryFromInfoDictionary info

/-- The info that goes into the accessory's identity. -/
def accessoryInfo (hostInfo : PairableHostInfo) (pairingFile : RpPairingFile) : PlistValue :=
  .dictionary [
    ("altIRK", .data hostInfo.altIrk.toList),
    ("btAddr", .string "11:22:33:44:55:66"),
    ("mac", .data [0x11, 0x22, 0x33, 0x44, 0x55, 0x66]),
    ("remotepairing_serial_number", .string "AAAAAAAAAAAA"),
    ("accountID", .string pairingFile.identifier),
    ("remotepairing_udid", .string hostInfo.udid),
    ("model", .string hostInfo.model),
    ("name", .string hostInfo.name)]

def buildAccessoryIdentityTlv (C : Crypto) (hostInfo : PairableHostInfo)
    (pairingFile : RpPairingFile) (sessionKey : Bytes) : Bytes :=
  let accessoryX := C.hkdf (some "Pair-Setup-Accessory-Sign-Salt") sessionKey
    "Pair-Setup-Accessory-Sign-Info"
  let ltpk := pairingFile.ePublicKey.toList
  let signbuf := accessoryX.toList ++ asBytes pairingFile.identifier ++ ltpk
  let signature := C.sign pairingFile.ePrivateKey signbuf
  serializeTlv8 [
    ⟨.identifier, asBytes pairingFile.identifier⟩,
    ⟨.publicKey, ltpk⟩,
    ⟨.signature, signature.toList⟩,
    ⟨.info, plistToOpack (accessoryInfo hostInfo pairingFile)⟩]

end Model

variable (hostInfo : PairableHostInfo) (pairingFile : RpPairingFile)

/-- What the four names take in OPACK leaves the info at 255 bytes or less. -/
def InfoFits : Prop :=
  (encodeString pairingFile.identifier).length + (encodeString hostInfo.udid).length +
    (encodeString hostInfo.model).length + (encodeString hostInfo.name).length ≤ 113

theorem accessoryInfo_length :
    (plistToOpack (accessoryInfo hostInfo pairingFile)).length = 142 +
      ((encodeString pairingFile.identifier).length + (encodeString hostInfo.udid).length +
        (encodeString hostInfo.model).length + (encodeString hostInfo.name).length) := by
  have hirk : hostInfo.altIrk.toList.length = 16 := hostInfo.altIrk.length_toList
  have hsized : (sizedLen dataTags 16).length = 1 ∧ (sizedLen dataTags 6).length = 1 := by decide
  have hkeys : (encodeString "altIRK").length = 7 ∧ (encodeString "btAddr").length = 7 ∧
      (encodeString "mac").length = 4 ∧ (encodeString "remotepairing_serial_number").length = 28 ∧
        (encodeString "accountID").length = 10 ∧ (encodeString "remotepairing_udid").length = 19 ∧
          (encodeString "model").length = 6 ∧ (encodeString "name").length = 5 := by decide
  have hvalues : (encodeString "11:22:33:44:55:66").length = 18 ∧
      (encodeString "AAAAAAAAAAAA").length = 13 := by decide
  obtain ⟨hirkKey, hbtKey, hmacKey, hserialKey, haccountKey, hudidKey, hmodelKey, hnameKey⟩ := hkeys
  obtain ⟨hbt, hserial⟩ := hvalues
  have hterminator : (terminator (countOf 8)).length = 0 := rfl
  unfold accessoryInfo
  rw [plistToOpack]
  simp only [encodeEntries, encodeEntry, plistToOpack, List.length_cons, List.length_nil,
    List.length_append, hirk, Nat.zero_add, Nat.reduceAdd]
  omega

theorem plain_of_encodeString {text : String} {size : ℕ} (h : (encodeString text).length ≤ size)
    (hsize : size < 2 ^ 64) : Plain (.string text) := by
  unfold encodeString at h
  rw [List.length_append] at h
  exact .string text (by omega)

theorem accessoryInfo_decodes (h : InfoFits hostInfo pairingFile) :
    opackToPlist (plistToOpack (accessoryInfo hostInfo pairingFile)) =
      .ok (accessoryInfo hostInfo pairingFile) := by
  unfold InfoFits at h
  have hirk : hostInfo.altIrk.toList.length = 16 := hostInfo.altIrk.length_toList
  have haccount : Plain (.string pairingFile.identifier) := plain_of_encodeString (by omega) (by omega : 113 < 2 ^ 64)
  have hudid : Plain (.string hostInfo.udid) := plain_of_encodeString (by omega) (by omega : 113 < 2 ^ 64)
  have hmodel : Plain (.string hostInfo.model) := plain_of_encodeString (by omega) (by omega : 113 < 2 ^ 64)
  have hname : Plain (.string hostInfo.name) := plain_of_encodeString (by omega) (by omega : 113 < 2 ^ 64)
  have hkeys : ["altIRK", "btAddr", "mac", "remotepairing_serial_number", "accountID",
    "remotepairing_udid", "model", "name"].Nodup := by decide
  apply opackToPlist_of_plain
  · refine .dictionary _ hkeys ?_ ?_
    · have hlengths : ∀ key ∈ ["altIRK", "btAddr", "mac", "remotepairing_serial_number", "accountID",
          "remotepairing_udid", "model", "name"], (asBytes key).length < 2 ^ 64 := by decide
      intro entry hentry
      exact hlengths entry.1 (List.mem_map_of_mem hentry)
    · intro entry hentry
      simp only [List.mem_cons, List.not_mem_nil, or_false] at hentry
      rcases hentry with rfl | rfl | rfl | rfl | rfl | rfl | rfl | rfl
      · exact .data _ (by rw [hirk]; omega)
      · exact .string _ (by decide)
      · exact .data _ (by decide)
      · exact .string _ (by decide)
      · exact haccount
      · exact hudid
      · exact hmodel
      · exact hname
  · intro len hlen hcut
    have height : len = 8 := by
      simpa [accessoryInfo, collections, collectionsOfEntries, collectionsOfEntry] using hlen
    unfold CutOff at hcut
    omega

/-- The fields that are read from the info are the ones that went in. -/
theorem tryFrom_accessoryInfo {dict : List (String × PlistValue)}
    (h : accessoryInfo hostInfo pairingFile = .dictionary dict) :
    tryFromInfoDictionary dict = .ok ⟨pairingFile.identifier, hostInfo.altIrk.toList, hostInfo.model,
      hostInfo.name, hostInfo.udid⟩ := by
  cases h
  have hirk : hostInfo.altIrk.toList.length = 16 := hostInfo.altIrk.length_toList
  show (if hostInfo.altIrk.toList.length ≠ 16 then _ else _) = _
  rw [if_neg (by omega)]
  rfl

variable (C : Crypto) (sessionKey : Bytes)

/-- The entries of the identity in front of the info. -/
def ownEntries : List TLV8Entry :=
  let accessoryX := C.hkdf (some "Pair-Setup-Accessory-Sign-Salt") sessionKey
    "Pair-Setup-Accessory-Sign-Info"
  let ltpk := pairingFile.ePublicKey.toList
  [⟨.identifier, asBytes pairingFile.identifier⟩, ⟨.publicKey, ltpk⟩,
    ⟨.signature, (C.sign pairingFile.ePrivateKey
      (accessoryX.toList ++ asBytes pairingFile.identifier ++ ltpk)).toList⟩]

def infoEntry : TLV8Entry := ⟨.info, plistToOpack (accessoryInfo hostInfo pairingFile)⟩

theorem identity_entries : buildAccessoryIdentityTlv C hostInfo pairingFile sessionKey =
    serializeTlv8 (ownEntries pairingFile C sessionKey ++ [infoEntry hostInfo pairingFile]) := rfl

theorem ownEntries_short (h : (asBytes pairingFile.identifier).length ≤ 255) :
    ∀ entry ∈ ownEntries pairingFile C sessionKey, entry.data.length ≤ 255 := by
  intro entry hentry
  simp only [ownEntries, List.mem_cons, List.not_mem_nil, or_false] at hentry
  rcases hentry with rfl | rfl | rfl
  · exact h
  · rw [Vector.length_toList]
    omega
  · rw [Vector.length_toList]
    omega

/-- The identity is read as its first entries, and whatever the info is read as. -/
theorem identity_read (h : (asBytes pairingFile.identifier).length ≤ 255) :
    deserializeTlv8 (buildAccessoryIdentityTlv C hostInfo pairingFile sessionKey) =
      (deserializeTlv8 (serializeTlv8 [infoEntry hostInfo pairingFile])).map
        (ownEntries pairingFile C sessionKey ++ ·) := by
  rw [identity_entries, serializeTlv8_append,
    deserializeTlv8_append (ownEntries_short pairingFile C sessionKey h)]

theorem identity_info (entries : List TLV8Entry) :
    collectComponentData (ownEntries pairingFile C sessionKey ++ entries) .info =
      collectComponentData entries .info := by
  rw [collect_append]
  rfl

theorem identity_parses (h : InfoFits hostInfo pairingFile) :
    parsePeerDeviceFromTlv (ownEntries pairingFile C sessionKey ++ [infoEntry hostInfo pairingFile]) =
      .ok ⟨pairingFile.identifier, hostInfo.altIrk.toList, hostInfo.model, hostInfo.name,
        hostInfo.udid⟩ := by
  have hinfo : collectComponentData
      (ownEntries pairingFile C sessionKey ++ [infoEntry hostInfo pairingFile]) .info =
        plistToOpack (accessoryInfo hostInfo pairingFile) := by
    rw [identity_info]
    exact List.append_nil _
  have hne : plistToOpack (accessoryInfo hostInfo pairingFile) ≠ [] := by
    have hlength := accessoryInfo_length hostInfo pairingFile
    intro hnil
    rw [hnil, List.length_nil] at hlength
    omega
  have hnoError : containsComponent
      (ownEntries pairingFile C sessionKey ++ [infoEntry hostInfo pairingFile])
        .errorResponse = false := rfl
  unfold parsePeerDeviceFromTlv parseInfoDictionaryFromTlv
  rw [hnoError, hinfo]
  simp only [Bool.false_eq_true, if_false, if_neg hne, accessoryInfo_decodes hostInfo pairingFile h]
  exact tryFrom_accessoryInfo hostInfo pairingFile rfl

/-- The info comes back, and with it the device that the host and its pairing file say,
exactly when the names leave it short enough for one entry. -/
theorem identity_survives (h : (asBytes pairingFile.identifier).length ≤ 255) :
    (∃ entries,
      deserializeTlv8 (buildAccessoryIdentityTlv C hostInfo pairingFile sessionKey) = .ok entries ∧
        collectComponentData entries .info = plistToOpack (accessoryInfo hostInfo pairingFile) ∧
          parsePeerDeviceFromTlv entries = .ok ⟨pairingFile.identifier, hostInfo.altIrk.toList,
            hostInfo.model, hostInfo.name, hostInfo.udid⟩) ↔
      InfoFits hostInfo pairingFile := by
  have hlength := accessoryInfo_length hostInfo pairingFile
  rw [identity_read hostInfo pairingFile C sessionKey h]
  constructor
  · intro ⟨entries, hread, hinfo, _⟩
    by_contra hfits
    have hlong : 255 < (infoEntry hostInfo pairingFile).data.length := by
      unfold InfoFits at hfits
      show 255 < (plistToOpack (accessoryInfo hostInfo pairingFile)).length
      omega
    cases hrest : deserializeTlv8 (serializeTlv8 [infoEntry hostInfo pairingFile]) with
    | error error =>
      rw [hrest] at hread
      cases hread
    | ok found =>
      rw [hrest] at hread
      cases hread
      rw [identity_info] at hinfo
      exact collect_ne_of_long hlong hrest hinfo
  · intro hfits
    have hshort : (infoEntry hostInfo pairingFile).data.length ≤ 255 := by
      unfold InfoFits at hfits
      show (plistToOpack (accessoryInfo hostInfo pairingFile)).length ≤ 255
      omega
    have hone := deserializeTlv8_entry hshort []
    rw [List.append_nil] at hone
    rw [hone]
    refine ⟨ownEntries pairingFile C sessionKey ++ [infoEntry hostInfo pairingFile], rfl, ?_,
      identity_parses hostInfo pairingFile C sessionKey hfits⟩
    rw [identity_info]
    exact List.append_nil _

/-- An info of 256 bytes has the length byte 0, and its first byte is no type. -/
theorem identity_of_256 (h : (asBytes pairingFile.identifier).length ≤ 255)
    (hinfo : (plistToOpack (accessoryInfo hostInfo pairingFile)).length = 256) :
    deserializeTlv8 (buildAccessoryIdentityTlv C hostInfo pairingFile sessionKey) =
      .error (.unknownTlv 0xE8) := by
  obtain ⟨more, hmore⟩ : ∃ more, plistToOpack (accessoryInfo hostInfo pairingFile) =
      0xE8 :: 0x46 :: more := ⟨_, rfl⟩
  have hserialized : serializeTlv8 [infoEntry hostInfo pairingFile] =
      0x11 :: 0x00 :: 0xE8 :: 0x46 :: more := by
    show (0x11 : UInt8) :: UInt8.ofNat (plistToOpack (accessoryInfo hostInfo pairingFile)).length ::
      (plistToOpack (accessoryInfo hostInfo pairingFile) ++ []) = _
    rw [hinfo, List.append_nil, hmore]
    rfl
  have hlength : more.length = 254 := by
    rw [hmore, List.length_cons, List.length_cons] at hinfo
    omega
  have hrest : deserializeTlv8 (0xE8 :: 0x46 :: more) = .error (.unknownTlv 0xE8) := by
    rw [deserializeTlv8_cons, if_neg (by rw [hlength]; decide)]
    rfl
  have hzero : (0x00 : UInt8).toNat = 0 := rfl
  rw [identity_read hostInfo pairingFile C sessionKey h, hserialized, deserializeTlv8_cons, hzero,
    if_neg (Nat.not_lt_zero _)]
  show Except.map _ (Except.map _ (deserializeTlv8 (0xE8 :: 0x46 :: more))) = _
  rw [hrest]
  rfl

section Samples

/-- Ciphers that only append and take off a tag, and proofs that are all accepted. -/
def openCrypto : Crypto where
  hkdf _ _ _ := Vector.replicate 32 0
  sign _ _ := Vector.replicate 64 0
  verifyingKey key := key
  encrypt _ _ message := some (message ++ List.replicate 16 0)
  decrypt _ _ message :=
    if 16 ≤ message.length then some (message.take (message.length - 16)) else none
  clientPublic _ := List.replicate 384 1
  clientReply _ _ _ _ _ := some ⟨List.replicate 64 2, List.replicate 64 3, fun _ => true⟩
  computeVerifier _ _ _ := List.replicate 384 4
  serverPublic _ _ := List.replicate 384 5
  serverReply _ _ _ _ _ := some ⟨List.replicate 64 2, List.replicate 64 3, fun _ => true⟩

def samplePairingFile : RpPairingFile :=
  ⟨Vector.replicate 32 7, Vector.replicate 32 7, "2BE6E510-0325-4365-923E-B14C6F57DB3A", none⟩

def namedHost (name : String) : PairableHostInfo :=
  ⟨name, "Mac17,7", "", "", 26, Vector.replicate 16 0, false⟩

/-- A name of 44 bytes is read back. -/
theorem short_name_survives :
    ∃ entries,
      deserializeTlv8 (buildAccessoryIdentityTlv openCrypto
        (namedHost "MacBook Pro in the meeting room on floor two") samplePairingFile []) = .ok entries ∧
        collectComponentData entries .info = plistToOpack (accessoryInfo
          (namedHost "MacBook Pro in the meeting room on floor two") samplePairingFile) ∧
          parsePeerDeviceFromTlv entries = .ok ⟨"2BE6E510-0325-4365-923E-B14C6F57DB3A",
            (Vector.replicate 16 0).toList, "Mac17,7",
              "MacBook Pro in the meeting room on floor two", ""⟩ :=
  (identity_survives (namedHost "MacBook Pro in the meeting room on floor two") samplePairingFile
    openCrypto [] (by decide)).mpr (by unfold InfoFits; decide)

/-- One of 65 bytes makes an info of 256 bytes, and the identity is not read at all. -/
theorem long_name_lost :
    (asBytes samplePairingFile.identifier).length ≤ 255 ∧
      ¬ ∃ entries device,
        deserializeTlv8 (buildAccessoryIdentityTlv openCrypto
          (namedHost "MacBook Pro in the meeting room on floor two, next to the kitchen")
            samplePairingFile []) = .ok entries ∧
          parsePeerDeviceFromTlv entries = .ok device := by
  have hid : (asBytes samplePairingFile.identifier).length ≤ 255 := by decide
  refine ⟨hid, ?_⟩
  intro ⟨entries, device, hread, _⟩
  have hnames :
      (encodeString samplePairingFile.identifier).length + (encodeString "").length +
        (encodeString "Mac17,7").length +
          (encodeString "MacBook Pro in the meeting room on floor two, next to the kitchen").length =
            114 := by decide
  have hinfo := accessoryInfo_length
    (namedHost "MacBook Pro in the meeting room on floor two, next to the kitchen") samplePairingFile
  have hlost := identity_of_256
    (namedHost "MacBook Pro in the meeting room on floor two, next to the kitchen") samplePairingFile
    openCrypto [] hid (hinfo.trans (congrArg (142 + ·) hnames))
  rw [hlost] at hread
  cases hread

end Samples

end XitForge.RemotePairing
