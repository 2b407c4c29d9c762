import XitForge.RustEval
import Mathlib.Data.List.Basic

/-!
Key derivation and record protection of the TLS 1.2 PSK client. The digests,
the HMACs and the CBC modes come from external crates; they enter as the
fields of `Primitives`, with the output lengths that the client slices by.
-/
namespace XitForge.TlsPsk

open RustEval

abbrev Bytes := List UInt8

def TLS_MAX_PLAINTEXT : ℕ := 16384

def ctHandshake : UInt8 := 0x16
def ctChangeCipherSpec : UInt8 := 0x14
def ctApplicationData : UInt8 := 0x17
def ctAlert : UInt8 := 21
def hsClientHello : UInt8 := 0x01
def hsServerHello : UInt8 := 0x02
def hsServerHelloDone : UInt8 := 0x0E
def hsClientKeyExchange : UInt8 := 0x10
def hsFinished : UInt8 := 0x14

inductive CipherSuite where
  | aes128CbcSha
  | aes256CbcSha384
  deriving DecidableEq, Repr

/-- `PSK_CIPHER_SUITES`, in the order in which they are offered. -/
def pskCipherSuites : List (UInt8 × UInt8) := [(0x00, 0xAF), (0x00, 0x8C)]

namespace CipherSuite

def fromBytes : UInt8 × UInt8 → Option CipherSuite
  | (0x00, 0x8C) => some aes128CbcSha
  | (0x00, 0xAF) => some aes256CbcSha384
  | _ => none

def encKeyLen : CipherSuite → ℕ
  | aes128CbcSha => 16
  | aes256CbcSha384 => 32

def macKeyLen : CipherSuite → ℕ
  | aes128CbcSha => 20
  | aes256CbcSha384 => 48

end CipherSuite

/-- The hmac, sha1, sha2, aes and cbc crates. `cbcDecrypt` answers `none` for a
body that is not a whole number of blocks; it never changes the length. -/
structure Primitives where
  hmacSha1 : Bytes → Bytes → Bytes
  hmacSha256 : Bytes → Bytes → Bytes
  hmacSha384 : Bytes → Bytes → Bytes
  sha256 : Bytes → Bytes
  sha384 : Bytes → Bytes
  cbcEncrypt : CipherSuite → (key iv plaintext : Bytes) → Bytes
  cbcDecrypt : CipherSuite → (key iv ciphertext : Bytes) → Option Bytes
  hmacSha1_length : ∀ key data, (hmacSha1 key data).length = 20
  hmacSha256_length : ∀ key data, (hmacSha256 key data).length = 32
  hmacSha384_length : ∀ key data, (hmacSha384 key data).length = 48
  cbcEncrypt_length : ∀ suite key iv data, (cbcEncrypt suite key iv data).length = data.length
  cbcDecrypt_length : ∀ suite key iv data out,
    cbcDecrypt suite key iv data = some out → out.length = data.length

structure KeyBlock where
  clientMacKey : Bytes
  serverMacKey : Bytes
  clientWriteKey : Bytes
  serverWriteKey : Bytes
  suite : CipherSuite
  deriving DecidableEq, Repr

inductive IdeviceError where
  | internalError (message : String)
  | socket
  deriving DecidableEq, Repr

/-- `(n as u16).to_be_bytes()`: the length is truncated, as the cast does. -/
def be16 (n : ℕ) : Bytes := [UInt8.ofNat (n / 256), UInt8.ofNat n]

/-- The last three bytes of `(n as u32).to_be_bytes()`. -/
def be24 (n : ℕ) : Bytes := [UInt8.ofNat (n / 65536), UInt8.ofNat (n / 256), UInt8.ofNat n]

def be64 (n : UInt64) : Bytes :=
  [56, 48, 40, 32, 24, 16, 8, 0].map fun shift => UInt8.ofNat (n.toNat / 2 ^ shift)

@[simp] theorem be16_length (n : ℕ) : (be16 n).length = 2 := rfl

@[simp] theorem be24_length (n : ℕ) : (be24 n).length = 3 := rfl

/-- The ASCII bytes of a label of the key schedule. -/
def label (text : String) : Bytes := text.toList.map fun c => UInt8.ofNat c.toNat

section Protection

variable (P : Primitives)

def hmacCompute (key data : Bytes) : CipherSuite → Bytes
  | .aes128CbcSha => P.hmacSha256 key data
  | .aes256CbcSha384 => P.hmacSha384 key data

/-- The rounds of `P_hash` until `len` bytes are out; `fuel` bounds their number
and `prf` passes `len`, one round per byte at the very least. -/
def prfRounds (secret labelSeed : Bytes) (len : ℕ) (suite : CipherSuite) :
    ℕ → (a out : Bytes) → Bytes
  | 0, _, out => out
  | fuel + 1, a, out =>
    if out.length < len then
      prfRounds secret labelSeed len suite fuel (hmacCompute P secret a suite)
        (out ++ hmacCompute P secret (a ++ labelSeed) suite)
    else out

/-- TLS 1.2 PRF: `P_hash` with the suite's PRF hash. -/
def prf (secret lbl seed : Bytes) (len : ℕ) (suite : CipherSuite) : Bytes :=
  let labelSeed := lbl ++ seed
  (prfRounds P secret labelSeed len suite len (hmacCompute P secret labelSeed suite) []).take len

theorem hmacCompute_pos (key data : Bytes) (suite : CipherSuite) :
    0 < (hmacCompute P key data suite).length := by
  cases suite <;> simp [hmacCompute, P.hmacSha256_length, P.hmacSha384_length]

theorem le_prfRounds_length (secret labelSeed : Bytes) (len : ℕ) (suite : CipherSuite)
    (fuel : ℕ) (a out : Bytes) (h : len ≤ out.length + fuel) :
    len ≤ (prfRounds P secret labelSeed len suite fuel a out).length := by
  induction fuel generalizing a out with
  | zero => simpa [prfRounds] using h
  | succ fuel ih =>
    simp only [prfRounds]
    split
    · apply ih
      have hpos := hmacCompute_pos P secret (a ++ labelSeed) suite
      rw [List.length_append]
      omega
    · omega

/-- The PRF delivers as many bytes as it is asked for, so the slices of the key
block and the twelve bytes of verify_data are always there. -/
theorem prf_length (secret lbl seed : Bytes) (len : ℕ) (suite : CipherSuite) :
    (prf P secret lbl seed len suite).length = len := by
  simp only [prf, List.length_take]
  have h := le_prfRounds_length P secret (lbl ++ seed) len suite len
    (hmacCompute P secret (lbl ++ seed) suite) [] (by simp)
  omega

/-- PSK premaster secret (RFC 4279 §2). -/
def pskPremaster (psk : Bytes) : Bytes :=
  be16 psk.length ++ List.replicate psk.length 0 ++ be16 psk.length ++ psk

def deriveMasterSecret (psk clientRandom serverRandom : Bytes) (suite : CipherSuite) : Bytes :=
  prf P (pskPremaster psk) (label "master secret") (clientRandom ++ serverRandom) 48 suite

def deriveKeyBlock (master clientRandom serverRandom : Bytes) (suite : CipherSuite) : KeyBlock :=
  let macLen := suite.macKeyLen
  let keyLen := suite.encKeyLen
  let kb := prf P master (label "key expansion") (serverRandom ++ clientRandom)
    (macLen * 2 + keyLen * 2) suite
  { clientMacKey := kb.take macLen
    serverMacKey := (kb.drop macLen).take macLen
    clientWriteKey := (kb.drop (macLen * 2)).take keyLen
    serverWriteKey := (kb.drop (macLen * 2 + keyLen)).take keyLen
    suite := suite }

def computeMac (macKey : Bytes) (seq : UInt64) (ct : UInt8) (data : Bytes) :
    CipherSuite → Bytes :=
  let buf := be64 seq ++ [ct, 0x03, 0x03] ++ be16 data.length ++ data
  fun
  | .aes128CbcSha => P.hmacSha1 macKey buf
  | .aes256CbcSha384 => P.hmacSha384 macKey buf

theorem computeMac_length (macKey : Bytes) (seq : UInt64) (ct : UInt8) (data : Bytes)
    (suite : CipherSuite) : (computeMac P macKey seq ct data suite).length = suite.macKeyLen := by
  cases suite <;> simp [computeMac, CipherSuite.macKeyLen, P.hmacSha1_length, P.hmacSha384_length]

/-- The random IV of the source is the argument `iv`. -/
def encryptRecord (keys : KeyBlock) (iv : Bytes) (seq : UInt64) (ct : UInt8)
    (plaintext : Bytes) : Bytes :=
  let mac := computeMac P keys.clientMacKey seq ct plaintext keys.suite
  let payload := plaintext ++ mac
  let padLen := 16 - payload.length % 16
  let padded := payload ++ List.replicate padLen (UInt8.ofNat padLen - 1)
  iv ++ P.cbcEncrypt keys.suite keys.clientWriteKey iv padded

/-- The three subtractions and slices follow the source: a padding byte that
claims more than was decrypted underflows `content_len` and panics. -/
def decryptRecord (keys : KeyBlock) (isServer : Bool) (seq : UInt64) (ct : UInt8)
    (encrypted : Bytes) : Eval IdeviceError Bytes :=
  if encrypted.length < 16 then .err (.internalError "TLS record too short")
  else
    let iv := encrypted.take 16
    let ciphertext := encrypted.drop 16
    let readKey := if isServer then keys.serverWriteKey else keys.clientWriteKey
    let macKey := if isServer then keys.serverMacKey else keys.clientMacKey
    match P.cbcDecrypt keys.suite readKey iv ciphertext with
    | none => .err (.internalError "CBC decrypt: unpad error")
    | some decrypted =>
      match decrypted.getLast? with
      | none => .err (.internalError "Empty decrypted data")
      | some last =>
        let padValue := last.toNat
        if decrypted.length < padValue + 1 then .panic
        else
          let contentLen := decrypted.length - (padValue + 1)
          let macLen := keys.suite.macKeyLen
          if contentLen < macLen then
            .err (.internalError "Decrypted content too short for MAC")
          else
            let plaintext := decrypted.take (contentLen - macLen)
            let receivedMac := (decrypted.drop (contentLen - macLen)).take macLen
            if receivedMac ≠ computeMac P macKey seq ct plaintext keys.suite then
              .err (.internalError "TLS MAC verification failed")
            else .ok plaintext

def finishedVerifyData (master lbl transcript : Bytes) (suite : CipherSuite) : Bytes :=
  let hash := match suite with
    | .aes128CbcSha => P.sha256 transcript
    | .aes256CbcSha384 => P.sha384 transcript
  prf P master lbl hash 12 suite

end Protection

def makeRecord (ct : UInt8) (payload : Bytes) : Bytes :=
  [ct, 0x03, 0x03] ++ be16 payload.length ++ payload

def makeHandshake (msgType : UInt8) (body : Bytes) : Bytes :=
  [msgType] ++ be24 body.length ++ body

end XitForge.TlsPsk
