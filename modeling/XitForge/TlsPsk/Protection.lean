import Mathlib.Tactic.Common
import XitForge.TlsPsk.WriteRuns

/-!
What `decrypt_record` makes of a record body. Of what `encrypt_record` wrote it gives the
plaintext back. Of any other body it gives an error or content that the MAC verifies, but
it trusts the last byte: a padding that is longer than what was decrypted underflows, and
the bytes in front of the last one are not looked at.
-/
namespace XitForge.TlsPsk

open RustEval

section Keys

def KeyBlock.readKey (keys : KeyBlock) (isServer : Bool) : Bytes :=
  if isServer then keys.serverWriteKey else keys.clientWriteKey

def KeyBlock.macKey (keys : KeyBlock) (isServer : Bool) : Bytes :=
  if isServer then keys.serverMacKey else keys.clientMacKey

end Keys

section Decrypted

variable (P : Primitives) (keys : KeyBlock) (isServer : Bool) (seq : UInt64) (ct : UInt8)

/-- What CBC decryption gives for a record body, if it gives anything. -/
def cbcOf (encrypted : Bytes) : Option Bytes :=
  P.cbcDecrypt keys.suite (keys.readKey isServer) (encrypted.take 16) (encrypted.drop 16)

/-- What is in front of a padding that fits. -/
def contentOf (decrypted : Bytes) (last : UInt8) : Bytes :=
  decrypted.take (decrypted.length - (last.toNat + 1))

/-- The content ends with the MAC of what is in front of it. -/
def MacVerifies (content : Bytes) : Prop :=
  keys.suite.macKeyLen ≤ content.length ∧
    content.drop (content.length - keys.suite.macKeyLen) =
      computeMac P (keys.macKey isServer) seq ct
        (content.take (content.length - keys.suite.macKeyLen)) keys.suite

/-- `pad_value + 1` bytes at the end are all `pad_value`. -/
def WellPadded (decrypted : Bytes) : Prop :=
  ∃ content last, decrypted = content ++ List.replicate (UInt8.toNat last + 1) last

variable {P keys isServer seq ct} {encrypted decrypted : Bytes} {last : UInt8}

/-- A padding that does not fit underflows. -/
theorem decryptRecord_of_long (hlength : 16 ≤ encrypted.length)
    (hcbc : cbcOf P keys isServer encrypted = some decrypted)
    (hlast : decrypted.getLast? = some last)
    (hlong : decrypted.length < last.toNat + 1) :
    decryptRecord P keys isServer seq ct encrypted = .panic := by
  change P.cbcDecrypt keys.suite (if isServer then keys.serverWriteKey else keys.clientWriteKey)
    (encrypted.take 16) (encrypted.drop 16) = some decrypted at hcbc
  unfold decryptRecord
  simp only [Nat.not_lt.mpr hlength, if_false, hcbc, hlast, hlong, if_true]

/-- The slices of a padding that fits. -/
theorem decryptRecord_of_fits (hlength : 16 ≤ encrypted.length)
    (hcbc : cbcOf P keys isServer encrypted = some decrypted)
    (hlast : decrypted.getLast? = some last)
    (hfits : last.toNat + 1 ≤ decrypted.length) :
    decryptRecord P keys isServer seq ct encrypted =
      if (contentOf decrypted last).length < keys.suite.macKeyLen then
        .err (.internalError "Decrypted content too short for MAC")
      else if (contentOf decrypted last).drop
          ((contentOf decrypted last).length - keys.suite.macKeyLen) ≠
          computeMac P (keys.macKey isServer) seq ct ((contentOf decrypted last).take
            ((contentOf decrypted last).length - keys.suite.macKeyLen)) keys.suite then
        .err (.internalError "TLS MAC verification failed")
      else .ok ((contentOf decrypted last).take
        ((contentOf decrypted last).length - keys.suite.macKeyLen)) := by
  have hcontent : (contentOf decrypted last).length = decrypted.length - (last.toNat + 1) := by
    rw [contentOf, List.length_take]
    omega
  change P.cbcDecrypt keys.suite (if isServer then keys.serverWriteKey else keys.clientWriteKey)
    (encrypted.take 16) (encrypted.drop 16) = some decrypted at hcbc
  unfold decryptRecord
  simp only [Nat.not_lt.mpr hlength, if_false, hcbc, hlast, Nat.not_lt.mpr hfits, hcontent]
  by_cases hshort : decrypted.length - (last.toNat + 1) < keys.suite.macKeyLen
  · rw [if_pos hshort, if_pos hshort]
  · rw [if_neg hshort, if_neg hshort]
    have hplaintext : (contentOf decrypted last).take
        (decrypted.length - (last.toNat + 1) - keys.suite.macKeyLen) =
          decrypted.take (decrypted.length - (last.toNat + 1) - keys.suite.macKeyLen) := by
      rw [contentOf, List.take_take, Nat.min_eq_left (Nat.sub_le _ _)]
    have hmac : (contentOf decrypted last).drop
        (decrypted.length - (last.toNat + 1) - keys.suite.macKeyLen) =
          (decrypted.drop (decrypted.length - (last.toNat + 1) - keys.suite.macKeyLen)).take
            keys.suite.macKeyLen := by
      rw [contentOf, List.drop_take, Nat.sub_sub_self (Nat.not_lt.mp hshort)]
    rw [hplaintext, hmac]
    rfl

/-- A padding that fits: the MAC of the content decides. -/
theorem decryptRecord_eq_ok_iff (hlength : 16 ≤ encrypted.length)
    (hcbc : cbcOf P keys isServer encrypted = some decrypted)
    (hlast : decrypted.getLast? = some last)
    (hfits : last.toNat + 1 ≤ decrypted.length) :
    (∃ plaintext, decryptRecord P keys isServer seq ct encrypted = .ok plaintext) ↔
      MacVerifies P keys isServer seq ct (contentOf decrypted last) := by
  rw [decryptRecord_of_fits hlength hcbc hlast hfits]
  unfold MacVerifies
  split
  · rename_i hshort
    constructor
    · intro h
      obtain ⟨plaintext, hplaintext⟩ := h
      cases hplaintext
    · intro h
      obtain ⟨hlong, -⟩ := h
      exact absurd hshort (Nat.not_lt.mpr hlong)
  · rename_i hlong
    split
    · rename_i hmac
      constructor
      · intro h
        obtain ⟨plaintext, hplaintext⟩ := h
        cases hplaintext
      · intro h
        obtain ⟨-, hverified⟩ := h
        exact absurd hverified hmac
    · rename_i hmac
      exact ⟨fun _ => ⟨Nat.not_lt.mp hlong, not_not.mp hmac⟩, fun _ => ⟨_, rfl⟩⟩

/-- Nothing is decrypted of a body that is too short, or no whole number of blocks. -/
theorem decryptRecord_of_nothing
    (h : encrypted.length < 16 ∨ ∀ decrypted last, cbcOf P keys isServer encrypted = some decrypted →
      decrypted.getLast? ≠ some last) :
    ∃ error, decryptRecord P keys isServer seq ct encrypted = .err error := by
  unfold decryptRecord
  by_cases hshort : encrypted.length < 16
  · exact ⟨_, if_pos hshort⟩
  · rw [if_neg hshort]
    rcases h with hnot | hnothing
    · exact absurd hnot hshort
    cases hcbc : cbcOf P keys isServer encrypted with
    | none =>
      change P.cbcDecrypt keys.suite (if isServer then keys.serverWriteKey else keys.clientWriteKey)
        (encrypted.take 16) (encrypted.drop 16) = none at hcbc
      simp [hcbc]
    | some decrypted =>
      have hlast : decrypted.getLast? = none := by
        cases hlast : decrypted.getLast? with
        | none => rfl
        | some last => exact absurd hlast (hnothing decrypted last hcbc)
      change P.cbcDecrypt keys.suite (if isServer then keys.serverWriteKey else keys.clientWriteKey)
        (encrypted.take 16) (encrypted.drop 16) = some decrypted at hcbc
      simp [hcbc, hlast]

end Decrypted

section RoundTrip

/-- CBC decryption gives back what was encrypted under the same key and IV, for a whole
number of blocks. -/
def Primitives.InvertsCbc (P : Primitives) : Prop :=
  ∀ suite key iv data, 16 ∣ data.length →
    P.cbcDecrypt suite key iv (P.cbcEncrypt suite key iv data) = some data

/-- The number of padding bytes `encrypt_record` appends: never none of them. -/
def padLen (size : ℕ) : ℕ := 16 - size % 16

theorem padLen_pos (size : ℕ) : 0 < padLen size := by
  unfold padLen
  omega

theorem padLen_le (size : ℕ) : padLen size ≤ 16 := Nat.sub_le ..

theorem dvd_add_padLen (size : ℕ) : 16 ∣ size + padLen size := by
  unfold padLen
  omega

theorem toNat_padValue (size : ℕ) : (UInt8.ofNat (padLen size) - 1).toNat + 1 = padLen size := by
  have hpos := padLen_pos size
  have hle := padLen_le size
  have hone : (1 : UInt8) ≤ UInt8.ofNat (padLen size) := by
    rw [UInt8.le_iff_toNat_le, UInt8.toNat_ofNat']
    change 1 ≤ padLen size % 256
    omega
  rw [UInt8.toNat_sub_of_le _ _ hone, UInt8.toNat_ofNat']
  change padLen size % 256 - 1 + 1 = padLen size
  omega

variable {P : Primitives} {keys : KeyBlock} {isServer : Bool} {seq : UInt64} {ct : UInt8}
  {plaintext body : Bytes}

/-- The plaintext with its MAC. -/
def authenticated (P : Primitives) (keys : KeyBlock) (isServer : Bool) (seq : UInt64) (ct : UInt8)
    (plaintext : Bytes) : Bytes :=
  plaintext ++ computeMac P (keys.macKey isServer) seq ct plaintext keys.suite

/-- A record body that protects a plaintext: an IV of one block and, encrypted, the
plaintext with its MAC and a padding of any length that fills the last block. -/
def Protects (P : Primitives) (keys : KeyBlock) (isServer : Bool) (seq : UInt64) (ct : UInt8)
    (plaintext body : Bytes) : Prop :=
  ∃ (iv : Bytes) (pad : UInt8), iv.length = 16 ∧
    16 ∣ (authenticated P keys isServer seq ct plaintext ++
      List.replicate (pad.toNat + 1) pad).length ∧
    body = iv ++ P.cbcEncrypt keys.suite (keys.readKey isServer) iv
      (authenticated P keys isServer seq ct plaintext ++ List.replicate (pad.toNat + 1) pad)

/-- The padding is cut off, and what is in front of it is the plaintext with its MAC. -/
theorem Protects.decrypted (h : Protects P keys isServer seq ct plaintext body)
    (hcbc : P.InvertsCbc) :
    16 ≤ body.length ∧ ∃ decrypted last, cbcOf P keys isServer body = some decrypted ∧
      decrypted.getLast? = some last ∧ last.toNat + 1 ≤ decrypted.length ∧
      contentOf decrypted last = authenticated P keys isServer seq ct plaintext := by
  obtain ⟨iv, pad, hiv, hblocks, rfl⟩ := h
  constructor
  · rw [List.length_append]
    omega
  · refine ⟨authenticated P keys isServer seq ct plaintext ++ List.replicate (pad.toNat + 1) pad,
      pad, ?_, ?_, ?_, ?_⟩
    · unfold cbcOf
      rw [List.take_left' hiv, List.drop_left' hiv]
      exact hcbc _ _ _ _ hblocks
    · rw [List.getLast?_append_of_ne_nil _ (by simp), List.getLast?_replicate,
        if_neg (Nat.succ_ne_zero _)]
    · rw [List.length_append, List.length_replicate]
      omega
    · unfold contentOf
      rw [List.length_append, List.length_replicate, Nat.add_sub_cancel, List.take_left]

theorem authenticated_length : (authenticated P keys isServer seq ct plaintext).length =
    plaintext.length + keys.suite.macKeyLen := by
  unfold authenticated
  rw [List.length_append, computeMac_length]

theorem take_authenticated : (authenticated P keys isServer seq ct plaintext).take
    ((authenticated P keys isServer seq ct plaintext).length - keys.suite.macKeyLen) =
      plaintext := by
  rw [authenticated_length, Nat.add_sub_cancel]
  exact List.take_left

theorem drop_authenticated : (authenticated P keys isServer seq ct plaintext).drop
    ((authenticated P keys isServer seq ct plaintext).length - keys.suite.macKeyLen) =
      computeMac P (keys.macKey isServer) seq ct plaintext keys.suite := by
  rw [authenticated_length, Nat.add_sub_cancel]
  exact List.drop_left

theorem decryptRecord_of_protects (h : Protects P keys isServer seq ct plaintext body)
    (hcbc : P.InvertsCbc) : decryptRecord P keys isServer seq ct body = .ok plaintext := by
  obtain ⟨hlength, decrypted, last, hdecrypted, hlast, hfits, hcontent⟩ := h.decrypted hcbc
  have hlong : ¬ (authenticated P keys isServer seq ct plaintext).length <
      keys.suite.macKeyLen := by
    rw [authenticated_length]
    omega
  rw [decryptRecord_of_fits hlength hdecrypted hlast hfits, hcontent, if_neg hlong,
    drop_authenticated, take_authenticated]
  exact if_neg fun hne => hne rfl

/-- Under another number or another type the MAC may fail, but nothing else is read. -/
theorem Protects.eq_of_ok (h : Protects P keys isServer seq ct plaintext body)
    (hcbc : P.InvertsCbc) {seq' : UInt64} {ct' : UInt8} {plaintext' : Bytes}
    (hok : decryptRecord P keys isServer seq' ct' body = .ok plaintext') :
    plaintext' = plaintext := by
  obtain ⟨hlength, decrypted, last, hdecrypted, hlast, hfits, hcontent⟩ := h.decrypted hcbc
  rw [decryptRecord_of_fits hlength hdecrypted hlast hfits, hcontent] at hok
  split at hok
  · cases hok
  · split at hok
    · cases hok
    · rw [take_authenticated] at hok
      exact (Eval.ok.inj hok).symm

theorem protects_encryptRecord {iv : Bytes} (hiv : iv.length = 16) :
    Protects P keys false seq ct plaintext (encryptRecord P keys iv seq ct plaintext) := by
  have hpad := toNat_padValue (authenticated P keys false seq ct plaintext).length
  refine ⟨iv, UInt8.ofNat (padLen (authenticated P keys false seq ct plaintext).length) - 1, hiv,
    ?_, ?_⟩
  · rw [hpad, List.length_append, List.length_replicate]
    exact dvd_add_padLen _
  · rw [hpad]
    rfl

/-- Whatever the client protects, the same keys give back. -/
theorem decryptRecord_encryptRecord (P : Primitives) (keys : KeyBlock) (iv : Bytes)
    (seq : UInt64) (ct : UInt8) (plaintext : Bytes) (hiv : iv.length = 16)
    (hcbc : P.InvertsCbc) :
    decryptRecord P keys false seq ct (encryptRecord P keys iv seq ct plaintext) = .ok plaintext :=
  decryptRecord_of_protects (protects_encryptRecord hiv) hcbc

theorem decryptRecord_encryptRecord_plain :
    decryptRecord plainPrimitives plainKeys false 3 0x17
      (encryptRecord plainPrimitives plainKeys (List.replicate 16 0) 3 0x17 [1, 2, 3]) =
        .ok [1, 2, 3] :=
  decryptRecord_encryptRecord plainPrimitives plainKeys (List.replicate 16 0) 3 0x17 [1, 2, 3] rfl
    (fun _ _ _ _ _ => rfl)

end RoundTrip

section Totality

variable (P : Primitives) (keys : KeyBlock) (isServer : Bool) (seq : UInt64) (ct : UInt8)
  (encrypted : Bytes)

/-- The call does not panic and accepts only a well-formed padding, if and only if the
last byte asks for no more than was decrypted and a malformed padding is not MACed. -/
theorem decryptRecord_returns_iff :
    (decryptRecord P keys isServer seq ct encrypted).Returns (fun _ =>
      ∃ decrypted, cbcOf P keys isServer encrypted = some decrypted ∧ WellPadded decrypted) ↔
    ∀ decrypted last, 16 ≤ encrypted.length → cbcOf P keys isServer encrypted = some decrypted →
      decrypted.getLast? = some last → last.toNat + 1 ≤ decrypted.length ∧
        (WellPadded decrypted ∨ ¬ MacVerifies P keys isServer seq ct (contentOf decrypted last)) := by
  by_cases hany : 16 ≤ encrypted.length ∧ ∃ decrypted last,
      cbcOf P keys isServer encrypted = some decrypted ∧ decrypted.getLast? = some last
  · obtain ⟨hlength, decrypted, last, hcbc, hlast⟩ := hany
    constructor
    · intro hreturns decrypted' last' _ hcbc' hlast'
      rw [hcbc] at hcbc'
      cases hcbc'
      rw [hlast] at hlast'
      cases hlast'
      by_cases hfits : last.toNat + 1 ≤ decrypted.length
      · refine ⟨hfits, ?_⟩
        by_cases hmac : MacVerifies P keys isServer seq ct (contentOf decrypted last)
        · obtain ⟨plaintext, hok⟩ := (decryptRecord_eq_ok_iff hlength hcbc hlast hfits).mpr hmac
          rw [hok] at hreturns
          obtain ⟨decrypted', hcbc', hpadded⟩ := hreturns
          rw [hcbc] at hcbc'
          cases hcbc'
          exact Or.inl hpadded
        · exact Or.inr hmac
      · rw [decryptRecord_of_long hlength hcbc hlast (Nat.not_le.mp hfits)] at hreturns
        exact absurd hreturns id
    · intro hcondition
      obtain ⟨hfits, hpadded⟩ := hcondition decrypted last hlength hcbc hlast
      have hverified : (∃ plaintext, decryptRecord P keys isServer seq ct encrypted = .ok plaintext) ↔
          MacVerifies P keys isServer seq ct (contentOf decrypted last) :=
        decryptRecord_eq_ok_iff hlength hcbc hlast hfits
      cases hresult : decryptRecord P keys isServer seq ct encrypted with
      | ok plaintext =>
        have hmac := hverified.mp ⟨plaintext, hresult⟩
        exact ⟨decrypted, hcbc, hpadded.resolve_right fun hnot => hnot hmac⟩
      | err error => trivial
      | panic =>
        rw [decryptRecord_of_fits hlength hcbc hlast hfits] at hresult
        split at hresult
        · cases hresult
        · split at hresult <;> cases hresult
  · have hnothing : encrypted.length < 16 ∨ ∀ decrypted last,
        cbcOf P keys isServer encrypted = some decrypted → decrypted.getLast? ≠ some last := by
      by_cases hlength : 16 ≤ encrypted.length
      · refine Or.inr fun decrypted last hcbc hlast => ?_
        exact hany ⟨hlength, decrypted, last, hcbc, hlast⟩
      · exact Or.inl (Nat.not_le.mp hlength)
    obtain ⟨error, herror⟩ : ∃ error, decryptRecord P keys isServer seq ct encrypted = .err error :=
      decryptRecord_of_nothing hnothing
    rw [herror]
    refine iff_of_true trivial ?_
    intro decrypted last hlength hcbc hlast
    exact absurd ⟨hlength, decrypted, last, hcbc, hlast⟩ hany

end Totality

/-- One block of 0xFF bytes: the padding would be 256 bytes long. -/
theorem long_padding_panics :
    ¬ (decryptRecord plainPrimitives plainKeys true 1 0x17
      (List.replicate 16 0 ++ List.replicate 16 0xFF)).Returns (fun _ =>
        ∃ decrypted, cbcOf plainPrimitives plainKeys true
          (List.replicate 16 0 ++ List.replicate 16 0xFF) = some decrypted ∧
            WellPadded decrypted) := by
  have hpanic : decryptRecord plainPrimitives plainKeys true 1 0x17
      (List.replicate 16 0 ++ List.replicate 16 0xFF) = .panic := by decide
  rw [hpanic]
  exact id

end XitForge.TlsPsk
