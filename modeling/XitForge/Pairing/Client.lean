import Mathlib.Algebra.Ring.Nat
import Mathlib.Data.Fintype.Card
import Mathlib.Data.List.Nodup

/-!
`RemotePairingClient::send_receive_encrypted_request` and the nonces it uses.
The ciphers, serde and the socket provider are parameters; the socket keeps the
ciphertexts that were handed to `send_encrypted`. The counter that makes the
nonce moves only after a response was decrypted, so a call that hands over a
ciphertext and leaves before that passes its nonce on to the next one.
-/
namespace XitForge.Pairing

abbrev Bytes := List UInt8

/-- `plist::Value`; the scalars that this code never looks into are `other`. -/
inductive Value where
  | dictionary (entries : List (String × Value))
  | data (bytes : Bytes)
  | string (text : String)
  | other (tag : ℕ)

/-- `PlistExt::get_by`. -/
def Value.getBy (key : String) : Value → Option Value
  | .dictionary entries => (entries.find? fun entry => entry.1 == key).map Prod.snd
  | _ => none

inductive IdeviceError where
  | internalError (message : String)
  | unexpectedResponse (message : String)
  | chachaEncryption
  | socket
  deriving DecidableEq, Repr

/-- ChaCha20-Poly1305 under one key. -/
structure Cipher where
  encrypt : (nonce plaintext : Bytes) → Option Bytes
  decrypt : (nonce ciphertext : Bytes) → Option Bytes

/-- serde_json with `plist::to_value`, and the provider's `deserialize_bytes`. -/
structure Services where
  toVec : Value → Except String Bytes
  fromSlice : Bytes → Except String Value
  deserializeBytes : Value → Option Bytes

/-- What `send_encrypted` was called with. -/
structure Handed where
  nonce : Bytes
  ciphertext : Bytes
  seq : UInt64
  deriving DecidableEq, Repr

structure Client where
  inner : List Handed
  sequenceNumber : UInt64
  encryptedSequenceNumber : UInt64
  clientCipher : Cipher
  serverCipher : Cipher

/-- How an awaited operation ends; `dropped` is a caller that drops the future. -/
inductive Awaited (α : Type) where
  | ready (value : α)
  | failed (error : IdeviceError)
  | dropped

/-- A request, and what the socket answers to the send and to the receive. -/
structure Call where
  request : Value
  sent : Awaited Unit
  received : Awaited Value

inductive Outcome where
  | ok (value : Value)
  | err (error : IdeviceError)
  | dropped

/-- The `count` low bytes of a number, lowest first. -/
def leBytes : ℕ → ℕ → Bytes
  | 0, _ => []
  | count + 1, n => UInt8.ofNat n :: leBytes count (n / 256)

/-- The 8-byte LE sequence number and 4 zero bytes. -/
def nonceBytes (number : UInt64) : Bytes := leBytes 8 number.toNat ++ List.replicate 4 0

def Client.nonce (client : Client) : Bytes := nonceBytes client.encryptedSequenceNumber

def encryptedData (S : Services) (response : Value) : Option Bytes :=
  (response.getBy "message").bind fun m =>
    (m.getBy "streamEncrypted").bind fun s => (s.getBy "_0").bind S.deserializeBytes

def responseValue (value : Value) : Option Value :=
  (value.getBy "response").bind fun r => r.getBy "_1"

def sendReceiveEncryptedRequest (S : Services) (client : Client) (call : Call) :
    Outcome × Client :=
  match S.toVec call.request with
  | .error text => (.err (.internalError text), client)
  | .ok plaintext =>
    let nonce := client.nonce
    match client.clientCipher.encrypt nonce plaintext with
    | none => (.err .chachaEncryption, client)
    | some ciphertext =>
      let client := { client with
        inner := client.inner ++ [⟨nonce, ciphertext, client.sequenceNumber⟩] }
      match call.sent with
      | .failed error => (.err error, client)
      | .dropped => (.dropped, client)
      | .ready () =>
        let client := { client with sequenceNumber := client.sequenceNumber + 1 }
        match call.received with
        | .failed error => (.err error, client)
        | .dropped => (.dropped, client)
        | .ready response =>
          match encryptedData S response with
          | none => (.err (.unexpectedResponse
              "missing encrypted data in streamEncrypted response"), client)
          | some encrypted =>
            match client.serverCipher.decrypt nonce encrypted with
            | none => (.err .chachaEncryption, client)
            | some decrypted =>
              let client := { client with
                encryptedSequenceNumber := client.encryptedSequenceNumber + 1 }
              match S.fromSlice decrypted with
              | .error text => (.err (.internalError text), client)
              | .ok value =>
                match responseValue value with
                | none => (.err (.unexpectedResponse
                    "missing response._1 in encrypted response"), client)
                | some result => (.ok result, client)

/-- New main ciphers: the key of all nonces from here on. -/
def Client.rekey (client : Client) (clientCipher serverCipher : Cipher) : Client :=
  { client with inner := [], clientCipher := clientCipher, serverCipher := serverCipher }

def Client.nonces (client : Client) : List Bytes := client.inner.map Handed.nonce

/-- The ciphertext the call makes of its request, if it makes one. -/
def Client.ciphertext (S : Services) (client : Client) (call : Call) : Option Bytes :=
  (S.toVec call.request).toOption.bind (client.clientCipher.encrypt client.nonce)

def Client.HandsOver (S : Services) (client : Client) (call : Call) : Prop :=
  (client.ciphertext S call).isSome = true

/-- What the server cipher makes, under the nonce of the request, of a response
that comes back after a send that succeeded. -/
def Client.decryptedResponse (S : Services) (client : Client) (call : Call) : Option Bytes :=
  match call.sent, call.received with
  | .ready (), .ready response =>
    (encryptedData S response).bind (client.serverCipher.decrypt client.nonce)
  | _, _ => none

def Client.Answered (S : Services) (client : Client) (call : Call) : Prop :=
  (client.decryptedResponse S call).isSome = true

def Client.after (S : Services) (client : Client) (call : Call) : Client :=
  (sendReceiveEncryptedRequest S client call).2

def Client.run (S : Services) (client : Client) (calls : List Call) : Client :=
  calls.foldl (Client.after S) client

/-- The number of calls that hand over a ciphertext. -/
def Client.handOvers (S : Services) (client : Client) : List Call → ℕ
  | [] => 0
  | call :: rest =>
    (if (client.ciphertext S call).isSome then 1 else 0) + (client.after S call).handOvers S rest

/-- A call that hands over a ciphertext and is followed by another one that does
was answered. -/
def Client.AnsweredInTurn (S : Services) (client : Client) (calls : List Call) : Prop :=
  ∀ before call between later after, calls = before ++ call :: (between ++ later :: after) →
    (client.run S before).HandsOver S call →
    (client.run S (before ++ call :: between)).HandsOver S later →
    (client.run S before).Answered S call

theorem leBytes_injective (count n m : ℕ) (hn : n < 256 ^ count) (hm : m < 256 ^ count)
    (h : leBytes count n = leBytes count m) : n = m := by
  induction count generalizing n m with
  | zero => omega
  | succ count ih =>
    simp only [leBytes, List.cons.injEq] at h
    have hlow : n % 256 = m % 256 := by
      simpa using congrArg UInt8.toNat h.1
    have hhigh : n / 256 = m / 256 := by
      rw [Nat.pow_succ] at hn hm
      exact ih _ _ (by omega) (by omega) h.2
    omega

theorem nonceBytes_injective : Function.Injective nonceBytes := by
  intro n m h
  apply UInt64.toNat_inj.mp
  exact leBytes_injective 8 _ _ n.toNat_lt m.toNat_lt (List.append_cancel_right h)

theorem after_nonces (S : Services) (client : Client) (call : Call) :
    (client.after S call).nonces =
      client.nonces ++ (if (client.ciphertext S call).isSome then [client.nonce] else []) := by
  unfold Client.after sendReceiveEncryptedRequest Client.ciphertext
  cases hplain : S.toVec call.request with
  | error text => simp [Except.toOption]
  | ok plaintext =>
    cases hcipher : client.clientCipher.encrypt client.nonce plaintext with
    | none => simp [Except.toOption, hcipher]
    | some ciphertext =>
      simp only [Except.toOption, Option.bind_some, hcipher, Option.isSome_some, if_true]
      repeat' split
      all_goals simp [Client.nonces]

/-- The counter moves exactly when a ciphertext was handed over and answered. -/
theorem after_number (S : Services) (client : Client) (call : Call) :
    (client.after S call).encryptedSequenceNumber =
      if (client.ciphertext S call).isSome ∧ (client.decryptedResponse S call).isSome then
        client.encryptedSequenceNumber + 1
      else client.encryptedSequenceNumber := by
  unfold Client.after sendReceiveEncryptedRequest Client.ciphertext Client.decryptedResponse
  cases hplain : S.toVec call.request with
  | error text => simp [Except.toOption]
  | ok plaintext =>
    cases hcipher : client.clientCipher.encrypt client.nonce plaintext with
    | none => simp [Except.toOption, hcipher]
    | some ciphertext =>
      simp only [Except.toOption, Option.bind_some, hcipher, Option.isSome_some, true_and]
      cases call.sent with
      | failed error => simp
      | dropped => simp
      | ready _ =>
        cases call.received with
        | failed error => simp
        | dropped => simp
        | ready response =>
          cases hdata : encryptedData S response with
          | none => simp [hdata]
          | some encrypted =>
            cases hopen : client.serverCipher.decrypt client.nonce encrypted with
            | none => simp [hdata, hopen]
            | some decrypted =>
              simp only [hdata, hopen, Option.bind_some, Option.isSome_some, if_true]
              repeat' split
              all_goals rfl

/-- The counter each ciphertext of a run was made under, and whether its call
was answered. -/
def Client.uses (S : Services) (client : Client) : List Call → List (UInt64 × Bool)
  | [] => []
  | call :: rest =>
    (if (client.ciphertext S call).isSome then
      [(client.encryptedSequenceNumber, (client.decryptedResponse S call).isSome)] else []) ++
      (client.after S call).uses S rest

theorem run_nonces (S : Services) (client : Client) (calls : List Call) :
    (client.run S calls).nonces =
      client.nonces ++ (client.uses S calls).map fun use => nonceBytes use.1 := by
  induction calls generalizing client with
  | nil => simp [Client.run, Client.uses]
  | cons call rest ih =>
    have hrest := ih (client.after S call)
    rw [after_nonces] at hrest
    simp only [Client.run, List.foldl_cons] at hrest ⊢
    rw [hrest, Client.uses, List.map_append, List.append_assoc]
    split <;> rfl

theorem handOvers_eq_length (S : Services) (client : Client) (calls : List Call) :
    client.handOvers S calls = (client.uses S calls).length := by
  induction calls generalizing client with
  | nil => rfl
  | cons call rest ih =>
    simp only [Client.handOvers, Client.uses, List.length_append, ih]
    split <;> rfl

/-- Each use is made under the counter left by the one before: one more after
an answer, the same otherwise. -/
def Linked : UInt64 → List (UInt64 × Bool) → Prop
  | _, [] => True
  | number, use :: rest => use.1 = number ∧ Linked (if use.2 then number + 1 else number) rest

theorem uses_linked (S : Services) (client : Client) (calls : List Call) :
    Linked client.encryptedSequenceNumber (client.uses S calls) := by
  induction calls generalizing client with
  | nil => trivial
  | cons call rest ih =>
    have hrest := ih (client.after S call)
    rw [after_number] at hrest
    by_cases hcipher : (client.ciphertext S call).isSome
    · simp only [Client.uses, hcipher, if_true, List.cons_append, List.nil_append, Linked, true_and]
      simpa [hcipher] using hrest
    · simp only [Client.uses, hcipher, Bool.false_eq_true, if_false, List.nil_append]
      simpa [hcipher] using hrest

/-- Uses that were all answered but the last count up from the first. -/
theorem linked_eq_range (number : UInt64) (uses : List (UInt64 × Bool))
    (hlinked : Linked number uses) (hall : ∀ use ∈ uses.dropLast, use.2 = true) :
    uses.map Prod.fst = (List.range uses.length).map fun i => number + UInt64.ofNat i := by
  induction uses generalizing number with
  | nil => rfl
  | cons use rest ih =>
    obtain ⟨hfst, hrest⟩ := hlinked
    rw [List.length_cons, List.range_succ_eq_map, List.map_cons, List.map_cons, List.map_map]
    cases rest with
    | nil => simp [hfst]
    | cons next rest =>
      have hanswered : use.2 = true := hall use (by simp)
      rw [hanswered] at hrest
      have htail := ih (number + 1) hrest fun u hu => hall u (by
        rw [List.dropLast_cons_cons]
        exact List.mem_cons_of_mem _ hu)
      rw [htail, hfst]
      congr 1
      · simp
      · apply List.map_congr_left
        intro i _
        simp only [Function.comp_apply, Nat.succ_eq_add_one, UInt64.ofNat_add, UInt64.add_assoc]
        congr 1
        exact UInt64.add_comm ..

theorem linked_nodup_iff (number : UInt64) (uses : List (UInt64 × Bool))
    (hlinked : Linked number uses) :
    (uses.map Prod.fst).Nodup ↔
      (∀ use ∈ uses.dropLast, use.2 = true) ∧ uses.length ≤ 2 ^ 64 := by
  constructor
  · intro hnodup
    constructor
    · induction uses generalizing number with
      | nil => simp
      | cons use rest ih =>
        obtain ⟨hfst, hrest⟩ := hlinked
        cases rest with
        | nil => simp
        | cons next rest =>
          rw [List.map_cons, List.nodup_cons] at hnodup
          intro u hu
          rw [List.dropLast_cons_cons, List.mem_cons] at hu
          rcases hu with rfl | hu
          · by_contra hunanswered
            -- the next use is made under the same counter
            rw [if_neg hunanswered] at hrest
            exact hnodup.1 (by simp [hfst, hrest.1])
          · exact ih _ hrest hnodup.2 u hu
    · have hnat : (uses.map fun use => use.1.toNat).Nodup := by
        have := hnodup.map (f := UInt64.toNat) fun a b => UInt64.toNat_inj.mp
        rwa [List.map_map] at this
      have hsub : (uses.map fun use => use.1.toNat) ⊆ List.range (2 ^ 64) := by
        intro n hn
        obtain ⟨use, -, rfl⟩ := List.mem_map.mp hn
        exact List.mem_range.mpr use.1.toNat_lt
      simpa using (hnat.subperm hsub).length_le
  · intro h
    obtain ⟨hall, hlength⟩ := h
    rw [linked_eq_range number uses hlinked hall]
    apply List.Nodup.map_on _ List.nodup_range
    intro i hi j hj hij
    have hnat := congrArg UInt64.toNat (UInt64.add_right_inj number |>.mp hij)
    simp only [UInt64.toNat_ofNat'] at hnat
    rw [List.mem_range] at hi hj
    omega

theorem uses_ne_nil_iff (S : Services) (client : Client) (calls : List Call) :
    client.uses S calls ≠ [] ↔ ∃ between later after, calls = between ++ later :: after ∧
      (client.run S between).HandsOver S later := by
  induction calls generalizing client with
  | nil => simp [Client.uses]
  | cons call rest ih =>
    by_cases hcipher : (client.ciphertext S call).isSome
    · simp only [Client.uses, hcipher, if_true, List.cons_append, ne_eq, reduceCtorEq,
        not_false_eq_true, true_iff]
      exact ⟨[], call, rest, rfl, hcipher⟩
    · simp only [Client.uses, hcipher, Bool.false_eq_true, if_false, List.nil_append]
      rw [ih]
      constructor
      · intro h
        obtain ⟨between, later, after, rfl, hlater⟩ := h
        exact ⟨call :: between, later, after, rfl, hlater⟩
      · intro h
        obtain ⟨between, later, after, hsplit, hlater⟩ := h
        cases between with
        | nil =>
          cases hsplit
          exact absurd hlater hcipher
        | cons first between =>
          cases hsplit
          exact ⟨between, later, after, rfl, hlater⟩

theorem answeredInTurn_iff (S : Services) (client : Client) (calls : List Call) :
    client.AnsweredInTurn S calls ↔ ∀ use ∈ (client.uses S calls).dropLast, use.2 = true := by
  induction calls generalizing client with
  | nil => simp [Client.AnsweredInTurn, Client.uses]
  | cons call rest ih =>
    have hstep : client.AnsweredInTurn S (call :: rest) ↔
        (client.HandsOver S call → (client.after S call).uses S rest ≠ [] →
          client.Answered S call) ∧ (client.after S call).AnsweredInTurn S rest := by
      constructor
      · intro h
        refine ⟨?_, ?_⟩
        · intro hcall huses
          obtain ⟨between, later, after, rfl, hlater⟩ := (uses_ne_nil_iff _ _ _).mp huses
          exact h [] call between later after rfl hcall hlater
        · intro before other between later after heq
          subst heq
          exact h (call :: before) other between later after rfl
      · rintro ⟨hfirst, hrest⟩ before other between later after hsplit hother hlater
        cases before with
        | nil =>
          cases hsplit
          exact hfirst hother ((uses_ne_nil_iff _ _ _).mpr ⟨between, later, after, rfl, hlater⟩)
        | cons first before =>
          cases hsplit
          exact hrest before other between later after rfl hother hlater
    rw [hstep, ih]
    by_cases hcipher : (client.ciphertext S call).isSome
    · simp only [Client.uses, hcipher, if_true, List.cons_append, List.nil_append]
      cases huses : (client.after S call).uses S rest with
      | nil => simp
      | cons next uses => simp [Client.HandsOver, Client.Answered, hcipher]
    · simp [Client.uses, hcipher, Client.HandsOver]

/-- On one client cipher the nonces are pairwise distinct exactly if every call
that hands over a ciphertext is answered before the next one does, for as long
as the 64-bit counter does not come round. -/
theorem nonces_fresh_iff (S : Services) (client : Client) (clientCipher serverCipher : Cipher)
    (calls : List Call) :
    (((client.rekey clientCipher serverCipher).run S calls).nonces).Nodup ↔
      (client.rekey clientCipher serverCipher).AnsweredInTurn S calls ∧
        (client.rekey clientCipher serverCipher).handOvers S calls ≤ 2 ^ 64 := by
  have huses := uses_linked S (client.rekey clientCipher serverCipher) calls
  rw [answeredInTurn_iff, handOvers_eq_length, ← linked_nodup_iff _ _ huses, run_nonces]
  have hfresh : (client.rekey clientCipher serverCipher).nonces = [] := rfl
  rw [hfresh, List.nil_append, ← List.nodup_map_iff nonceBytes_injective, List.map_map]
  rfl

/-- Strings of printable characters as JSON, and a cipher that adds the nonce as its tag. -/
def plainServices : Services where
  toVec
    | .string text => .ok (34 :: (text.toList.map fun c => UInt8.ofNat c.toNat) ++ [34])
    | _ => .error "unsupported"
  fromSlice _ := .error "expected value"
  deserializeBytes
    | .data bytes => some bytes
    | _ => none

def taggingCipher : Cipher where
  encrypt nonce plaintext := some (plaintext ++ nonce)
  decrypt nonce ciphertext :=
    if ciphertext.drop (ciphertext.length - 12) = nonce then
      some (ciphertext.take (ciphertext.length - 12))
    else none

def newClient : Client := ⟨[], 0, 0, taggingCipher, taggingCipher⟩

/-- The receive of the first request fails; then another request is made. -/
def lostResponse : List Call :=
  [⟨.string "a", .ready (), .failed .socket⟩, ⟨.string "b", .ready (), .failed .socket⟩]

/-- Two different plaintexts are handed over under the nonce 0. -/
theorem lost_response_reuses_nonce :
    ((newClient.rekey taggingCipher taggingCipher).run plainServices lostResponse).inner =
        [⟨List.replicate 12 0, [34, 97, 34] ++ List.replicate 12 0, 0⟩,
          ⟨List.replicate 12 0, [34, 98, 34] ++ List.replicate 12 0, 1⟩] ∧
      ¬ ((newClient.rekey taggingCipher taggingCipher).run plainServices
        lostResponse).nonces.Nodup := by
  constructor
  · decide
  · decide

end XitForge.Pairing
