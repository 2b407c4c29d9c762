import Mathlib.Algebra.Ring.Nat
import XitForge.RemotePairing.Opack

/-!
The TLV8 entries of the pairing messages: a type, a length byte and so many bytes. The
length byte is `len() as u8`, so an entry comes back exactly when it has at most 255
bytes; longer data is cut into chunks, and put together again from all entries of a type.
-/
namespace XitForge.RemotePairing

inductive PairingDataComponentType where
  | method | identifier | salt | publicKey | proof | encryptedData | state | errorResponse
  | retryDelay | certificate | signature | permissions | fragmentData | fragmentLast | sessionId
  | ttl | extraData | info | acl | flags | validationData | mfiAuthToken | mfiProductType
  | serialNumber | mfiAuthTokenUuid | appFlags | ownershipProof | setupCodeType | productionData
  | appInfo | separator
  deriving DecidableEq, Repr

namespace PairingDataComponentType

/-- The types in the order of their bytes, `Separator` apart. -/
def numbered : List PairingDataComponentType :=
  [method, identifier, salt, publicKey, proof, encryptedData, state, errorResponse, retryDelay,
    certificate, signature, permissions, fragmentData, fragmentLast, sessionId, ttl, extraData,
    info, acl, flags, validationData, mfiAuthToken, mfiProductType, serialNumber,
    mfiAuthTokenUuid, appFlags, ownershipProof, setupCodeType, productionData, appInfo]

/-- `as u8`. -/
def asU8 (type : PairingDataComponentType) : UInt8 :=
  if type = separator then 0xff else UInt8.ofNat (numbered.idxOf type)

def tryFrom (value : UInt8) : Option PairingDataComponentType :=
  if value = 0xff then some separator else numbered[value.toNat]?

theorem tryFrom_asU8 (type : PairingDataComponentType) : tryFrom type.asU8 = some type := by
  cases type <;> decide

theorem asU8_of_tryFrom {value : UInt8} {type : PairingDataComponentType}
    (h : tryFrom value = some type) : type.asU8 = value := by
  unfold tryFrom at h
  split at h
  · rename_i hlast
    cases h
    exact hlast.symm
  · obtain ⟨hlt, hget⟩ := List.getElem?_eq_some_iff.mp h
    have hnodup : numbered.Nodup := by decide
    have hseparator : separator ∉ numbered := by decide
    have hmem : type ∈ numbered := List.mem_of_getElem hget
    have hne : type ≠ separator := fun heq => hseparator (heq ▸ hmem)
    rw [asU8, if_neg hne, ← hget, hnodup.idxOf_getElem]
    exact UInt8.ofNat_toNat

end PairingDataComponentType

open PairingDataComponentType

structure TLV8Entry where
  tlvType : PairingDataComponentType
  data : Bytes
  deriving DecidableEq, Repr

inductive TlvError where
  | malformedTlv
  | unknownTlv (type : UInt8)
  deriving DecidableEq, Repr

def collectComponentData (entries : List TLV8Entry) (component : PairingDataComponentType) : Bytes :=
  entries.flatMap fun entry => if entry.tlvType = component then entry.data else []

def containsComponent (entries : List TLV8Entry) (component : PairingDataComponentType) : Bool :=
  entries.any fun entry => entry.tlvType == component

def serializeTlv8 : List TLV8Entry → Bytes
  | [] => []
  | entry :: rest =>
    entry.tlvType.asU8 :: UInt8.ofNat entry.data.length :: (entry.data ++ serializeTlv8 rest)

/-- The loop of `deserialize_tlv8`; every entry takes two bytes off or more. A single
byte at the end is left alone. -/
def deserializeEntries : ℕ → Bytes → Except TlvError (List TLV8Entry)
  | rounds + 1, type :: length :: rest =>
    if rest.length < length.toNat then .error .malformedTlv
    else match tryFrom type with
      | none => .error (.unknownTlv type)
      | some tlvType =>
        (deserializeEntries rounds (rest.drop length.toNat)).map
          (⟨tlvType, rest.take length.toNat⟩ :: ·)
  | _, _ => .ok []

def deserializeTlv8 (input : Bytes) : Except TlvError (List TLV8Entry) :=
  deserializeEntries input.length input

/-- `data.chunks(size)`; every chunk has a byte or more. -/
def chunksOf (size : ℕ) : ℕ → Bytes → List Bytes
  | rounds + 1, data => if data = [] then [] else data.take size :: chunksOf size rounds (data.drop size)
  | 0, _ => []

/-- `chunk_tlv`. -/
def chunkTlv (tlvType : PairingDataComponentType) (data : Bytes) : List TLV8Entry :=
  (chunksOf 255 data.length data).map (⟨tlvType, ·⟩)

section RoundTrip

/-- As many rounds as bytes are enough. -/
theorem deserializeEntries_enough (rounds : ℕ) {rounds' : ℕ} {bytes : Bytes} (h : bytes.length ≤ rounds)
    (h' : bytes.length ≤ rounds') : deserializeEntries rounds bytes = deserializeEntries rounds' bytes := by
  induction rounds generalizing rounds' bytes with
  | zero =>
    have hnil : bytes = [] := List.length_eq_zero_iff.mp (Nat.le_zero.mp h)
    subst hnil
    cases rounds' <;> rfl
  | succ rounds ih =>
    match bytes with
    | [] => cases rounds' <;> rfl
    | [_] => cases rounds' <;> rfl
    | type :: length :: rest =>
      rw [List.length_cons, List.length_cons] at h h'
      obtain ⟨rounds', rfl⟩ : ∃ n, rounds' = n + 1 := ⟨rounds' - 1, by omega⟩
      have hdrop : (rest.drop length.toNat).length ≤ rest.length := by
        rw [List.length_drop]
        omega
      have hrest : deserializeEntries rounds (rest.drop length.toNat) =
          deserializeEntries rounds' (rest.drop length.toNat) := ih (by omega) (by omega)
      rw [deserializeEntries, deserializeEntries, hrest]

theorem deserializeTlv8_cons (type length : UInt8) (rest : Bytes) :
    deserializeTlv8 (type :: length :: rest) =
      if rest.length < length.toNat then .error .malformedTlv
      else match tryFrom type with
        | none => .error (.unknownTlv type)
        | some tlvType =>
          (deserializeTlv8 (rest.drop length.toNat)).map
            (⟨tlvType, rest.take length.toNat⟩ :: ·) := by
  have hdrop : (rest.drop length.toNat).length ≤ rest.length := by
    rw [List.length_drop]
    omega
  have hrest : deserializeEntries (rest.length + 1) (rest.drop length.toNat) =
      deserializeTlv8 (rest.drop length.toNat) :=
    deserializeEntries_enough _ (by omega) (Nat.le_refl _)
  show deserializeEntries (rest.length + 1 + 1) (type :: length :: rest) = _
  rw [deserializeEntries, hrest]

/-- A short entry is read as it was written, whatever follows. -/
theorem deserializeTlv8_entry {entry : TLV8Entry} (h : entry.data.length ≤ 255) (rest : Bytes) :
    deserializeTlv8 (serializeTlv8 [entry] ++ rest) = (deserializeTlv8 rest).map (entry :: ·) := by
  have hlength : (UInt8.ofNat entry.data.length).toNat = entry.data.length := by
    rw [UInt8.toNat_ofNat']
    omega
  show deserializeTlv8 (entry.tlvType.asU8 :: UInt8.ofNat entry.data.length ::
    (entry.data ++ [] ++ rest)) = _
  rw [List.append_nil, deserializeTlv8_cons, hlength, if_neg (by simp), tryFrom_asU8, List.drop_left,
    List.take_left]

theorem serializeTlv8_append (before after : List TLV8Entry) :
    serializeTlv8 (before ++ after) = serializeTlv8 before ++ serializeTlv8 after := by
  induction before with
  | nil => rfl
  | cons entry before ih =>
    rw [List.cons_append, serializeTlv8, serializeTlv8, ih]
    simp

theorem deserializeTlv8_append {entries : List TLV8Entry} (h : ∀ entry ∈ entries, entry.data.length ≤ 255)
    (rest : Bytes) :
    deserializeTlv8 (serializeTlv8 entries ++ rest) = (deserializeTlv8 rest).map (entries ++ ·) := by
  induction entries with
  | nil => cases hrest : deserializeTlv8 rest with
    | error error =>
      rw [serializeTlv8, List.nil_append, hrest]
      rfl
    | ok found =>
      rw [serializeTlv8, List.nil_append, hrest]
      rfl
  | cons entry entries ih =>
    have hsplit : serializeTlv8 (entry :: entries) = serializeTlv8 [entry] ++ serializeTlv8 entries :=
      serializeTlv8_append [entry] entries
    rw [hsplit, List.append_assoc, deserializeTlv8_entry (h entry (List.mem_cons_self ..)),
      ih fun other hother => h other (List.mem_cons_of_mem _ hother)]
    cases deserializeTlv8 rest <;> rfl

/-- A round that reads an entry. -/
theorem deserializeEntries_cons_eq_ok {rounds : ℕ} {type length : UInt8} {rest : Bytes}
    {entries : List TLV8Entry}
    (h : deserializeEntries (rounds + 1) (type :: length :: rest) = .ok entries) :
    ∃ tlvType found, (rest.take length.toNat).length = length.toNat ∧
      tryFrom type = some tlvType ∧
      deserializeEntries rounds (rest.drop length.toNat) = .ok found ∧
      entries = ⟨tlvType, rest.take length.toNat⟩ :: found := by
  rw [deserializeEntries] at h
  by_cases hshort : rest.length < length.toNat
  · rw [if_pos hshort] at h
    cases h
  rw [if_neg hshort] at h
  cases htype : tryFrom type with
  | none =>
    rw [htype] at h
    cases h
  | some tlvType =>
    rw [htype] at h
    cases hrest : deserializeEntries rounds (rest.drop length.toNat) with
    | error error =>
      simp only [hrest] at h
      cases h
    | ok found =>
      simp only [hrest] at h
      cases h
      refine ⟨tlvType, found, ?_, rfl, rfl, rfl⟩
      rw [List.length_take]
      omega

/-- The entries that are read have short data, and took two bytes more each. -/
theorem deserializeEntries_sizes (rounds : ℕ) {bytes : Bytes} {entries : List TLV8Entry}
    (h : deserializeEntries rounds bytes = .ok entries) :
    (∀ entry ∈ entries, entry.data.length ≤ 255) ∧
      (entries.map fun entry => entry.data.length + 2).sum ≤ bytes.length := by
  induction rounds generalizing bytes entries with
  | zero =>
    cases h
    exact ⟨nofun, Nat.zero_le _⟩
  | succ rounds ih =>
    match bytes with
    | [] =>
      cases h
      exact ⟨nofun, Nat.zero_le _⟩
    | [_] =>
      cases h
      exact ⟨nofun, Nat.zero_le _⟩
    | type :: length :: rest =>
      obtain ⟨tlvType, found, htake, -, hrest, rfl⟩ := deserializeEntries_cons_eq_ok h
      obtain ⟨hbounds, hsum⟩ := ih hrest
      have hlength := length.toNat_lt
      rw [List.length_drop] at hsum
      have hwhole := List.length_take_le' length.toNat rest
      constructor
      · intro entry hentry
        rcases List.mem_cons.mp hentry with rfl | hentry
        · show (rest.take length.toNat).length ≤ 255
          omega
        · exact hbounds entry hentry
      · rw [List.map_cons, List.sum_cons, List.length_cons, List.length_cons]
        show (rest.take length.toNat).length + 2 + _ ≤ _
        omega

/-- What is read is written as it was, up to a single byte at the end. -/
theorem serialize_of_deserializeEntries {rounds : ℕ} {bytes : Bytes} {entries : List TLV8Entry}
    (hrounds : bytes.length ≤ rounds) (h : deserializeEntries rounds bytes = .ok entries) :
    ∃ rest, rest.length ≤ 1 ∧ bytes = serializeTlv8 entries ++ rest := by
  induction rounds generalizing bytes entries with
  | zero =>
    cases h
    exact ⟨bytes, by omega, rfl⟩
  | succ rounds ih =>
    match bytes with
    | [] =>
      cases h
      exact ⟨[], Nat.zero_le 1, rfl⟩
    | [byte] =>
      cases h
      exact ⟨[byte], Nat.le_refl 1, rfl⟩
    | type :: length :: rest =>
      rw [List.length_cons, List.length_cons] at hrounds
      obtain ⟨tlvType, found, htake, htype, hrest, rfl⟩ := deserializeEntries_cons_eq_ok h
      have hdrop : (rest.drop length.toNat).length ≤ rounds := by
        rw [List.length_drop]
        omega
      obtain ⟨behind, hbehind, hbytes⟩ := ih hdrop hrest
      refine ⟨behind, hbehind, ?_⟩
      rw [serializeTlv8, asU8_of_tryFrom htype, htake, UInt8.ofNat_toNat, List.cons_append,
        List.cons_append, List.append_assoc, ← hbytes, List.take_append_drop]

/-- Entries come back exactly when the length of each fits its byte. -/
theorem tlv_roundTrip (entries : List TLV8Entry) :
    deserializeTlv8 (serializeTlv8 entries) = .ok entries ↔
      ∀ entry ∈ entries, entry.data.length ≤ 255 := by
  constructor
  · intro h
    exact (deserializeEntries_sizes _ h).1
  · intro h
    have hread := deserializeTlv8_append h []
    rw [List.append_nil] at hread
    rw [hread]
    show Except.ok (entries ++ []) = _
    rw [List.append_nil]

/-- The inputs that are accepted, and what is read of them. -/
theorem deserializeTlv8_eq_ok_iff {bytes : Bytes} {entries : List TLV8Entry} :
    deserializeTlv8 bytes = .ok entries ↔ (∀ entry ∈ entries, entry.data.length ≤ 255) ∧
      ∃ rest, rest.length ≤ 1 ∧ bytes = serializeTlv8 entries ++ rest := by
  constructor
  · intro h
    exact ⟨(deserializeEntries_sizes _ h).1,
      serialize_of_deserializeEntries (Nat.le_refl _) h⟩
  · intro hgiven
    obtain ⟨hshort, rest, hrest, rfl⟩ := hgiven
    have hread : deserializeTlv8 rest = .ok [] := by
      match rest with
      | [] => rfl
      | [byte] => rfl
      | _ :: _ :: _ => simp at hrest
    rw [deserializeTlv8_append hshort, hread]
    show Except.ok (entries ++ []) = _
    rw [List.append_nil]

/-- What is accepted is what serialized entries are, but for whole entries with a single
byte behind them. -/
theorem tlv_format_iff (bytes : Bytes) :
    (∀ entries, deserializeTlv8 bytes = .ok entries ↔
      bytes = serializeTlv8 entries ∧ ∀ entry ∈ entries, entry.data.length ≤ 255) ↔
      ¬ ∃ entries last, (∀ entry ∈ entries, entry.data.length ≤ 255) ∧
        bytes = serializeTlv8 entries ++ [last] := by
  constructor
  · intro hformat h
    obtain ⟨entries, last, hshort, hbytes⟩ := h
    have hread := deserializeTlv8_eq_ok_iff.mpr ⟨hshort, [last], Nat.le_refl 1, hbytes⟩
    obtain ⟨hwhole, -⟩ := (hformat entries).mp hread
    have hlength := congrArg List.length (hbytes.symm.trans hwhole)
    rw [List.length_append, List.length_singleton] at hlength
    omega
  · intro hnone entries
    rw [deserializeTlv8_eq_ok_iff]
    constructor
    · intro h
      obtain ⟨hshort, rest, hrest, hbytes⟩ := h
      match rest with
      | [] =>
        rw [List.append_nil] at hbytes
        exact ⟨hbytes, hshort⟩
      | [last] => exact absurd ⟨entries, last, hshort, hbytes⟩ hnone
      | _ :: _ :: _ => simp at hrest
    · intro h
      obtain ⟨hbytes, hshort⟩ := h
      exact ⟨hshort, [], Nat.zero_le 1, by rw [List.append_nil, hbytes]⟩

/-- A type without its length is taken for the end. -/
theorem lone_type_accepted :
    ¬ ∀ bytes entries, deserializeTlv8 bytes = .ok entries ↔
      bytes = serializeTlv8 entries ∧ ∀ entry ∈ entries, entry.data.length ≤ 255 := by
  intro h
  obtain ⟨hbytes, -⟩ := (h [0x06] []).mp rfl
  cases hbytes

theorem collect_append (before after : List TLV8Entry) (component : PairingDataComponentType) :
    collectComponentData (before ++ after) component =
      collectComponentData before component ++ collectComponentData after component :=
  List.flatMap_append

theorem collect_length (entries : List TLV8Entry) (component : PairingDataComponentType) :
    (collectComponentData entries component).length + 2 * entries.length ≤
      (entries.map fun entry => entry.data.length + 2).sum := by
  induction entries with
  | nil => exact Nat.le_refl _
  | cons entry entries ih =>
    have hsplit := collect_append [entry] entries component
    have hone : (collectComponentData [entry] component).length ≤ entry.data.length := by
      unfold collectComponentData
      rw [List.flatMap_cons, List.flatMap_nil, List.append_nil]
      split <;> simp
    rw [List.singleton_append] at hsplit
    rw [hsplit, List.length_append, List.map_cons, List.sum_cons, List.length_cons]
    omega

theorem collect_le {entries : List TLV8Entry} (component : PairingDataComponentType)
    (h : ∀ entry ∈ entries, entry.data.length ≤ 255) :
    (collectComponentData entries component).length ≤ 255 * entries.length := by
  induction entries with
  | nil => exact Nat.le_refl _
  | cons entry entries ih =>
    have hrest := ih fun other hother => h other (List.mem_cons_of_mem _ hother)
    have hentry := h entry (List.mem_cons_self ..)
    unfold collectComponentData at hrest ⊢
    rw [List.flatMap_cons, List.length_append, List.length_cons]
    split
    · omega
    · rw [List.length_nil]
      omega

/-- An entry that is too long is not put together again of what is read instead. -/
theorem collect_ne_of_long {entry : TLV8Entry} (h : 255 < entry.data.length) {entries : List TLV8Entry}
    (hread : deserializeTlv8 (serializeTlv8 [entry]) = .ok entries) :
    collectComponentData entries entry.tlvType ≠ entry.data := by
  intro hsame
  obtain ⟨hbounds, hsum⟩ := deserializeEntries_sizes _ hread
  have hbytes : (serializeTlv8 [entry]).length = entry.data.length + 2 := by
    rw [serializeTlv8, serializeTlv8, List.append_nil, List.length_cons, List.length_cons]
  have hcollect := collect_length entries entry.tlvType
  rw [hsame] at hcollect
  have hmost := collect_le entry.tlvType hbounds
  rw [hsame] at hmost
  have hone : entries.length ≤ 1 := by omega
  have hshort : 255 * entries.length ≤ 255 * 1 := Nat.mul_le_mul_left 255 hone
  omega

theorem chunksOf_spec {size : ℕ} (hsize : 0 < size) (rounds : ℕ) {data : Bytes}
    (h : data.length ≤ rounds) :
    (chunksOf size rounds data).flatten = data ∧
      ∀ chunk ∈ chunksOf size rounds data, chunk.length ≤ size := by
  induction rounds generalizing data with
  | zero =>
    rw [List.length_eq_zero_iff.mp (Nat.le_zero.mp h)]
    exact ⟨rfl, nofun⟩
  | succ rounds ih =>
    rw [chunksOf]
    by_cases hnil : data = []
    · rw [if_pos hnil, hnil]
      exact ⟨rfl, nofun⟩
    · have hpos : 0 < data.length := List.length_pos_iff.mpr hnil
      rw [if_neg hnil]
      obtain ⟨hflatten, hbounds⟩ := ih (by rw [List.length_drop]; omega : (data.drop size).length ≤ rounds)
      constructor
      · rw [List.flatten_cons, hflatten, List.take_append_drop]
      · intro chunk hchunk
        rcases List.mem_cons.mp hchunk with rfl | hchunk
        · rw [List.length_take]
          omega
        · exact hbounds chunk hchunk

theorem chunkTlv_short {tlvType : PairingDataComponentType} {data : Bytes} {entry : TLV8Entry}
    (h : entry ∈ chunkTlv tlvType data) : entry.tlvType = tlvType ∧ entry.data.length ≤ 255 := by
  obtain ⟨-, hbounds⟩ := chunksOf_spec (by omega : 0 < 255) data.length (Nat.le_refl _)
  obtain ⟨chunk, hchunk, rfl⟩ := List.mem_map.mp h
  exact ⟨rfl, hbounds chunk hchunk⟩

theorem collect_chunkTlv (tlvType : PairingDataComponentType) (data : Bytes) :
    collectComponentData (chunkTlv tlvType data) tlvType = data := by
  have hcollect : ∀ chunks : List Bytes,
      collectComponentData (chunks.map (⟨tlvType, ·⟩)) tlvType = chunks.flatten := by
    intro chunks
    induction chunks with
    | nil => rfl
    | cons chunk chunks ih =>
      have hsplit := collect_append [⟨tlvType, chunk⟩] (chunks.map (⟨tlvType, ·⟩)) tlvType
      rw [List.singleton_append, ih] at hsplit
      rw [List.map_cons, hsplit, List.flatten_cons]
      simp [collectComponentData]
  obtain ⟨hflatten, -⟩ := chunksOf_spec (by omega : 0 < 255) data.length (Nat.le_refl _)
  unfold chunkTlv
  rw [hcollect, hflatten]

theorem collect_of_ne {entries : List TLV8Entry} {component : PairingDataComponentType}
    (h : ∀ entry ∈ entries, entry.tlvType ≠ component) :
    collectComponentData entries component = [] := by
  unfold collectComponentData
  apply List.flatMap_eq_nil_iff.mpr
  intro entry hentry
  rw [if_neg (h entry hentry)]

/-- What a message is put together of: the data of a component, in chunks, or an entry of
its own. -/
inductive Part where
  | component (tlvType : PairingDataComponentType) (data : Bytes)
  | further (entry : TLV8Entry)

namespace Part

def tlvType : Part → PairingDataComponentType
  | component type _ => type
  | further entry => entry.tlvType

def entries : Part → List TLV8Entry
  | component type data => chunkTlv type data
  | further entry => [entry]

/-- A further entry must not have the type of a component. -/
def Apart : Part → Part → Prop
  | further _, further _ => True
  | part, other => part.tlvType ≠ other.tlvType

theorem entries_tlvType {part : Part} {entry : TLV8Entry} (h : entry ∈ part.entries) :
    entry.tlvType = part.tlvType := by
  cases part with
  | component type data => exact (chunkTlv_short h).1
  | further other =>
    rw [List.mem_singleton.mp h]
    rfl

end Part

/-- Among parts of other types, the data of a component is what is collected. -/
theorem collect_parts {before after : List Part} {tlvType : PairingDataComponentType} {data : Bytes}
    (h : ∀ part ∈ before ++ after, part.tlvType ≠ tlvType) :
    collectComponentData ((before ++ .component tlvType data :: after).flatMap Part.entries) tlvType =
      data := by
  have hother : ∀ parts : List Part, (∀ part ∈ parts, part.tlvType ≠ tlvType) →
      collectComponentData (parts.flatMap Part.entries) tlvType = [] := by
    intro parts hparts
    apply collect_of_ne
    intro entry hentry
    obtain ⟨part, hpart, hmem⟩ := List.mem_flatMap.mp hentry
    rw [Part.entries_tlvType hmem]
    exact hparts part hpart
  rw [List.flatMap_append, List.flatMap_cons, collect_append, collect_append,
    hother before (fun part hpart => h part (List.mem_append_left _ hpart)),
    hother after (fun part hpart => h part (List.mem_append_right _ hpart)), List.append_nil,
    List.nil_append]
  exact collect_chunkTlv tlvType data

/-- Components of distinct types come back from one message, in any order and with other
entries between them. -/
theorem components_recovered {parts : List Part} (hapart : parts.Pairwise Part.Apart)
    (hshort : ∀ entry, .further entry ∈ parts → entry.data.length ≤ 255) :
    ∃ entries, deserializeTlv8 (serializeTlv8 (parts.flatMap Part.entries)) = .ok entries ∧
      ∀ tlvType data, .component tlvType data ∈ parts →
        collectComponentData entries tlvType = data := by
  refine ⟨parts.flatMap Part.entries, ?_, ?_⟩
  · apply (tlv_roundTrip _).mpr
    intro entry hentry
    obtain ⟨part, hpart, hmem⟩ := List.mem_flatMap.mp hentry
    cases part with
    | component tlvType data => exact (chunkTlv_short hmem).2
    | further other =>
      rw [List.mem_singleton.mp hmem]
      exact hshort other hpart
  · intro tlvType data hcomponent
    obtain ⟨before, after, heq⟩ := List.append_of_mem hcomponent
    rw [heq] at hapart ⊢
    apply collect_parts
    obtain ⟨-, hafter, hbefore⟩ := List.pairwise_append.mp hapart
    intro part hpart
    rcases List.mem_append.mp hpart with hleft | hright
    · have hne := hbefore part hleft _ (List.mem_cons_self ..)
      cases part <;> exact hne
    · exact ((List.pairwise_cons.mp hafter).1 part hright).symm

theorem components_recovered_chunked :
    ∃ entries, deserializeTlv8 (serializeTlv8 (([.component .salt (List.replicate 256 7),
        .further ⟨.state, [1]⟩, .component .proof []] : List Part).flatMap Part.entries)) =
          .ok entries ∧
      ∀ tlvType data, Part.component tlvType data ∈ ([.component .salt (List.replicate 256 7),
          .further ⟨.state, [1]⟩, .component .proof []] : List Part) →
        collectComponentData entries tlvType = data := by
  apply components_recovered
  · simp [-List.reduceReplicate, Part.Apart, Part.tlvType]
  · intro entry hentry
    have heq : entry = ⟨.state, [1]⟩ := by simpa [-List.reduceReplicate] using hentry
    rw [heq]
    decide

/-- An entry of a component's own type is taken for a part of its data. -/
theorem further_entry_collected :
    ¬ ∀ parts : List Part,
      (parts.filterMap fun part => match part with
        | .component tlvType _ => some tlvType
        | .further _ => none).Nodup →
      (∀ entry, .further entry ∈ parts → entry.data.length ≤ 255) →
      ∃ entries, deserializeTlv8 (serializeTlv8 (parts.flatMap Part.entries)) = .ok entries ∧
        ∀ tlvType data, .component tlvType data ∈ parts →
          collectComponentData entries tlvType = data := by
  intro h
  obtain ⟨entries, hread, hcollect⟩ :=
    h [.component .state [1], .further ⟨.state, [2]⟩] (by simp) (by simp)
  have hentries : deserializeTlv8 (serializeTlv8
      ([.component .state [1], .further ⟨.state, [2]⟩].flatMap Part.entries)) =
        .ok [⟨.state, [1]⟩, ⟨.state, [2]⟩] := by decide
  rw [hentries] at hread
  cases hread
  have hdata := hcollect .state [1] (List.mem_cons_self ..)
  exact absurd hdata (by decide)

end RoundTrip

end XitForge.RemotePairing
