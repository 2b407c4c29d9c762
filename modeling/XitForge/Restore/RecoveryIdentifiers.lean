import XitForge.Restore.RecoveryInfo

/-!
The components of a serial string that are well formed are parsed as they are written, each
field being set by the one component with its key.
-/
namespace XitForge.Restore.RecoveryInfo

open RustEval RustSlice ByteStream KeyedList Numerals Separators StrSlice

section RoundTrip

/-- The bytes that pairs of digits stand for. -/
inductive HexBytes : Text → Bytes → Prop
  | nil : HexBytes [] []
  | cons {c d : Char} {high low : ℕ} {rest : Text} {bytes : Bytes} (hc : toDigit 16 c = some high)
      (hd : toDigit 16 d = some low) (hrest : HexBytes rest bytes) :
      HexBytes (c :: d :: rest) (UInt8.ofNat (high * 16 + low) :: bytes)

/-- A text without the brackets around it. -/
def unbracket (value : Text) : Text :=
  if value.head? = some '[' ∧ value.getLast? = some ']' then value.tail.dropLast else value

def stripOf (key value : Text) : Text :=
  if key = SRNM ∨ key = SRTG then unbracket value else value

/-- Components with different keys, and with numbers and nonces in hexadecimal digits. -/
structure Components where
  items : List (Text × Text)
  nodup : (items.map Prod.fst).Nodup
  keys : ∀ item ∈ items, ':' ∉ item.1 ∧ ' ' ∉ item.1
  values : ∀ item ∈ items, ' ' ∉ item.2
  numbers : ∀ item ∈ items, item.1 ∈ [CPID, BDID, ECID, IBFL] →
    ∃ n, Numeral 16 item.2 n ∧ n < 2 ^ 64
  nonces : ∀ item ∈ items, item.1 ∈ [NONC, SNON] → ∃ bytes, HexBytes item.2 bytes

def render (item : Text × Text) : Text := item.1 ++ ':' :: item.2

/-- The components with a space between them. -/
def Components.serial (components : Components) : Text :=
  List.intercalate [' '] (components.items.map render)

/-- The identifiers and the nonces are those of the components. -/
structure Describes (components : Components) (info : DeviceInfo) : Prop where
  cpid : ∀ n, info.cpid = some n ↔ ∃ value, (CPID, value) ∈ components.items ∧ Numeral 16 value n
  bdid : ∀ n, info.bdid = some n ↔ ∃ value, (BDID, value) ∈ components.items ∧ Numeral 16 value n
  ecid : ∀ n, info.ecid = some n ↔ ∃ value, (ECID, value) ∈ components.items ∧ Numeral 16 value n
  ibfl : ∀ n, info.ibfl = some n ↔ ∃ value, (IBFL, value) ∈ components.items ∧ Numeral 16 value n
  srnm : ∀ name, info.srnm = some name ↔
    ∃ value, (SRNM, value) ∈ components.items ∧ unbracket value = name
  srtg : ∀ name, info.srtg = some name ↔
    ∃ value, (SRTG, value) ∈ components.items ∧ unbracket value = name
  apNonce : ∀ bytes, info.apNonce = some bytes ↔
    ∃ value, (NONC, value) ∈ components.items ∧ HexBytes value bytes
  sepNonce : ∀ bytes, info.sepNonce = some bytes ↔
    ∃ value, (SNON, value) ∈ components.items ∧ HexBytes value bytes
  raw : ∀ key value, get info.raw key = some value ↔
    ∃ given, (key, given) ∈ components.items ∧ stripOf key given = value

theorem toDigit_lt_radix {radix digit : ℕ} {c : Char} (h : toDigit radix c = some digit) :
    digit < radix := by
  unfold toDigit at h
  exact of_decide_eq_true (Option.filter_eq_some_iff.mp h).2

theorem decodePairs_hexBytes {s : Text} {bytes : Bytes} (h : HexBytes s bytes) (front : Text) :
    byteLength s = 2 * bytes.length ∧
    decodePairs (front ++ s) (stepBy2 (byteLength front) bytes.length) = .ok (some bytes) := by
  induction h generalizing front with
  | nil => exact ⟨rfl, rfl⟩
  | @cons c d high low rest bytes hc hd _ ih =>
    have hcSize : c.utf8Size = 1 := utf8Size_eq_one (toDigit_lt (by rw [hc]; rfl))
    have hdSize : d.utf8Size = 1 := utf8Size_eq_one (toDigit_lt (by rw [hd]; rfl))
    have hsize : byteLength [c, d] = 2 := by
      simp only [byteLength, hcSize, hdSize]
    obtain ⟨hlength, hnext⟩ := ih (front ++ [c, d])
    rw [byteLength_append, hsize, List.append_assoc] at hnext
    have hnumeral : Numeral 16 [c, d] (high * 16 + low) := .snoc (.digit hc) hd
    have hlt : high * 16 + low < 2 ^ 8 := by
      have hhigh := toDigit_lt_radix hc
      have hlow := toDigit_lt_radix hd
      omega
    have hpair := @slice_append Empty front [c, d] rest
    rw [hsize] at hpair
    refine ⟨?_, ?_⟩
    · rw [byteLength, byteLength, hlength, hcSize, hdSize, List.length_cons]
      omega
    · rw [List.length_cons, stepBy2, decodePairs]
      change (StrSlice.slice (front ++ ([c, d] ++ rest)) _ _ >>= _) = _
      rw [hpair, Eval.ok_bind, hnumeral.fromStrRadix_eq hlt]
      change (decodePairs (front ++ ([c, d] ++ rest)) _ >>= _) = _
      rw [hnext]
      rfl

theorem hexDecode_hexBytes {s : Text} {bytes : Bytes} (h : HexBytes s bytes) :
    hexDecode s = .ok (some bytes) := by
  obtain ⟨hlength, hdecode⟩ := decodePairs_hexBytes h []
  unfold hexDecode
  rw [hlength, if_neg (by omega), Nat.mul_div_cancel_left _ Nat.two_pos]
  exact hdecode

theorem unbracket_brackets (inner : Text) : unbracket ('[' :: inner ++ [']']) = inner := by
  unfold unbracket
  rw [if_pos ⟨rfl, List.getLast?_concat⟩]
  simp

theorem stripBrackets_stripOf (key value : Text) :
    stripBrackets key value = .ok (stripOf key value) := by
  by_cases hkey : key = SRNM ∨ key = SRTG
  · unfold stripOf
    rw [if_pos hkey]
    by_cases hvalue : value.head? = some '[' ∧ value.getLast? = some ']'
    · obtain ⟨inner, rfl⟩ := exists_brackets hvalue.1 hvalue.2
      rw [stripBrackets_eq key inner hkey, unbracket_brackets]
    · unfold stripBrackets unbracket
      rw [if_neg fun h => hvalue h.2, if_neg hvalue]
  · unfold stripBrackets stripOf
    rw [if_neg fun h => hkey h.1, if_neg hkey]

/-- The fields behind some components, where each key is the key of one of them at most. -/
structure Fields (items : List (Text × Text)) (info info' : DeviceInfo) : Prop where
  cpid : info'.cpid = (get items CPID).elim info.cpid (fromStrRadix 64 16)
  bdid : info'.bdid = (get items BDID).elim info.bdid (fromStrRadix 64 16)
  ecid : info'.ecid = (get items ECID).elim info.ecid (fromStrRadix 64 16)
  ibfl : info'.ibfl = (get items IBFL).elim info.ibfl (fromStrRadix 64 16)
  srnm : info'.srnm = (get items SRNM).elim info.srnm (some ∘ unbracket)
  srtg : info'.srtg = (get items SRTG).elim info.srtg (some ∘ unbracket)
  apNonce : info'.apNonce = (get items NONC).elim info.apNonce nonceOf
  sepNonce : info'.sepNonce = (get items SNON).elim info.sepNonce nonceOf
  raw : ∀ key, get info'.raw key =
    (get items key).elim (get info.raw key) (some ∘ stripOf key)

theorem fields_nil (info : DeviceInfo) : Fields [] info info :=
  ⟨rfl, rfl, rfl, rfl, rfl, rfl, rfl, rfl, fun _ => rfl⟩

/-- A component has no say in a field of another key. -/
theorem elim_cons {β : Type} {item : Text × Text} {rest : List (Text × Text)} {key : Text}
    {old mid : Option β} {f : Text → Option β} (hrest : item.1 ∉ rest.map Prod.fst)
    (hmid : mid = (get [item] key).elim old f) :
    (get rest key).elim mid f = (get (item :: rest) key).elim old f := by
  rw [get_cons, get_nil] at hmid
  rw [get_cons]
  by_cases hkey : item.1 = key
  · rw [if_pos hkey] at hmid ⊢
    rw [hkey] at hrest
    rw [get_eq_none hrest, hmid]
    rfl
  · rw [if_neg hkey] at hmid ⊢
    rw [hmid]
    rfl

theorem Fields.cons {item : Text × Text} {rest : List (Text × Text)}
    {info mid info' : DeviceInfo} (hrest : item.1 ∉ rest.map Prod.fst)
    (h : Fields [item] info mid) (h' : Fields rest mid info') :
    Fields (item :: rest) info info' where
  cpid := h'.cpid.trans (elim_cons hrest h.cpid)
  bdid := h'.bdid.trans (elim_cons hrest h.bdid)
  ecid := h'.ecid.trans (elim_cons hrest h.ecid)
  ibfl := h'.ibfl.trans (elim_cons hrest h.ibfl)
  srnm := h'.srnm.trans (elim_cons hrest h.srnm)
  srtg := h'.srtg.trans (elim_cons hrest h.srtg)
  apNonce := h'.apNonce.trans (elim_cons hrest h.apNonce)
  sepNonce := h'.sepNonce.trans (elim_cons hrest h.sepNonce)
  raw key := (h'.raw key).trans (elim_cons hrest (h.raw key))

theorem elim_single {β : Type} {key value other : Text} {old : Option β}
    {f g : Text → Option β} (h : g (stripOf other value) = f value) :
    (if key = other then g (stripOf key value) else old) =
      (get [(key, value)] other).elim old f := by
  rw [get_cons, get_nil]
  by_cases hkey : key = other
  · rw [if_pos hkey, if_pos hkey, hkey, h]
    rfl
  · rw [if_neg hkey, if_neg hkey]
    rfl

theorem stripOf_plain {key : Text} (h : ¬ (key = SRNM ∨ key = SRTG)) (value : Text) :
    stripOf key value = value := if_neg h

/-- One component sets the field of its key. -/
theorem parseComponent_render {item : Text × Text} (hkey : ':' ∉ item.1)
    (hnonce : item.1 ∈ [NONC, SNON] → ∃ bytes, HexBytes item.2 bytes) (info : DeviceInfo) :
    ∃ info', parseComponent info (render item) = .ok info' ∧ Fields [item] info info' := by
  obtain ⟨key, value⟩ := item
  have hdecode (hmem : key ∈ [NONC, SNON]) :
      hexDecode (stripOf key value) = .ok (nonceOf (stripOf key value)) := by
    obtain ⟨bytes, hbytes⟩ := hnonce hmem
    have hplain : stripOf key value = value := by
      rcases List.mem_pair.mp hmem with rfl | rfl
      · exact stripOf_plain (by decide) value
      · exact stripOf_plain (by decide) value
    have hvalue := hexDecode_hexBytes hbytes
    unfold nonceOf
    rw [hplain, hvalue]
  unfold parseComponent render
  rw [splitOnce_append hkey]
  dsimp only
  rw [stripBrackets_stripOf, Eval.ok_bind, setField_eq _ hdecode]
  refine ⟨_, rfl, elim_single ?_, elim_single ?_, elim_single ?_, elim_single ?_, elim_single rfl,
    elim_single rfl, elim_single ?_, elim_single ?_, fun other => ?_⟩
  · rw [stripOf_plain (by decide)]
  · rw [stripOf_plain (by decide)]
  · rw [stripOf_plain (by decide)]
  · rw [stripOf_plain (by decide)]
  · rw [stripOf_plain (by decide)]
  · rw [stripOf_plain (by decide)]
  · dsimp only
    rw [get_insert]
    simp only [@eq_comm _ other key]
    exact elim_single rfl

/-- The components set the fields of their keys. -/
theorem parseAll_render {items : List (Text × Text)} (hnodup : (items.map Prod.fst).Nodup)
    (hkeys : ∀ item ∈ items, ':' ∉ item.1)
    (hnonces : ∀ item ∈ items, item.1 ∈ [NONC, SNON] → ∃ bytes, HexBytes item.2 bytes)
    (info : DeviceInfo) :
    ∃ info', parseAll info (items.map render) = .ok info' ∧ Fields items info info' := by
  induction items generalizing info with
  | nil => exact ⟨info, rfl, fields_nil info⟩
  | cons item rest ih =>
    rw [List.map_cons, List.nodup_cons] at hnodup
    rw [List.forall_mem_cons] at hkeys hnonces
    obtain ⟨mid, hfirst, hfields⟩ := parseComponent_render hkeys.1 hnonces.1 info
    obtain ⟨info', hrest, hfields'⟩ := ih hnodup.2 hkeys.2 hnonces.2 mid
    refine ⟨info', ?_, hfields.cons hnodup.1 hfields'⟩
    rw [List.map_cons, parseAll, hfirst, Eval.ok_bind, hrest]

namespace Components

variable (components : Components)

theorem mem_iff {key value : Text} :
    (key, value) ∈ components.items ↔ get components.items key = some value :=
  ⟨get_of_mem components.nodup, mem_of_get⟩

/-- A serial string is split into its components again, or into an empty one that says
nothing. -/
theorem splitOn_serial (info : DeviceInfo) : parseAll info (components.serial.splitOn ' ') =
    parseAll info (components.items.map render) := by
  unfold serial
  cases hitems : components.items with
  | nil => rfl
  | cons item rest =>
    have hplain : ∀ component ∈ (item :: rest).map render, ' ' ∉ component := by
      intro component hmem hspace
      obtain ⟨given, hgiven, rfl⟩ := List.mem_map.mp hmem
      rw [← hitems] at hgiven
      unfold render at hspace
      rcases List.mem_append.mp hspace with h | h
      · exact (components.keys given hgiven).2 h
      · rcases List.mem_cons.mp h with h | h
        · exact absurd h (by decide)
        · exact components.values given hgiven h
    rw [List.splitOn_intercalate ' ' hplain (by simp)]

/-- A field that a value is read into. -/
theorem field_iff {β : Type} {key : Text} {field : Option β} {f : Text → Option β}
    {reads : Text → β → Prop} (hfield : field = (get components.items key).elim none f)
    (hreads : ∀ value, (key, value) ∈ components.items →
      ∀ x, f value = some x ↔ reads value x) (x : β) :
    field = some x ↔ ∃ value, (key, value) ∈ components.items ∧ reads value x := by
  rw [hfield]
  cases hget : get components.items key with
  | none =>
    refine iff_of_false (by simp) fun h => ?_
    obtain ⟨value, hmem, _⟩ := h
    rw [components.mem_iff, hget] at hmem
    cases hmem
  | some value =>
    have hmem := components.mem_iff.mpr hget
    rw [Option.elim_some, hreads value hmem x]
    constructor
    · exact fun h => ⟨value, hmem, h⟩
    · intro h
      obtain ⟨other, hother, hx⟩ := h
      rw [components.mem_iff, hget, Option.some.injEq] at hother
      exact hother ▸ hx

theorem number_iff {key value : Text} (hmem : (key, value) ∈ components.items)
    (hkey : key ∈ [CPID, BDID, ECID, IBFL]) (n : ℕ) :
    fromStrRadix 64 16 value = some n ↔ Numeral 16 value n := by
  obtain ⟨m, hm, hlt⟩ := components.numbers (key, value) hmem hkey
  rw [hm.fromStrRadix_eq hlt, Option.some.injEq]
  constructor
  · intro h
    exact h ▸ hm
  · intro h
    have hboth := hm.digitsValue_eq.symm.trans h.digitsValue_eq
    exact Option.some.inj hboth

theorem nonce_iff {key value : Text} (hmem : (key, value) ∈ components.items)
    (hkey : key ∈ [NONC, SNON]) (bytes : Bytes) :
    nonceOf value = some bytes ↔ HexBytes value bytes := by
  have hvalue {bytes : Bytes} (h : HexBytes value bytes) : nonceOf value = some bytes := by
    unfold nonceOf
    rw [hexDecode_hexBytes h]
  obtain ⟨given, hgiven⟩ := components.nonces (key, value) hmem hkey
  constructor
  · intro h
    rw [hvalue hgiven, Option.some.injEq] at h
    exact h ▸ hgiven
  · exact hvalue

/-- Well-formed components are parsed as what they say. -/
theorem parse_serial : ∃ info, parse components.serial = .ok info ∧ Describes components info := by
  obtain ⟨info, hparse, hfields⟩ := parseAll_render components.nodup
    (fun item hmem => (components.keys item hmem).1) components.nonces .empty
  refine ⟨info, (components.splitOn_serial .empty).trans hparse, ?_⟩
  exact {
    cpid := components.field_iff hfields.cpid fun _ hmem => components.number_iff hmem (by simp)
    bdid := components.field_iff hfields.bdid fun _ hmem => components.number_iff hmem (by simp)
    ecid := components.field_iff hfields.ecid fun _ hmem => components.number_iff hmem (by simp)
    ibfl := components.field_iff hfields.ibfl fun _ hmem => components.number_iff hmem (by simp)
    srnm := components.field_iff hfields.srnm fun _ _ _ => Option.some_inj
    srtg := components.field_iff hfields.srtg fun _ _ _ => Option.some_inj
    apNonce := components.field_iff hfields.apNonce fun _ hmem => components.nonce_iff hmem (by simp)
    sepNonce :=
      components.field_iff hfields.sepNonce fun _ hmem => components.nonce_iff hmem (by simp)
    raw := fun key => components.field_iff (hfields.raw key) fun _ _ _ => Option.some_inj }

end Components

/-- No function of the identification panics, and components are parsed as they are written,
just when neither a descriptor's length nor a character is cut. -/
theorem identification_iff (index : ℕ) (answer : Except RecoveryError Bytes) (s serial : Text)
    (info : DeviceInfo) (components : Components) :
    (readStringDescriptor index answer ≠ .panic ∧ hexDecode s ≠ .panic ∧ parse serial ≠ .panic ∧
      loadNoncesFromDescriptor info answer ≠ .panic ∧
      ∃ parsed, parse components.serial = .ok parsed ∧ Describes components parsed) ↔
    ¬ BadAnswer answer ∧ ¬ BadHex s ∧ ¬ BadSerial serial ∧
      (info.apNonce.isSome ∧ info.sepNonce.isSome ∨
        ∀ extra, readStringDescriptor 1 answer = .ok extra → ¬ BadSerial extra) := by
  rw [Ne, Ne, Ne, Ne, readStringDescriptor_panic_iff, hexDecode_panic_iff, parse_panic_iff,
    loadNonces_panic_iff]
  constructor
  · intro h
    obtain ⟨hanswer, hhex, hserial, hload, _⟩ := h
    refine ⟨hanswer, hhex, hserial, ?_⟩
    by_cases hknown : info.apNonce.isSome ∧ info.sepNonce.isSome
    · exact .inl hknown
    · exact .inr fun extra hextra hbad => hload ⟨hknown, .inr ⟨extra, hextra, hbad⟩⟩
  · intro h
    obtain ⟨hanswer, hhex, hserial, hload⟩ := h
    refine ⟨hanswer, hhex, hserial, fun hbad => ?_, components.parse_serial⟩
    rcases hload with hknown | hextra
    · exact hbad.1 hknown
    · rcases hbad.2 with hcut | ⟨extra, hread, hserial'⟩
      · exact hanswer hcut
      · exact hextra extra hread hserial'

/-- A descriptor with the length zero, and a nonce with a character of two bytes behind a
digit. -/
theorem identification_panics :
    readStringDescriptor 1 (.ok [0, 3]) = .panic ∧ parse "NONC:aéa".toList = .panic := by
  refine ⟨(readStringDescriptor_panic_iff 1 _).mpr ⟨_, rfl, by decide, rfl, 0, rfl, by decide⟩,
    (parse_panic_iff _).mpr ⟨_, List.mem_singleton_self _, NONC, "aéa".toList, by decide +kernel,
      .inl rfl, by decide +kernel, .late _ _ _ (by decide) (by decide)⟩⟩

end RoundTrip

end XitForge.Restore.RecoveryInfo
