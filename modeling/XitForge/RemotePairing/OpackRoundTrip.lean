import XitForge.RemotePairing.Opack

/-!
What OPACK gives back of a plist. Scalars come back whatever is behind them, and a
collection comes back as long as its count is not cut off: `len() as u32` of 2³² items
or more can be a count below 15, and stands in a tag that no terminator follows.
-/
namespace XitForge.RemotePairing

open Xpc (PlistValue toLEBytes fromLEBytes asBytes fromLEBytes_toLEBytes toLEBytes_length
  fromUTF8_asBytes)

/-- The values that the codec is for. -/
inductive Plain : PlistValue → Prop
  | boolean (value : Bool) : Plain (.boolean value)
  | integer (value : ℤ) (h : 0 ≤ value ∧ value < 2 ^ 64) : Plain (.integer value)
  | real (bits : UInt64) : Plain (.real bits)
  | string (text : String) (h : (asBytes text).length < 2 ^ 64) : Plain (.string text)
  | data (bytes : Bytes) (h : bytes.length < 2 ^ 64) : Plain (.data bytes)
  | array (items : List PlistValue) (h : ∀ item ∈ items, Plain item) : Plain (.array items)
  | dictionary (entries : List (String × PlistValue)) (hkeys : (entries.map Prod.fst).Nodup)
      (hlengths : ∀ entry ∈ entries, (asBytes entry.1).length < 2 ^ 64)
      (h : ∀ entry ∈ entries, Plain entry.2) : Plain (.dictionary entries)

mutual

/-- The lengths of the collections in a value. -/
def collections : PlistValue → List ℕ
  | .array items => items.length :: collectionsOfItems items
  | .dictionary entries => entries.length :: collectionsOfEntries entries
  | _ => []
termination_by structural value => value

def collectionsOfItems : List PlistValue → List ℕ
  | [] => []
  | item :: rest => collections item ++ collectionsOfItems rest
termination_by structural items => items

def collectionsOfEntries : List (String × PlistValue) → List ℕ
  | [] => []
  | entry :: rest => collectionsOfEntry entry ++ collectionsOfEntries rest
termination_by structural entries => entries

def collectionsOfEntry : String × PlistValue → List ℕ
  | (_, value) => collections value
termination_by structural entry => entry

end

/-- The count of so many elements is cut off to one that goes in a tag. -/
def CutOff (len : ℕ) : Prop := 2 ^ 32 ≤ len ∧ countOf len < 15

section Floats

theorem narrowMagnitude_lt (magnitude : ℕ) : narrowMagnitude magnitude < 2 ^ 31 := by
  unfold narrowMagnitude
  dsimp only
  split
  · split
    · omega
    · apply Nat.or_lt_two_pow
      · omega
      · have hfraction : magnitude % 2 ^ 52 / 2 ^ 29 < 2 ^ 23 := by omega
        omega
  · exact Nat.lt_of_le_of_lt (Nat.min_le_left _ _) (by omega)

theorem asF32_lt {bits : ℕ} (h : bits < 2 ^ 64) : asF32 bits < 2 ^ 32 := by
  have hmagnitude := narrowMagnitude_lt (bits % 2 ^ 63)
  unfold asF32
  omega

theorem narrowMagnitude_zero : narrowMagnitude 0 = 0 := by
  have hround : ∀ shift, roundShift 0 shift = 0 := by
    intro shift
    have hpos : 0 < 2 ^ shift := Nat.two_pow_pos shift
    simp [roundShift, hpos.ne]
  unfold narrowMagnitude
  simp [hround]

/-- A double that is equal to what its single is widened to has the same bits. -/
theorem asF64_asF32 {bits : ℕ} (h : bits < 2 ^ 64) (heq : floatEq (asF64 (asF32 bits)) bits = true) :
    asF64 (asF32 bits) = bits := by
  simp only [floatEq, Bool.and_eq_true, Bool.or_eq_true, beq_iff_eq] at heq
  obtain ⟨-, heq | ⟨-, hzero⟩⟩ := heq
  · exact heq
  · have hcases : bits = 0 ∨ bits = 2 ^ 63 := by omega
    rcases hcases with rfl | rfl
    · unfold asF32 asF64
      rw [Nat.zero_mod, narrowMagnitude_zero]
      rfl
    · unfold asF32 asF64
      rw [Nat.mod_self, narrowMagnitude_zero]
      rfl

end Floats

section Words

variable (rest : Bytes)

theorem readExact_append (bytes : Bytes) : readExact bytes.length (bytes ++ rest) = .ok (bytes, rest) := by
  unfold readExact
  rw [if_pos (by simp), List.take_left, List.drop_left]

theorem readString_append (text : String) (rest : Bytes) :
    readString (asBytes text).length (asBytes text ++ rest) = .ok (text, rest) := by
  simp only [readString, readExact_append, bind, Except.bind, fromUTF8_asBytes]
  rfl

theorem readLE_append {width value : ℕ} (h : value < 256 ^ width) :
    readLE width (toLEBytes width value ++ rest) = .ok (value, rest) := by
  have hread := readExact_append rest (toLEBytes width value)
  rw [toLEBytes_length] at hread
  unfold readLE
  rw [hread]
  show Except.ok (fromLEBytes (toLEBytes width value), rest) = _
  rw [fromLEBytes_toLEBytes width value h]

theorem readBE_append {width value : ℕ} (h : value < 256 ^ width) :
    readBE width (toBEBytes width value ++ rest) = .ok (value, rest) := by
  have hread := readExact_append rest (toBEBytes width value)
  rw [toBEBytes, List.length_reverse, toLEBytes_length] at hread
  unfold readBE
  rw [toBEBytes, hread]
  show Except.ok (fromBEBytes (toLEBytes width value).reverse, rest) = _
  rw [fromBEBytes, List.reverse_reverse, fromLEBytes_toLEBytes width value h]

/-- The tags with a length in front follow the inline ones. -/
structure SizedLenTags.Consecutive (tags : SizedLenTags) : Prop where
  u8 : tags.u8Tag = tags.inlineBase + 0x21
  u16 : tags.u16Tag = tags.inlineBase + 0x22
  u32 : tags.u32Tag = tags.inlineBase + 0x23
  u64 : tags.u64Tag = tags.inlineBase + 0x24
  byte : tags.inlineBase + 0x24 < 256

theorem toNat_ofNat {value : ℕ} (h : value < 256) : (UInt8.ofNat value).toNat = value := by
  rw [UInt8.toNat_ofNat']
  omega

/-- Each size class has its own tag, and the length is read back. -/
theorem sizedLen_eq {tags : SizedLenTags} (htags : tags.Consecutive) {len : ℕ} (hlen : len < 2 ^ 64) :
    ∃ tag more, sizedLen tags len = UInt8.ofNat tag :: more ∧ tags.inlineBase ≤ tag ∧
      tag ≤ tags.inlineBase + 0x24 ∧
        ∀ rest, readSizedLen tags tag (more ++ rest) = .ok (len, rest) := by
  obtain ⟨hu8, hu16, hu32, hu64, -⟩ := htags
  unfold sizedLen
  by_cases hinline : 0x20 < len
  · rw [if_pos hinline]
    by_cases h8 : len ≤ 0xFF
    · rw [if_pos h8]
      refine ⟨tags.u8Tag, [UInt8.ofNat len], rfl, by omega, by omega, fun rest => ?_⟩
      unfold readSizedLen
      rw [if_neg (by omega), if_pos rfl]
      show Except.ok ((UInt8.ofNat len).toNat, rest) = _
      rw [toNat_ofNat (by omega)]
    rw [if_neg h8]
    by_cases h16 : len ≤ 0xFFFF
    · rw [if_pos h16]
      refine ⟨tags.u16Tag, toLEBytes 2 len, rfl, by omega, by omega, fun rest => ?_⟩
      unfold readSizedLen
      rw [if_neg (by omega), if_neg (by omega), if_pos rfl, readLE_append rest (by omega)]
    rw [if_neg h16]
    by_cases h32 : len ≤ 0xFFFFFFFF
    · rw [if_pos h32]
      refine ⟨tags.u32Tag, toLEBytes 4 len, rfl, by omega, by omega, fun rest => ?_⟩
      unfold readSizedLen
      rw [if_neg (by omega), if_neg (by omega), if_neg (by omega), if_pos rfl,
        readLE_append rest (by omega)]
    rw [if_neg h32]
    refine ⟨tags.u64Tag, toLEBytes 8 len, rfl, by omega, by omega, fun rest => ?_⟩
    unfold readSizedLen
    rw [if_neg (by omega), if_neg (by omega), if_neg (by omega), if_neg (by omega), if_pos rfl,
      readLE_append rest (by omega)]
  · rw [if_neg hinline]
    refine ⟨tags.inlineBase + len, [], rfl, by omega, by omega, fun rest => ?_⟩
    unfold readSizedLen
    rw [if_pos ⟨by omega, by omega⟩, Nat.add_sub_cancel_left]
    rfl

end Words

section Scalars

/-- A value begins with a tag, and is read back behind it whatever follows. -/
def ReadsBack (value : PlistValue) : Prop :=
  ∃ tag more, plistToOpack value = UInt8.ofNat tag :: more ∧ tag < 256 ∧ tag ≠ 0x03 ∧
    ∀ read rounds rest objects, ∃ objects',
      parseTag read rounds tag (more ++ rest) objects = .ok (value, rest, objects')

theorem readsBack_boolean (value : Bool) : ReadsBack (.boolean value) := by
  cases value with
  | true => exact ⟨1, [], rfl, by omega, by omega, fun _ _ _ objects => ⟨objects, rfl⟩⟩
  | false => exact ⟨2, [], rfl, by omega, by omega, fun _ _ _ objects => ⟨objects, rfl⟩⟩

theorem parseTag_small (read : Reader PlistValue) (rounds : ℕ) {tag : ℕ} (h : 0x08 ≤ tag ∧ tag ≤ 0x2F)
    (bytes : Bytes) (objects : Objects) :
    parseTag read rounds tag bytes objects = .ok (.integer (tag - 8 : ℕ), bytes, objects) := by
  unfold parseTag
  rw [if_neg (by omega), if_neg (by omega), if_pos h]
  rfl

theorem readsBack_integer {value : ℤ} (h : 0 ≤ value ∧ value < 2 ^ 64) :
    ReadsBack (.integer value) := by
  obtain ⟨number, rfl⟩ := Int.eq_ofNat_of_zero_le h.1
  have hnumber : number < 2 ^ 64 := by omega
  have hencode : plistToOpack (.integer number) = encodeInteger number := by
    unfold plistToOpack asUnsigned
    rw [if_pos h, Int.toNat_natCast]
  unfold ReadsBack
  rw [hencode]
  unfold encodeInteger
  by_cases h8 : number ≤ 0xFF
  · rw [if_pos h8]
    by_cases hinline : 0x27 < number
    · rw [if_pos hinline]
      refine ⟨0x30, [UInt8.ofNat number], rfl, by omega, by omega, fun read rounds rest objects =>
        ⟨_, (?_ : _ = remember (.integer number) rest objects)⟩⟩
      show remember (.integer (UInt8.ofNat number).toNat) rest objects = _
      rw [toNat_ofNat (by omega)]
    · rw [if_neg hinline]
      refine ⟨number + 8, [], rfl, by omega, by omega, fun read rounds rest objects => ⟨objects, ?_⟩⟩
      rw [parseTag_small read rounds (by omega), Nat.add_sub_cancel]
      rfl
  rw [if_neg h8]
  by_cases h32 : number ≤ 0xFFFFFFFF
  · rw [if_pos h32]
    refine ⟨0x32, toLEBytes 4 number, rfl, by omega, by omega, fun read rounds rest objects =>
      ⟨_, (?_ : _ = remember (.integer number) rest objects)⟩⟩
    show (readLE 4 (toLEBytes 4 number ++ rest) >>= fun read =>
      remember (.integer read.1) read.2 objects) = _
    rw [readLE_append rest (by omega)]
    rfl
  · rw [if_neg h32]
    refine ⟨0x33, toLEBytes 8 number, rfl, by omega, by omega, fun read rounds rest objects =>
      ⟨_, (?_ : _ = remember (.integer number) rest objects)⟩⟩
    show (readLE 8 (toLEBytes 8 number ++ rest) >>= fun read =>
      remember (.integer read.1) read.2 objects) = _
    rw [readLE_append rest (by omega)]
    rfl

theorem readsBack_real (bits : UInt64) : ReadsBack (.real bits) := by
  have hbits := bits.toNat_lt
  have hencode : plistToOpack (.real bits) = encodeReal bits.toNat := rfl
  unfold ReadsBack
  rw [hencode]
  unfold encodeReal
  by_cases heq : floatEq (asF64 (asF32 bits.toNat)) bits.toNat = true
  · rw [if_pos heq]
    refine ⟨0x35, toBEBytes 4 (asF32 bits.toNat), rfl, by omega, by omega,
      fun read rounds rest objects => ⟨_, (?_ : _ = remember (.real bits) rest objects)⟩⟩
    show (readBE 4 (toBEBytes 4 (asF32 bits.toNat) ++ rest) >>= fun read =>
      remember (.real (UInt64.ofNat (asF64 read.1))) read.2 objects) = _
    rw [readBE_append rest (asF32_lt hbits)]
    show remember (.real (UInt64.ofNat (asF64 (asF32 bits.toNat)))) rest objects = _
    rw [asF64_asF32 hbits heq, UInt64.ofNat_toNat]
  · rw [if_neg heq]
    refine ⟨0x36, toBEBytes 8 bits.toNat, rfl, by omega, by omega,
      fun read rounds rest objects => ⟨_, (?_ : _ = remember (.real bits) rest objects)⟩⟩
    show (readBE 8 (toBEBytes 8 bits.toNat ++ rest) >>= fun read =>
      remember (.real (UInt64.ofNat read.1)) read.2 objects) = _
    rw [readBE_append rest (by omega)]
    show remember (.real (UInt64.ofNat bits.toNat)) rest objects = _
    rw [UInt64.ofNat_toNat]

theorem stringTags_consecutive : stringTags.Consecutive := ⟨rfl, rfl, rfl, rfl, by decide⟩

theorem dataTags_consecutive : dataTags.Consecutive := ⟨rfl, rfl, rfl, rfl, by decide⟩

theorem readsBack_string {text : String} (h : (asBytes text).length < 2 ^ 64) :
    ReadsBack (.string text) := by
  obtain ⟨tag, more, hsized, hlow, hhigh, hread⟩ := sizedLen_eq stringTags_consecutive h
  have hbase : stringTags.inlineBase = 0x40 := rfl
  refine ⟨tag, more ++ asBytes text, ?_, by omega, by omega, fun read rounds rest objects =>
    ⟨_, (?_ : _ = remember (.string text) rest objects)⟩⟩
  · show sizedLen stringTags (asBytes text).length ++ asBytes text = _
    rw [hsized]
    rfl
  · unfold parseTag
    rw [if_neg (by omega), if_neg (by omega), if_neg (by omega), if_neg (by omega),
      if_neg (by omega), if_neg (by omega), if_neg (by omega), if_neg (by omega),
      if_neg (by omega), if_pos (by omega), List.append_assoc, hread]
    show (readString (asBytes text).length (asBytes text ++ rest) >>= fun read =>
      remember (.string read.1) read.2 objects) = _
    rw [readString_append]
    rfl

theorem readsBack_data {bytes : Bytes} (h : bytes.length < 2 ^ 64) : ReadsBack (.data bytes) := by
  obtain ⟨tag, more, hsized, hlow, hhigh, hread⟩ := sizedLen_eq dataTags_consecutive h
  have hbase : dataTags.inlineBase = 0x70 := rfl
  refine ⟨tag, more ++ bytes, ?_, by omega, by omega, fun read rounds rest objects =>
    ⟨_, (?_ : _ = remember (.data bytes) rest objects)⟩⟩
  · show sizedLen dataTags bytes.length ++ bytes = _
    rw [hsized]
    rfl
  · unfold parseTag
    rw [if_neg (by omega), if_neg (by omega), if_neg (by omega), if_neg (by omega),
      if_neg (by omega), if_neg (by omega), if_neg (by omega), if_neg (by omega),
      if_neg (by omega), if_neg (by omega), if_pos (by omega), List.append_assoc, hread]
    show (readExact bytes.length (bytes ++ rest) >>= fun read =>
      remember (.data read.1) read.2 objects) = _
    rw [readExact_append]
    rfl

end Scalars

section Collections

theorem mem_collectionsOfItems {items : List PlistValue} {len : ℕ} :
    len ∈ collectionsOfItems items ↔ ∃ item ∈ items, len ∈ collections item := by
  induction items with
  | nil => simp [collectionsOfItems]
  | cons item rest ih => simp [collectionsOfItems, ih]

theorem mem_collectionsOfEntries {entries : List (String × PlistValue)} {len : ℕ} :
    len ∈ collectionsOfEntries entries ↔ ∃ entry ∈ entries, len ∈ collections entry.2 := by
  induction entries with
  | nil => simp [collectionsOfEntries]
  | cons entry rest ih =>
    obtain ⟨key, value⟩ := entry
    simp [collectionsOfEntries, collectionsOfEntry, ih]

theorem countOf_of_not_cutOff {len : ℕ} (h : ¬ CutOff len) (hcount : countOf len < 15) :
    countOf len = len := by
  unfold CutOff at h
  unfold countOf at h hcount ⊢
  omega

theorem insertKey_new {entries : List (String × PlistValue)} {key : String} (value : PlistValue)
    (h : key ∉ entries.map Prod.fst) : insertKey entries key value = entries ++ [(key, value)] := by
  unfold insertKey
  rw [if_neg]
  intro hany
  apply h
  obtain ⟨entry, hentry, hkey⟩ := List.any_eq_true.mp hany
  exact List.mem_map.mpr ⟨entry, hentry, beq_iff_eq.mp hkey⟩

/-- The tag of a collection. -/
def collectionTag (base len : ℕ) : ℕ := if countOf len < 15 then base + countOf len else base + 0x0F

theorem plain_head {value : PlistValue} (h : Plain value) :
    ∃ tag more, plistToOpack value = UInt8.ofNat tag :: more ∧ tag < 256 ∧ tag ≠ 0x03 := by
  have hreads : ∀ {value}, ReadsBack value →
      ∃ tag more, plistToOpack value = UInt8.ofNat tag :: more ∧ tag < 256 ∧ tag ≠ 0x03 := by
    intro value ⟨tag, more, hencode, hlt, hne, _⟩
    exact ⟨tag, more, hencode, hlt, hne⟩
  cases h with
  | boolean value => exact hreads (readsBack_boolean value)
  | integer value h => exact hreads (readsBack_integer h)
  | real bits => exact hreads (readsBack_real bits)
  | string text h => exact hreads (readsBack_string h)
  | data bytes h => exact hreads (readsBack_data h)
  | array items h =>
    refine ⟨collectionTag 0xD0 items.length, _, rfl, ?_, ?_⟩
    · unfold collectionTag
      split <;> omega
    · unfold collectionTag
      split <;> omega
  | dictionary entries hkeys hlengths h =>
    refine ⟨collectionTag 0xE0 entries.length, _, rfl, ?_, ?_⟩
    · unfold collectionTag
      split <;> omega
    · unfold collectionTag
      split <;> omega

theorem head_ne_terminator {value : PlistValue} (h : Plain value) (rest : Bytes) :
    (plistToOpack value ++ rest).head? ≠ some 0x03 := by
  obtain ⟨tag, more, hencode, hlt, hne⟩ := plain_head h
  rw [hencode]
  intro hhead
  have hbyte : UInt8.ofNat tag = 0x03 := Option.some.inj hhead
  have hnat := congrArg UInt8.toNat hbyte
  rw [toNat_ofNat hlt] at hnat
  exact hne hnat

theorem inner_cons (rounds : ℕ) {tag : ℕ} (h : tag < 256) (bytes : Bytes) (objects : Objects) :
    opackToPlistInner (rounds + 1) (UInt8.ofNat tag :: bytes) objects =
      parseTag (opackToPlistInner rounds) rounds tag bytes objects := by
  show parseTag (opackToPlistInner rounds) rounds (UInt8.ofNat tag).toNat bytes objects = _
  rw [toNat_ofNat h]

/-- The value is read back in so many rounds, whatever follows. -/
def Decodes (read : Reader PlistValue) (value : PlistValue) : Prop :=
  ∀ rest objects, ∃ objects', read (plistToOpack value ++ rest) objects = .ok (value, rest, objects')

theorem decodes_of_readsBack {value : PlistValue} (h : ReadsBack value) (rounds : ℕ) :
    Decodes (opackToPlistInner (rounds + 1)) value := by
  obtain ⟨tag, more, hencode, hlt, -, hreads⟩ := h
  intro rest objects
  obtain ⟨objects', hread⟩ := hreads (opackToPlistInner rounds) rounds rest objects
  refine ⟨objects', ?_⟩
  rw [hencode, List.cons_append, inner_cons rounds hlt, hread]

variable {read : Reader PlistValue}

theorem countedItems_eq {items : List PlistValue} (h : ∀ item ∈ items, Decodes read item)
    (before : List PlistValue) (rest : Bytes) (objects : Objects) :
    ∃ objects', countedItems read items.length before (encodeItems items ++ rest) objects =
      .ok (before ++ items, rest, objects') := by
  induction items generalizing before objects with
  | nil => exact ⟨objects, by rw [List.append_nil]; rfl⟩
  | cons item items ih =>
    obtain ⟨objects₁, hitem⟩ := h item (List.mem_cons_self ..) (encodeItems items ++ rest) objects
    obtain ⟨objects₂, hitems⟩ := ih (fun other hother => h other (List.mem_cons_of_mem _ hother))
      (before ++ [item]) objects₁
    refine ⟨objects₂, ?_⟩
    rw [encodeItems, List.append_assoc, List.length_cons, countedItems, hitem]
    show countedItems read items.length (before ++ [item]) (encodeItems items ++ rest) objects₁ = _
    rw [hitems, List.append_assoc]
    rfl

theorem openItems_eq {items : List PlistValue} (h : ∀ item ∈ items, Decodes read item)
    (hplain : ∀ item ∈ items, Plain item) {rounds : ℕ} (hrounds : items.length < rounds)
    (before : List PlistValue) (rest : Bytes) (objects : Objects) :
    ∃ objects', openItems read rounds before (encodeItems items ++ 0x03 :: rest) objects =
      .ok (before ++ items, rest, objects') := by
  obtain ⟨rounds, rfl⟩ : ∃ n, rounds = n + 1 := ⟨rounds - 1, by omega⟩
  induction items generalizing before objects rounds with
  | nil => exact ⟨objects, by rw [List.append_nil]; rfl⟩
  | cons item items ih =>
    rw [List.length_cons] at hrounds
    obtain ⟨objects₁, hitem⟩ :=
      h item (List.mem_cons_self ..) (encodeItems items ++ 0x03 :: rest) objects
    obtain ⟨objects₂, hitems⟩ := ih (fun other hother => h other (List.mem_cons_of_mem _ hother))
      (fun other hother => hplain other (List.mem_cons_of_mem _ hother))
      (before ++ [item]) objects₁ (rounds - 1) (by omega)
    have hhead := head_ne_terminator (hplain item (List.mem_cons_self ..))
      (encodeItems items ++ 0x03 :: rest)
    refine ⟨objects₂, ?_⟩
    rw [encodeItems, List.append_assoc, openItems, if_neg hhead, hitem]
    show openItems read rounds (before ++ [item]) (encodeItems items ++ 0x03 :: rest) objects₁ = _
    rw [Nat.sub_add_cancel (by omega)] at hitems
    rw [hitems, List.append_assoc]
    rfl

theorem readDictionaryKey_eq {key : String} (h : Decodes read (.string key)) (rest : Bytes)
    (objects : Objects) :
    ∃ objects', readDictionaryKey read (encodeString key ++ rest) objects =
      .ok (key, rest, objects') := by
  obtain ⟨objects', hread⟩ := h rest objects
  refine ⟨objects', ?_⟩
  unfold readDictionaryKey
  have hencode : encodeString key = plistToOpack (.string key) := rfl
  rw [hencode, hread]
  rfl

/-- A key that is new and its value, and the dictionary with them at its end. -/
theorem entry_eq {key : String} {value : PlistValue} (hkey : Decodes read (.string key))
    (hvalue : Decodes read value) {before after : List (String × PlistValue)}
    (hkeys : ((before ++ (key, value) :: after).map Prod.fst).Nodup) (rest : Bytes)
    (objects : Objects) {α : Type}
    (next : List (String × PlistValue) → Bytes → Objects → Except OpackError α) :
    ∃ objects', (do
      let (key, bytes, objects) ← readDictionaryKey read
        (encodeString key ++ (plistToOpack value ++ rest)) objects
      let (value, bytes, objects) ← read bytes objects
      next (insertKey before key value) bytes objects) =
        next (before ++ [(key, value)]) rest objects' := by
  obtain ⟨objects₁, hkeyRead⟩ := readDictionaryKey_eq hkey (plistToOpack value ++ rest) objects
  obtain ⟨objects₂, hvalueRead⟩ := hvalue rest objects₁
  have hnew : key ∉ before.map Prod.fst := by
    rw [List.map_append, List.map_cons, List.nodup_append] at hkeys
    intro hmem
    exact hkeys.2.2 key hmem key (List.mem_cons_self ..) rfl
  refine ⟨objects₂, ?_⟩
  rw [hkeyRead]
  show (read (plistToOpack value ++ rest) objects₁ >>= fun (value, bytes, objects) =>
    next (insertKey before key value) bytes objects) = _
  rw [hvalueRead]
  show next (insertKey before key value) rest objects₂ = _
  rw [insertKey_new value hnew]

theorem countedEntries_eq {entries : List (String × PlistValue)}
    (h : ∀ entry ∈ entries, Decodes read (.string entry.1) ∧ Decodes read entry.2)
    (before : List (String × PlistValue)) (hkeys : ((before ++ entries).map Prod.fst).Nodup)
    (rest : Bytes) (objects : Objects) :
    ∃ objects', countedEntries read entries.length before (encodeEntries entries ++ rest) objects =
      .ok (before ++ entries, rest, objects') := by
  induction entries generalizing before objects with
  | nil => exact ⟨objects, by rw [List.append_nil]; rfl⟩
  | cons entry entries ih =>
    obtain ⟨key, value⟩ := entry
    obtain ⟨hkey, hvalue⟩ := h (key, value) (List.mem_cons_self ..)
    obtain ⟨objects₁, hentry⟩ := entry_eq hkey hvalue hkeys (encodeEntries entries ++ rest) objects
      (countedEntries read entries.length)
    rw [List.append_cons] at hkeys
    obtain ⟨objects₂, hentries⟩ := ih (fun other hother => h other (List.mem_cons_of_mem _ hother))
      (before ++ [(key, value)]) hkeys objects₁
    refine ⟨objects₂, ?_⟩
    rw [encodeEntries, encodeEntry, List.append_assoc, List.append_assoc, List.length_cons,
      countedEntries, hentry, hentries, List.append_assoc]
    rfl

theorem openEntries_eq {entries : List (String × PlistValue)}
    (h : ∀ entry ∈ entries, Decodes read (.string entry.1) ∧ Decodes read entry.2)
    (hlengths : ∀ entry ∈ entries, (asBytes entry.1).length < 2 ^ 64)
    {rounds : ℕ} (hrounds : entries.length < rounds)
    (before : List (String × PlistValue)) (hkeys : ((before ++ entries).map Prod.fst).Nodup)
    (rest : Bytes) (objects : Objects) :
    ∃ objects', openEntries read rounds before (encodeEntries entries ++ 0x03 :: rest) objects =
      .ok (before ++ entries, rest, objects') := by
  obtain ⟨rounds, rfl⟩ : ∃ n, rounds = n + 1 := ⟨rounds - 1, by omega⟩
  induction entries generalizing before objects rounds with
  | nil => exact ⟨objects, by rw [List.append_nil]; rfl⟩
  | cons entry entries ih =>
    obtain ⟨key, value⟩ := entry
    rw [List.length_cons] at hrounds
    obtain ⟨hkey, hvalue⟩ := h (key, value) (List.mem_cons_self ..)
    obtain ⟨objects₁, hentry⟩ := entry_eq hkey hvalue hkeys (encodeEntries entries ++ 0x03 :: rest)
      objects (openEntries read rounds)
    rw [List.append_cons] at hkeys
    obtain ⟨objects₂, hentries⟩ := ih (fun other hother => h other (List.mem_cons_of_mem _ hother))
      (fun other hother => hlengths other (List.mem_cons_of_mem _ hother))
      (before ++ [(key, value)]) hkeys objects₁ (rounds - 1) (by omega)
    have hhead := head_ne_terminator (.string key (hlengths (key, value) (List.mem_cons_self ..)))
      (plistToOpack value ++ (encodeEntries entries ++ 0x03 :: rest))
    have hencode : encodeString key = plistToOpack (.string key) := rfl
    rw [Nat.sub_add_cancel (by omega)] at hentries
    refine ⟨objects₂, ?_⟩
    rw [encodeEntries, encodeEntry, List.append_assoc, List.append_assoc, openEntries, hencode,
      if_neg hhead, ← hencode, hentry, hentries, List.append_assoc]
    rfl

theorem encodeItems_length {items : List PlistValue} (h : ∀ item ∈ items, Plain item) :
    items.length ≤ (encodeItems items).length ∧
      ∀ item ∈ items, (plistToOpack item).length ≤ (encodeItems items).length := by
  induction items with
  | nil => exact ⟨Nat.zero_le _, nofun⟩
  | cons item rest ih =>
    obtain ⟨hcount, hlengths⟩ := ih fun other hother => h other (List.mem_cons_of_mem _ hother)
    obtain ⟨tag, more, hencode, -, -⟩ := plain_head (h item (List.mem_cons_self ..))
    rw [encodeItems, List.length_append]
    constructor
    · rw [hencode, List.length_cons, List.length_cons]
      omega
    · intro other hother
      rcases List.mem_cons.mp hother with rfl | hrest
      · omega
      · have hle := hlengths other hrest
        omega

theorem encodeEntries_length {entries : List (String × PlistValue)}
    (h : ∀ entry ∈ entries, Plain entry.2) :
    entries.length ≤ (encodeEntries entries).length ∧
      ∀ entry ∈ entries, (encodeString entry.1).length + (plistToOpack entry.2).length ≤
        (encodeEntries entries).length := by
  induction entries with
  | nil => exact ⟨Nat.zero_le _, nofun⟩
  | cons entry rest ih =>
    obtain ⟨key, value⟩ := entry
    obtain ⟨hcount, hlengths⟩ := ih fun other hother => h other (List.mem_cons_of_mem _ hother)
    obtain ⟨tag, more, hencode, -, -⟩ := plain_head (h (key, value) (List.mem_cons_self ..))
    rw [encodeEntries, encodeEntry, List.length_append, List.length_append]
    constructor
    · rw [hencode, List.length_cons, List.length_cons]
      omega
    · intro other hother
      rcases List.mem_cons.mp hother with rfl | hrest
      · dsimp only
        omega
      · have hle := hlengths other hrest
        omega

theorem parseTag_counted_items (rounds : ℕ) {count : ℕ} (h : count < 15) (bytes : Bytes)
    (objects : Objects) :
    parseTag read rounds (0xD0 + count) bytes objects = (do
      let (items, bytes, objects) ← countedItems read count [] bytes objects
      return (.array items, bytes, objects)) := by
  unfold parseTag
  rw [if_neg (by omega), if_neg (by omega), if_neg (by omega), if_neg (by omega), if_neg (by omega),
    if_neg (by omega), if_neg (by omega), if_neg (by omega), if_neg (by omega), if_neg (by omega),
    if_neg (by omega), if_neg (by omega), if_neg (by omega), if_pos (by omega),
    Nat.add_sub_cancel_left]

theorem parseTag_counted_entries (rounds : ℕ) {count : ℕ} (h : count < 15) (bytes : Bytes)
    (objects : Objects) :
    parseTag read rounds (0xE0 + count) bytes objects = (do
      let (entries, bytes, objects) ← countedEntries read count [] bytes objects
      return (.dictionary entries, bytes, objects)) := by
  unfold parseTag
  rw [if_neg (by omega), if_neg (by omega), if_neg (by omega), if_neg (by omega), if_neg (by omega),
    if_neg (by omega), if_neg (by omega), if_neg (by omega), if_neg (by omega), if_neg (by omega),
    if_neg (by omega), if_neg (by omega), if_neg (by omega), if_neg (by omega), if_neg (by omega),
    if_pos (by omega), Nat.add_sub_cancel_left]

/-- A collection whose count is not cut off is its count and its elements, or its
elements and a terminator. -/
theorem decodes_array {items : List PlistValue} (hplain : ∀ item ∈ items, Plain item)
    (hcut : ¬ CutOff items.length) {rounds : ℕ}
    (hitems : ∀ item ∈ items, Decodes (opackToPlistInner rounds) item)
    (hrounds : (plistToOpack (.array items)).length ≤ rounds + 1) :
    Decodes (opackToPlistInner (rounds + 1)) (.array items) := by
  intro rest objects
  rw [plistToOpack] at hrounds ⊢
  unfold blen terminator at hrounds ⊢
  by_cases hcount : countOf items.length < 15
  · rw [if_pos hcount, if_neg (by omega), List.append_nil, List.cons_append,
      inner_cons rounds (by omega), parseTag_counted_items rounds hcount,
      countOf_of_not_cutOff hcut hcount]
    obtain ⟨objects', hread⟩ := countedItems_eq hitems [] rest objects
    exact ⟨objects', by rw [hread]; rfl⟩
  · rw [if_neg hcount, if_pos (by omega), List.length_cons, List.length_append] at hrounds
    rw [if_neg hcount, if_pos (by omega), List.cons_append, inner_cons rounds (by omega),
      List.append_assoc]
    have hlength := (encodeItems_length hplain).1
    obtain ⟨objects', hread⟩ := openItems_eq hitems hplain (by
      rw [List.length_singleton] at hrounds
      omega : items.length < rounds) [] rest objects
    refine ⟨objects', ?_⟩
    show (openItems (opackToPlistInner rounds) rounds [] (encodeItems items ++ 0x03 :: rest) objects >>=
      fun (items, bytes, objects) => pure (PlistValue.array items, bytes, objects)) = _
    rw [hread]
    rfl

theorem decodes_dictionary {entries : List (String × PlistValue)}
    (hplain : ∀ entry ∈ entries, Plain entry.2) (hkeys : (entries.map Prod.fst).Nodup)
    (hlengths : ∀ entry ∈ entries, (asBytes entry.1).length < 2 ^ 64)
    (hcut : ¬ CutOff entries.length) {rounds : ℕ}
    (hentries : ∀ entry ∈ entries, Decodes (opackToPlistInner rounds) (.string entry.1) ∧
      Decodes (opackToPlistInner rounds) entry.2)
    (hrounds : (plistToOpack (.dictionary entries)).length ≤ rounds + 1) :
    Decodes (opackToPlistInner (rounds + 1)) (.dictionary entries) := by
  intro rest objects
  rw [plistToOpack] at hrounds ⊢
  unfold blen terminator at hrounds ⊢
  by_cases hcount : countOf entries.length < 15
  · rw [if_pos hcount, if_neg (by omega), List.append_nil, List.cons_append,
      inner_cons rounds (by omega), parseTag_counted_entries rounds hcount,
      countOf_of_not_cutOff hcut hcount]
    obtain ⟨objects', hread⟩ := countedEntries_eq hentries [] hkeys rest objects
    exact ⟨objects', by rw [hread]; rfl⟩
  · rw [if_neg hcount, if_pos (by omega), List.length_cons, List.length_append] at hrounds
    rw [if_neg hcount, if_pos (by omega), List.cons_append, inner_cons rounds (by omega),
      List.append_assoc]
    have hlength := (encodeEntries_length hplain).1
    obtain ⟨objects', hread⟩ := openEntries_eq hentries hlengths (by
      rw [List.length_singleton] at hrounds
      omega : entries.length < rounds) [] hkeys rest objects
    refine ⟨objects', ?_⟩
    show (openEntries (opackToPlistInner rounds) rounds [] (encodeEntries entries ++ 0x03 :: rest)
      objects >>= fun (entries, bytes, objects) => pure (PlistValue.dictionary entries, bytes, objects)) = _
    rw [hread]
    rfl

theorem encode_pos {value : PlistValue} (h : Plain value) : 0 < (plistToOpack value).length := by
  obtain ⟨tag, more, hencode, -, -⟩ := plain_head h
  rw [hencode, List.length_cons]
  omega

theorem decodes_of_plain {value : PlistValue} (h : Plain value)
    (hcut : ∀ len ∈ collections value, ¬ CutOff len) {rounds : ℕ}
    (hrounds : (plistToOpack value).length ≤ rounds) : Decodes (opackToPlistInner rounds) value := by
  have hpos := encode_pos h
  obtain ⟨rounds, rfl⟩ : ∃ n, rounds = n + 1 := ⟨rounds - 1, by omega⟩
  induction h generalizing rounds with
  | boolean value => exact decodes_of_readsBack (readsBack_boolean value) rounds
  | integer value h => exact decodes_of_readsBack (readsBack_integer h) rounds
  | real bits => exact decodes_of_readsBack (readsBack_real bits) rounds
  | string text h => exact decodes_of_readsBack (readsBack_string h) rounds
  | data bytes h => exact decodes_of_readsBack (readsBack_data h) rounds
  | array items h ih =>
    have hlength : (encodeItems items).length ≤ rounds := by
      rw [plistToOpack, List.length_cons, List.length_append] at hrounds
      omega
    refine decodes_array h (hcut items.length (by simp [collections])) ?_ hrounds
    intro item hitem
    have hle := (encodeItems_length h).2 item hitem
    have hitemPos := encode_pos (h item hitem)
    obtain ⟨inner, rfl⟩ : ∃ n, rounds = n + 1 := ⟨rounds - 1, by omega⟩
    refine ih item hitem ?_ hitemPos inner (by omega)
    intro len hlen
    apply hcut
    rw [collections]
    exact List.mem_cons_of_mem _ (mem_collectionsOfItems.mpr ⟨item, hitem, hlen⟩)
  | dictionary entries hkeys hlengths h ih =>
    have hlength : (encodeEntries entries).length ≤ rounds := by
      rw [plistToOpack, List.length_cons, List.length_append] at hrounds
      omega
    refine decodes_dictionary h hkeys hlengths (hcut entries.length (by simp [collections])) ?_ hrounds
    intro entry hentry
    have hle := (encodeEntries_length h).2 entry hentry
    have hentryPos := encode_pos (h entry hentry)
    obtain ⟨inner, rfl⟩ : ∃ n, rounds = n + 1 := ⟨rounds - 1, by omega⟩
    constructor
    · exact decodes_of_readsBack (readsBack_string (hlengths entry hentry)) inner
    · refine ih entry hentry ?_ hentryPos inner (by omega)
      intro len hlen
      apply hcut
      rw [collections]
      exact List.mem_cons_of_mem _ (mem_collectionsOfEntries.mpr ⟨entry, hentry, hlen⟩)

end Collections

/-- A plist whose counts are not cut off comes back. -/
theorem opackToPlist_of_plain {value : PlistValue} (h : Plain value)
    (hcut : ∀ len ∈ collections value, ¬ CutOff len) :
    opackToPlist (plistToOpack value) = .ok value := by
  obtain ⟨objects, hread⟩ := decodes_of_plain h hcut (Nat.le_succ _) [] []
  rw [List.append_nil] at hread
  unfold opackToPlist
  rw [hread]
  rfl

end XitForge.RemotePairing
