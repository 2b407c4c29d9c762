import XitForge.KeyedList
import XitForge.Numerals
import XitForge.RustSlice
import XitForge.Separators
import XitForge.StrSlice
import XitForge.Utf16

/-!
The identifiers of a device in recovery mode, from its serial string and from a string
descriptor. The hex decoder slices a text at even offsets, and the descriptor is cut at the
length that it gives for itself.
-/
namespace XitForge.Restore.RecoveryInfo

open RustEval RustSlice ByteStream KeyedList Numerals Separators StrSlice

abbrev Text := List Char

structure DeviceInfo where
  cpid : Option ℕ
  bdid : Option ℕ
  ecid : Option ℕ
  ibfl : Option ℕ
  srnm : Option Text
  srtg : Option Text
  apNonce : Option Bytes
  sepNonce : Option Bytes
  raw : List (Text × Text)

/-- `DeviceInfo::default`. -/
def DeviceInfo.empty : DeviceInfo := ⟨none, none, none, none, none, none, none, none, []⟩

inductive RecoveryError where
  | transport
  | recovery (text : String)
  deriving DecidableEq

def CPID : Text := "CPID".toList
def BDID : Text := "BDID".toList
def ECID : Text := "ECID".toList
def IBFL : Text := "IBFL".toList
def SRNM : Text := "SRNM".toList
def SRTG : Text := "SRTG".toList
def NONC : Text := "NONC".toList
def SNON : Text := "SNON".toList

section Hex

/-- `(start..).step_by(2)`, so many of them. -/
def stepBy2 (start : ℕ) : ℕ → List ℕ
  | 0 => []
  | count + 1 => start :: stepBy2 (start + 2) count

/-- `u8::from_str_radix` of the slices at some offsets, up to the first that is none. -/
def decodePairs (s : Text) : List ℕ → Eval Empty (Option Bytes)
  | [] => .ok (some [])
  | i :: rest => do
    let pair ← slice s i (i + 2)
    match fromStrRadix 8 16 pair with
    | none => .ok none
    | some byte => do
      let bytes ← decodePairs s rest
      .ok (bytes.map (UInt8.ofNat byte :: ·))

def hexDecode (s : Text) : Eval Empty (Option Bytes) :=
  if byteLength s % 2 ≠ 0 then .ok none
  else decodePairs s (stepBy2 0 (byteLength s / 2))

end Hex

section Parse

/-- The value of a serial number or a tag without its brackets. -/
def stripBrackets (key value : Text) : Eval Empty Text :=
  if (key = SRNM ∨ key = SRTG) ∧ value.head? = some '[' ∧ value.getLast? = some ']' then
    slice value 1 (byteLength value - 1)
  else .ok value

/-- The field of a key. -/
def setField (info : DeviceInfo) (key value : Text) : Eval Empty DeviceInfo :=
  if key = CPID then .ok { info with cpid := fromStrRadix 64 16 value }
  else if key = BDID then .ok { info with bdid := fromStrRadix 64 16 value }
  else if key = ECID then .ok { info with ecid := fromStrRadix 64 16 value }
  else if key = IBFL then .ok { info with ibfl := fromStrRadix 64 16 value }
  else if key = SRNM then .ok { info with srnm := some value }
  else if key = SRTG then .ok { info with srtg := some value }
  else if key = NONC then do
    let nonce ← hexDecode value
    .ok { info with apNonce := nonce }
  else if key = SNON then do
    let nonce ← hexDecode value
    .ok { info with sepNonce := nonce }
  else .ok info

def parseComponent (info : DeviceInfo) (component : Text) : Eval Empty DeviceInfo :=
  match splitOnce ':' component with
  | none => .ok info
  | some (key, value) => do
    let value ← stripBrackets key value
    setField { info with raw := insert info.raw key value } key value

def parseAll : DeviceInfo → List Text → Eval Empty DeviceInfo
  | info, [] => .ok info
  | info, component :: rest => do
    let info ← parseComponent info component
    parseAll info rest

/-- `DeviceInfo::parse`. -/
def parse (serial : Text) : Eval Empty DeviceInfo := parseAll .empty (serial.splitOn ' ')

/-- `as_chunks::<2>` as numbers of two bytes, the rest being left out. -/
def units : Bytes → Utf16.Units
  | low :: high :: rest => UInt16.ofNat (leValue [low, high]) :: units rest
  | _ => []

/-- `read_string_descriptor`, of what the transfer has returned. -/
def readStringDescriptor (index : ℕ) (answer : Except RecoveryError Bytes) :
    Eval RecoveryError Text :=
  match answer with
  | .error error => .err error
  | .ok data =>
    if data.length < 2 ∨ data[1]? ≠ some 0x03 then
      .err (.recovery s!"string descriptor {index} malformed or absent")
    else do
      let length ← RustSlice.index data 0
      let stop := min length.toNat data.length
      let piece ← RustSlice.slice data 2 stop
      .ok (Utf16.lossy (units piece))

/-- `entry(key).or_insert(value)` of each of some entries. -/
def orInsert (raw : List (Text × Text)) : List (Text × Text) → List (Text × Text)
  | [] => raw
  | (key, value) :: rest =>
    orInsert (if get raw key = none then insert raw key value else raw) rest

def loadNoncesFromDescriptor (info : DeviceInfo) (answer : Except RecoveryError Bytes) :
    Eval RecoveryError DeviceInfo :=
  if info.apNonce.isSome ∧ info.sepNonce.isSome then .ok info
  else
    match readStringDescriptor 1 answer with
    | .err _ => .ok info
    | .panic => .panic
    | .ok extra =>
      match parse extra with
      | .err error => error.elim
      | .panic => .panic
      | .ok parsed => .ok { info with
          apNonce := info.apNonce.or parsed.apNonce
          sepNonce := info.sepNonce.or parsed.sepNonce
          raw := orInsert info.raw parsed.raw }

end Parse

section HexSafety

theorem map_panic_iff {α β : Type} (first : Eval Empty α) (f : α → β) :
    (first >>= fun value => .ok (f value)) = .panic ↔ first = .panic := by
  cases first <;> simp

/-- The next slice of two bytes ends inside of a character, or one of those behind pairs of
digits does. -/
inductive Straddles : Text → Prop
  | wide (c : Char) (rest : Text) (h : 3 ≤ c.utf8Size) : Straddles (c :: rest)
  | late (c d : Char) (rest : Text) (hc : c.utf8Size = 1) (hd : 2 ≤ d.utf8Size) :
      Straddles (c :: d :: rest)
  | pair (c d : Char) (rest : Text) (h : (fromStrRadix 8 16 [c, d]).isSome = true)
      (hrest : Straddles rest) : Straddles (c :: d :: rest)

/-- A text that the decoder panics on. -/
def BadHex (s : Text) : Prop := byteLength s % 2 = 0 ∧ Straddles s

theorem toDigit_lt {c : Char} (h : (toDigit 16 c).isSome = true) : c.toNat < 0x80 := by
  have hle {low high : Char} (hc : low ≤ c ∧ c ≤ high) (hhigh : high.toNat < 0x80) :
      c.toNat < 0x80 := by
    have hnat : c.toNat ≤ high.toNat := hc.2
    omega
  unfold toDigit at h
  dsimp only at h
  split_ifs at h with h1 h2 h3
  · exact hle h1 (by decide)
  · exact hle h2 (by decide)
  · exact hle h3 (by decide)
  · simp at h

/-- The digits of a number, behind its sign. -/
theorem fromStrRadix_isSome {text : Text} (h : (fromStrRadix 8 16 text).isSome = true) {c : Char}
    (hc : c ∈ text) : c.toNat < 0x80 := by
  have hdigits : ∀ (digits : Text) (value : ℕ), (digitsValue 16 value digits).isSome = true →
      ∀ c ∈ digits, c.toNat < 0x80 := by
    intro digits
    induction digits with
    | nil =>
      intro _ _ c hc
      cases hc
    | cons d rest ih =>
      intro value hvalue c hc
      rw [digitsValue] at hvalue
      cases hdigit : toDigit 16 d with
      | none =>
        rw [hdigit] at hvalue
        cases hvalue
      | some digit =>
        rw [hdigit] at hvalue
        rcases List.mem_cons.mp hc with rfl | hc
        · exact toDigit_lt (by rw [hdigit]; rfl)
        · exact ih _ hvalue c hc
  have hvalue : (digitsValue 16 0 (withoutSign text)).isSome = true := by
    unfold fromStrRadix at h
    dsimp only at h
    split at h
    · cases h
    · obtain ⟨n, hn⟩ := Option.isSome_iff_exists.mp h
      rw [(Option.filter_eq_some_iff.mp hn).1]
      rfl
  unfold withoutSign at hvalue
  split at hvalue
  · rcases List.mem_cons.mp hc with rfl | hc
    · decide
    · exact hdigits _ _ hvalue c hc
  · exact hdigits _ _ hvalue c hc

/-- No pair starts with a character of several bytes. -/
theorem fromStrRadix_eq_none {c : Char} (h : c.utf8Size ≠ 1) (rest : Text) :
    fromStrRadix 8 16 (c :: rest) = none := by
  cases hvalue : fromStrRadix 8 16 (c :: rest) with
  | none => rfl
  | some n =>
    have hsome : (fromStrRadix 8 16 (c :: rest)).isSome = true := by rw [hvalue]; rfl
    exact absurd (utf8Size_eq_one (fromStrRadix_isSome hsome List.mem_cons_self)) h

theorem not_straddles_of_two {c : Char} {rest : Text} (h : c.utf8Size = 2) :
    ¬ Straddles (c :: rest) := by
  intro hstraddles
  cases hstraddles with
  | wide _ _ hwide => omega
  | late _ _ _ hc _ => omega
  | pair _ d rest hpair _ =>
    rw [fromStrRadix_eq_none (by omega)] at hpair
    cases hpair

theorem straddles_pair_iff {c d : Char} {rest : Text} (hc : c.utf8Size = 1) (hd : d.utf8Size = 1) :
    Straddles (c :: d :: rest) ↔ (fromStrRadix 8 16 [c, d]).isSome = true ∧ Straddles rest := by
  constructor
  · intro h
    cases h with
    | wide _ _ hwide => omega
    | late _ _ _ _ hlate => omega
    | pair _ _ _ hpair hrest => exact ⟨hpair, hrest⟩
  · intro h
    exact .pair c d rest h.1 h.2

section Cuts

variable {c d : Char} {rest : Text}

theorem splitAtByte_pair (hc : c.utf8Size = 1) (hd : d.utf8Size = 1) :
    splitAtByte (c :: d :: rest) 2 = some ([c, d], rest) := by
  have hsize : byteLength [c, d] = 2 := by
    simp only [byteLength, hc, hd]
  have happend := splitAtByte_append [c, d] rest
  rw [hsize] at happend
  exact happend

theorem splitAtByte_late (hc : c.utf8Size = 1) (hd : 2 ≤ d.utf8Size) :
    splitAtByte (c :: d :: rest) 2 = none := by
  rw [splitAtByte, if_pos (by omega), hc]
  change (splitAtByte (d :: rest) 1).map _ = none
  rw [splitAtByte, if_neg (by omega)]
  rfl

theorem splitAtByte_double (hc : c.utf8Size = 2) :
    splitAtByte (c :: rest) 2 = some ([c], rest) := by
  have happend := splitAtByte_append [c] rest
  rw [byteLength, byteLength, hc] at happend
  exact happend

theorem splitAtByte_wide (hc : 3 ≤ c.utf8Size) : splitAtByte (c :: rest) 2 = none := by
  rw [splitAtByte, if_neg (by omega)]

end Cuts

theorem decodePairs_panic_iff (front rest : Text) (count : ℕ) (h : byteLength rest = 2 * count) :
    decodePairs (front ++ rest) (stepBy2 (byteLength front) count) =
      .panic ↔ Straddles rest := by
  induction count generalizing front rest with
  | zero =>
    rw [byteLength_eq_zero h]
    refine iff_of_false (fun hpanic => by cases hpanic) fun hstraddles => by cases hstraddles
  | succ count ih =>
    cases rest with
    | nil => simp [byteLength] at h
    | cons c rest =>
      have hpos := c.utf8Size_pos
      rw [byteLength] at h
      rw [stepBy2, decodePairs, slice_behind]
      by_cases hone : c.utf8Size = 1
      · cases rest with
        | nil =>
          rw [byteLength] at h
          omega
        | cons d rest =>
          have hpos' := d.utf8Size_pos
          rw [byteLength] at h
          by_cases hd : d.utf8Size = 1
          · rw [splitAtByte_pair hone hd, straddles_pair_iff hone hd]
            dsimp only
            rw [Eval.ok_bind]
            cases hpair : fromStrRadix 8 16 [c, d] with
            | none => simp
            | some byte =>
              have hnext := ih (front ++ [c, d]) rest (by omega)
              have hsize : byteLength [c, d] = 2 := by
                simp only [byteLength, hone, hd]
              rw [byteLength_append, hsize, List.append_assoc] at hnext
              dsimp only
              rw [Option.isSome_some, eq_self, true_and, ← hnext]
              exact map_panic_iff _ _
          · rw [splitAtByte_late hone (by omega)]
            exact iff_of_true rfl (.late c d rest hone (by omega))
      · by_cases htwo : c.utf8Size = 2
        · rw [splitAtByte_double htwo]
          dsimp only
          rw [Eval.ok_bind, fromStrRadix_eq_none hone]
          exact iff_of_false (by simp) (not_straddles_of_two htwo)
        · rw [splitAtByte_wide (by omega)]
          exact iff_of_true rfl (.wide c rest (by omega))

theorem hexDecode_panic_iff (s : Text) :
    hexDecode s = .panic ↔ BadHex s := by
  unfold hexDecode BadHex
  by_cases heven : byteLength s % 2 = 0
  · rw [if_neg (not_not_intro heven)]
    have hpairs := decodePairs_panic_iff [] s (byteLength s / 2) (by omega)
    rw [List.nil_append, byteLength] at hpairs
    rw [hpairs]
    simp [heven]
  · rw [if_pos heven]
    simp [heven]

end HexSafety

section Safety

/-- A nonce that the parser panics on. -/
def BadComponent (component : Text) : Prop :=
  ∃ key value, splitOnce ':' component = some (key, value) ∧ (key = NONC ∨ key = SNON) ∧
    BadHex value

/-- A text that the parser panics on. -/
def BadSerial (serial : Text) : Prop := ∃ component ∈ serial.splitOn ' ', BadComponent component

/-- A descriptor with a length below that of its first two bytes. -/
def BadDescriptor (data : Bytes) : Prop :=
  2 ≤ data.length ∧ data[1]? = some 0x03 ∧ ∃ length, data[0]? = some length ∧ length.toNat < 2

/-- Brackets are characters of one byte. -/
theorem stripBrackets_eq (key inner : Text) (hkey : key = SRNM ∨ key = SRTG) :
    stripBrackets key ('[' :: inner ++ [']']) = .ok inner := by
  have hlength : byteLength ('[' :: inner ++ [']']) - 1 = byteLength ['['] + byteLength inner := by
    rw [byteLength_append, byteLength, byteLength, byteLength, byteLength]
    change 1 + byteLength inner + 1 - 1 = 1 + byteLength inner
    omega
  have hpiece := @slice_append Empty ['['] inner [']']
  unfold stripBrackets
  rw [if_pos ⟨hkey, rfl, List.getLast?_concat⟩, hlength]
  exact hpiece

theorem exists_brackets {value : Text} (h : value.head? = some '[') (hlast : value.getLast? = some ']') :
    ∃ inner, value = '[' :: inner ++ [']'] := by
  cases value with
  | nil => cases h
  | cons c rest =>
    cases h
    rcases List.eq_nil_or_concat rest with rfl | ⟨inner, d, rfl⟩
    · cases hlast
    · rw [List.concat_eq_append, ← List.cons_append, List.getLast?_concat,
        Option.some.injEq] at hlast
      exact ⟨inner, by rw [hlast, List.concat_eq_append]; rfl⟩

theorem stripBrackets_ok (key value : Text) :
    ∃ stripped, stripBrackets key value = .ok stripped ∧
      (key ≠ SRNM → key ≠ SRTG → stripped = value) := by
  by_cases hkey : key = SRNM ∨ key = SRTG
  · by_cases hvalue : value.head? = some '[' ∧ value.getLast? = some ']'
    · obtain ⟨inner, rfl⟩ := exists_brackets hvalue.1 hvalue.2
      exact ⟨inner, stripBrackets_eq key inner hkey, fun h h' => absurd hkey (by tauto)⟩
    · exact ⟨value, if_neg fun h => hvalue h.2, fun _ _ => rfl⟩
  · exact ⟨value, if_neg fun h => hkey h.1, fun _ _ => rfl⟩

/-- A nonce of well-formed digits. -/
def nonceOf (value : Text) : Option Bytes :=
  match hexDecode value with
  | .ok nonce => nonce
  | _ => none

/-- A key sets its own field and leaves the others. -/
theorem setField_eq (info : DeviceInfo) {key value : Text}
    (hnonce : key ∈ [NONC, SNON] → hexDecode value = .ok (nonceOf value)) :
    setField info key value = .ok {
      cpid := if key = CPID then fromStrRadix 64 16 value else info.cpid
      bdid := if key = BDID then fromStrRadix 64 16 value else info.bdid
      ecid := if key = ECID then fromStrRadix 64 16 value else info.ecid
      ibfl := if key = IBFL then fromStrRadix 64 16 value else info.ibfl
      srnm := if key = SRNM then some value else info.srnm
      srtg := if key = SRTG then some value else info.srtg
      apNonce := if key = NONC then nonceOf value else info.apNonce
      sepNonce := if key = SNON then nonceOf value else info.sepNonce
      raw := info.raw } := by
  unfold setField
  by_cases hkey : key ∈ [CPID, BDID, ECID, IBFL, SRNM, SRTG, NONC, SNON]
  · simp only [List.mem_cons, List.not_mem_nil, or_false] at hkey
    rcases hkey with rfl | rfl | rfl | rfl | rfl | rfl | rfl | rfl
    · simp +decide
    · simp +decide
    · simp +decide
    · simp +decide
    · simp +decide
    · simp +decide
    · simp +decide [hnonce (by simp)]
    · simp +decide [hnonce (by simp)]
  · simp only [List.mem_cons, List.not_mem_nil, or_false, not_or] at hkey
    simp [hkey]

theorem setField_panic_iff (info : DeviceInfo) (key value : Text) :
    setField info key value = .panic ↔
      (key = NONC ∨ key = SNON) ∧ BadHex value := by
  by_cases hkey : key = NONC ∨ key = SNON
  · rw [← hexDecode_panic_iff, and_iff_right hkey]
    unfold setField
    rcases hkey with rfl | rfl
    · simp +decide [map_panic_iff]
    · simp +decide [map_panic_iff]
  · rw [setField_eq info fun hmem => absurd (List.mem_pair.mp hmem) hkey]
    simp [hkey]

theorem parseComponent_panic_iff (info : DeviceInfo) (component : Text) :
    parseComponent info component = .panic ↔ BadComponent component := by
  unfold parseComponent BadComponent
  cases hsplit : splitOnce ':' component with
  | none => simp
  | some parts =>
    obtain ⟨key, value⟩ := parts
    obtain ⟨stripped, hstrip, hsame⟩ := stripBrackets_ok key value
    dsimp only
    rw [hstrip, Eval.ok_bind, setField_panic_iff]
    have hvalue (hkey : key = NONC ∨ key = SNON) : stripped = value := by
      rcases hkey with rfl | rfl
      · exact hsame (by decide) (by decide)
      · exact hsame (by decide) (by decide)
    constructor
    · intro h
      rw [hvalue h.1] at h
      exact ⟨key, value, rfl, h⟩
    · intro h
      obtain ⟨_, _, heq, hkey, hbad⟩ := h
      cases heq
      exact ⟨hkey, (hvalue hkey).symm ▸ hbad⟩

theorem parseAll_panic_iff (info : DeviceInfo) (components : List Text) :
    parseAll info components = .panic ↔
      ∃ component ∈ components, BadComponent component := by
  induction components generalizing info with
  | nil => simp [parseAll]
  | cons component rest ih =>
    rw [parseAll]
    simp only [List.mem_cons, exists_eq_or_imp]
    have hfirst := parseComponent_panic_iff info component
    cases hparse : parseComponent info component with
    | panic =>
      rw [hparse, eq_self, true_iff] at hfirst
      simp [hfirst]
    | err error => exact error.elim
    | ok next =>
      rw [hparse] at hfirst
      simp only [reduceCtorEq, false_iff] at hfirst
      rw [Eval.ok_bind, ih]
      simp [hfirst]

theorem parse_panic_iff (serial : Text) :
    parse serial = .panic ↔ BadSerial serial :=
  parseAll_panic_iff _ _

/-- A descriptor that the reader panics on. -/
def BadAnswer (answer : Except RecoveryError Bytes) : Prop :=
  ∃ data, answer = .ok data ∧ BadDescriptor data

theorem readStringDescriptor_panic_iff (index : ℕ) (answer : Except RecoveryError Bytes) :
    readStringDescriptor index answer = .panic ↔ BadAnswer answer := by
  unfold readStringDescriptor BadAnswer BadDescriptor
  cases answer with
  | error error => simp
  | ok data =>
    dsimp only
    by_cases hrefused : data.length < 2 ∨ data[1]? ≠ some 0x03
    · rw [if_pos hrefused]
      refine iff_of_false (by simp) fun h => ?_
      obtain ⟨_, heq, hlength, htype, _⟩ := h
      cases heq
      rcases hrefused with h | h
      · omega
      · exact h htype
    · rw [if_neg hrefused]
      rw [not_or, Nat.not_lt, not_not] at hrefused
      have hlength : data[0]? = some data[0] := List.getElem?_eq_getElem (by omega)
      rw [index_eq (by omega), Eval.ok_bind]
      by_cases hsmall : data[0].toNat < 2
      · rw [slice_of_not (by omega)]
        exact iff_of_true rfl ⟨data, rfl, hrefused.1, hrefused.2, data[0], hlength, hsmall⟩
      · rw [slice_eq (by omega) (by omega), Eval.ok_bind]
        refine iff_of_false (by simp) fun h => ?_
        obtain ⟨_, heq, _, _, length, hfirst, hlt⟩ := h
        cases heq
        rw [hlength, Option.some.injEq] at hfirst
        exact hsmall (hfirst ▸ hlt)

theorem loadNonces_panic_iff (info : DeviceInfo) (answer : Except RecoveryError Bytes) :
    loadNoncesFromDescriptor info answer = .panic ↔
      ¬ (info.apNonce.isSome ∧ info.sepNonce.isSome) ∧
      (BadAnswer answer ∨
        ∃ extra, readStringDescriptor 1 answer = .ok extra ∧ BadSerial extra) := by
  unfold loadNoncesFromDescriptor
  rw [← readStringDescriptor_panic_iff 1 answer]
  by_cases hknown : info.apNonce.isSome ∧ info.sepNonce.isSome
  · rw [if_pos hknown]
    simp [hknown]
  · rw [if_neg hknown]
    cases hread : readStringDescriptor 1 answer with
    | err error => simp
    | panic => simp [hknown]
    | ok extra =>
      have hparse := parse_panic_iff extra
      simp only [hknown, not_false_eq_true, true_and, reduceCtorEq, false_or, Eval.ok.injEq,
        exists_eq_left']
      rw [← hparse]
      cases parse extra with
      | err error => exact error.elim
      | panic => simp
      | ok parsed => simp

end Safety

end XitForge.Restore.RecoveryInfo
