import Mathlib.Data.List.Forall2
import XitForge.RemotePairing.OpackTerminators

/-!
References of OPACK. A reader scans tokens, and a literal that it has seen may stand
there as a reference. The scalars that both readers have seen are the same after every
token, at any depth: the literal was in the table, so neither adds to it.
-/
namespace XitForge.RemotePairing

open Xpc (PlistValue toLEBytes fromLEBytes fromLEBytes_toLEBytes toLEBytes_length)

section Tokens

/-- The tags of the scalars that are remembered. -/
def IsLiteral (tag : ℕ) : Prop :=
  (0x30 ≤ tag ∧ tag ≤ 0x36) ∨ (0x40 ≤ tag ∧ tag ≤ 0x64) ∨ (0x70 ≤ tag ∧ tag ≤ 0x94)

instance (tag : ℕ) : Decidable (IsLiteral tag) := by
  unfold IsLiteral
  infer_instance

/-- The tags of references whose index is behind them. -/
def IsWide (tag : ℕ) : Prop := 0xC1 ≤ tag ∧ tag ≤ 0xC4

/-- The scalar behind a tag. -/
def readLiteral (tag : ℕ) (bytes : Bytes) : Except OpackError (PlistValue × Bytes) :=
  if tag = 0x30 then do
    let (value, bytes) ← readU8 bytes
    return (.integer value, bytes)
  else if tag = 0x31 then do
    let (value, bytes) ← readLE 2 bytes
    return (.integer value, bytes)
  else if tag = 0x32 then do
    let (value, bytes) ← readLE 4 bytes
    return (.integer value, bytes)
  else if tag = 0x33 then do
    let (value, bytes) ← readLE 8 bytes
    return (.integer value, bytes)
  else if tag = 0x35 then do
    let (bits, bytes) ← readBE 4 bytes
    return (.real (UInt64.ofNat (asF64 bits)), bytes)
  else if tag = 0x36 then do
    let (bits, bytes) ← readBE 8 bytes
    return (.real (UInt64.ofNat bits), bytes)
  else if 0x40 ≤ tag ∧ tag ≤ 0x64 then do
    let (len, bytes) ← readSizedLen stringTags tag bytes
    let (text, bytes) ← readString len bytes
    return (.string text, bytes)
  else if 0x70 ≤ tag ∧ tag ≤ 0x94 then do
    let (len, bytes) ← readSizedLen dataTags tag bytes
    let (data, bytes) ← readExact len bytes
    return (.data data, bytes)
  else .error (.unsupportedTag tag)

/-- The bytes of a token, and its value if it is a literal. What is in a collection are
tokens of their own, and so is its terminator. -/
inductive Token : Bytes → Option PlistValue → Prop
  | literal {tag : UInt8} {body : Bytes} {value : PlistValue} (htag : IsLiteral tag.toNat)
      (hread : readLiteral tag.toNat body = .ok (value, [])) : Token (tag :: body) (some value)
  | wide {tag : UInt8} {index : Bytes} (htag : IsWide tag.toNat)
      (hindex : index.length = 2 ^ (tag.toNat - 0xC1)) : Token (tag :: index) none
  | single {tag : UInt8} (hliteral : ¬ IsLiteral tag.toNat) (hwide : ¬ IsWide tag.toNat) :
      Token [tag] none

/-- The table after a literal. -/
def interned (objects : Objects) (value : PlistValue) : Objects :=
  if objects.any (scalarEq · value) then objects else objects ++ [value]

/-- The bytes of a reference to an index. -/
inductive Reference (index : ℕ) : Bytes → Prop
  | inline (h : index ≤ 0x20) : Reference index [UInt8.ofNat (0xA0 + index)]
  | wide (width : ℕ) (hwidth : width ≤ 3) (h : index < 256 ^ 2 ^ width) :
      Reference index (UInt8.ofNat (0xC1 + width) :: toLEBytes (2 ^ width) index)

/-- The second bytes are the first with references for some literals whose value is the
same as one in the table where they stand. -/
inductive Replaces (same : PlistValue → PlistValue → Prop) : Objects → Bytes → Bytes → Prop
  | nil (objects : Objects) : Replaces same objects [] []
  | kept {objects : Objects} {token : Bytes} {literal : Option PlistValue} {rest rest' : Bytes}
      (htoken : Token token literal)
      (hrest : Replaces same (literal.elim objects (interned objects)) rest rest') :
      Replaces same objects (token ++ rest) (token ++ rest')
  | replaced {objects : Objects} {token : Bytes} {value seen : PlistValue} {index : ℕ}
      {reference rest rest' : Bytes} (htoken : Token token (some value))
      (hseen : objects[index]? = some seen) (hsame : same seen value)
      (hreference : Reference index reference) (hrest : Replaces same objects rest rest') :
      Replaces same objects (token ++ rest) (reference ++ rest')

end Tokens

section Literals

variable {α β : Type}

/-- What is read of some bytes is read of them whatever follows, and of no others. -/
structure Local (read : Bytes → Except OpackError (α × Bytes)) : Prop where
  append : ∀ bytes value rest more, read bytes = .ok (value, rest) →
    read (bytes ++ more) = .ok (value, rest ++ more)
  split : ∀ bytes value rest, read bytes = .ok (value, rest) →
    ∃ body, bytes = body ++ rest ∧ read body = .ok (value, [])

theorem Local.pure (value : α) : Local fun bytes => .ok (value, bytes) := by
  constructor
  · intro bytes value rest more h
    cases h
    rfl
  · intro bytes value rest h
    cases h
    exact ⟨[], rfl, rfl⟩

theorem Local.error (error : OpackError) :
    Local fun _ => (.error error : Except OpackError (α × Bytes)) := by
  constructor
  · intro bytes value rest more h
    cases h
  · intro bytes value rest h
    cases h

theorem Local.bind {read : Bytes → Except OpackError (α × Bytes)}
    {next : α × Bytes → Except OpackError (β × Bytes)} (h : Local read)
    (hnext : ∀ value, Local fun bytes => next (value, bytes)) :
    Local fun bytes => read bytes >>= next := by
  constructor
  · intro bytes value rest more hread
    obtain ⟨⟨first, middle⟩, hfirst, hlast⟩ := bind_eq_ok hread
    show (read (bytes ++ more) >>= next) = _
    rw [h.append _ _ _ more hfirst]
    exact (hnext first).append _ _ _ more hlast
  · intro bytes value rest hread
    obtain ⟨⟨first, middle⟩, hfirst, hlast⟩ := bind_eq_ok hread
    obtain ⟨body, rfl, hbody⟩ := h.split _ _ _ hfirst
    obtain ⟨body', rfl, hbody'⟩ := (hnext first).split _ _ _ hlast
    refine ⟨body ++ body', (List.append_assoc ..).symm, ?_⟩
    show (read (body ++ body') >>= next) = _
    rw [h.append _ _ _ body' hbody]
    exact hbody'

theorem Local.ite {c : Prop} [Decidable c] {read read' : Bytes → Except OpackError (α × Bytes)}
    (hthen : Local read) (helse : Local read') :
    Local fun bytes => if c then read bytes else read' bytes := by
  by_cases hc : c
  · simpa only [if_pos hc] using hthen
  · simpa only [if_neg hc] using helse

theorem local_readU8 : Local readU8 := by
  constructor
  · intro bytes value rest more h
    cases bytes with
    | nil => cases h
    | cons byte bytes =>
      cases h
      rfl
  · intro bytes value rest h
    cases bytes with
    | nil => cases h
    | cons byte bytes =>
      cases h
      exact ⟨[byte], rfl, rfl⟩

theorem readExact_eq_ok {count : ℕ} {bytes data rest : Bytes}
    (h : readExact count bytes = .ok (data, rest)) : bytes = data ++ rest ∧ data.length = count := by
  unfold readExact at h
  by_cases hcount : count ≤ bytes.length
  · rw [if_pos hcount] at h
    cases h
    exact ⟨(List.take_append_drop count bytes).symm, List.length_take_of_le hcount⟩
  · rw [if_neg hcount] at h
    cases h

theorem local_readExact (count : ℕ) : Local (readExact count) := by
  constructor
  · intro bytes data rest more h
    obtain ⟨rfl, rfl⟩ := readExact_eq_ok h
    rw [List.append_assoc]
    exact readExact_append _ data
  · intro bytes data rest h
    obtain ⟨rfl, rfl⟩ := readExact_eq_ok h
    refine ⟨data, rfl, ?_⟩
    have hdata := readExact_append [] data
    rwa [List.append_nil] at hdata

theorem local_readLE (width : ℕ) : Local (readLE width) :=
  (local_readExact width).bind fun word => Local.pure (fromLEBytes word)

theorem local_readBE (width : ℕ) : Local (readBE width) :=
  (local_readExact width).bind fun word => Local.pure (fromBEBytes word)

theorem local_readSizedLen (tags : SizedLenTags) (tag : ℕ) : Local (readSizedLen tags tag) := by
  refine Local.ite (Local.pure _) (Local.ite local_readU8 ?_)
  refine Local.ite (local_readLE 2) (Local.ite (local_readLE 4) ?_)
  exact Local.ite (local_readLE 8) (Local.error _)

theorem local_readString (len : ℕ) : Local (readString len) := by
  refine (local_readExact len).bind fun data => ?_
  dsimp only
  cases String.fromUTF8? ⟨data.toArray⟩ with
  | none => exact Local.error _
  | some text => exact Local.pure text

theorem local_readLiteral (tag : ℕ) : Local (readLiteral tag) := by
  refine Local.ite (local_readU8.bind fun _ => Local.pure _) ?_
  refine Local.ite ((local_readLE 2).bind fun _ => Local.pure _) ?_
  refine Local.ite ((local_readLE 4).bind fun _ => Local.pure _) ?_
  refine Local.ite ((local_readLE 8).bind fun _ => Local.pure _) ?_
  refine Local.ite ((local_readBE 4).bind fun _ => Local.pure _) ?_
  refine Local.ite ((local_readBE 8).bind fun _ => Local.pure _) ?_
  refine Local.ite ((local_readSizedLen stringTags tag).bind fun len => ?_) ?_
  · exact (local_readString len).bind fun _ => Local.pure _
  refine Local.ite ((local_readSizedLen dataTags tag).bind fun len => ?_) (Local.error _)
  exact (local_readExact len).bind fun _ => Local.pure _

end Literals

section Reading

theorem ite_bind {α β : Type} {c : Prop} [Decidable c] {first first' : Except OpackError α}
    {next : α → Except OpackError β} {whole whole' : Except OpackError β}
    (hthen : c → whole = first >>= next) (helse : ¬ c → whole' = first' >>= next) :
    (if c then whole else whole') = (if c then first else first') >>= next := by
  by_cases hc : c
  · rw [if_pos hc, if_pos hc]
    exact hthen hc
  · rw [if_neg hc, if_neg hc]
    exact helse hc

/-- A literal is read and remembered. -/
theorem parseTag_literal (read : Reader PlistValue) (rounds : ℕ) {tag : ℕ} (htag : IsLiteral tag)
    (bytes : Bytes) (objects : Objects) :
    parseTag read rounds tag bytes objects = (do
      let (value, bytes) ← readLiteral tag bytes
      remember value bytes objects) := by
  unfold IsLiteral at htag
  unfold parseTag readLiteral
  rw [if_neg (by omega), if_neg (by omega), if_neg (by omega)]
  refine ite_bind (fun _ => by cases readU8 bytes <;> rfl) fun _ => ?_
  refine ite_bind (fun _ => by cases readLE 2 bytes <;> rfl) fun _ => ?_
  refine ite_bind (fun _ => by cases readLE 4 bytes <;> rfl) fun _ => ?_
  refine ite_bind (fun _ => by cases readLE 8 bytes <;> rfl) fun _ => ?_
  refine ite_bind (fun _ => by cases readBE 4 bytes <;> rfl) fun _ => ?_
  refine ite_bind (fun _ => by cases readBE 8 bytes <;> rfl) fun _ => ?_
  refine ite_bind (fun _ => ?_) fun _ => ite_bind (fun _ => ?_) fun _ => ?_
  · cases readSizedLen stringTags tag bytes with
    | error error => rfl
    | ok len =>
      show (do
        let (text, bytes) ← readString len.1 len.2
        remember (.string text) bytes objects) = (readString len.1 len.2 >>= _) >>= _
      cases readString len.1 len.2 <;> rfl
  · cases readSizedLen dataTags tag bytes with
    | error error => rfl
    | ok len =>
      show (do
        let (data, bytes) ← readExact len.1 len.2
        remember (.data data) bytes objects) = (readExact len.1 len.2 >>= _) >>= _
      cases readExact len.1 len.2 <;> rfl
  · obtain rfl : tag = 0x34 := by omega
    rfl

theorem inner_literal {token : Bytes} {value : PlistValue} (h : Token token (some value))
    (rounds : ℕ) (rest : Bytes) (objects : Objects) :
    opackToPlistInner (rounds + 1) (token ++ rest) objects =
      .ok (value, rest, interned objects value) := by
  cases h with
  | literal htag hread =>
    rename_i tag body
    show parseTag (opackToPlistInner rounds) rounds tag.toNat (body ++ rest) objects = _
    rw [parseTag_literal _ _ htag, (local_readLiteral _).append _ _ _ rest hread]
    rfl

theorem parseTag_wide (read : Reader PlistValue) (rounds : ℕ) {tag : ℕ} (htag : IsWide tag)
    {index : Bytes} (hindex : index.length = 2 ^ (tag - 0xC1)) (rest : Bytes) (objects : Objects) :
    parseTag read rounds tag (index ++ rest) objects =
      lookup (fromLEBytes index) rest objects := by
  unfold IsWide at htag
  unfold parseTag
  rw [if_neg (by omega), if_neg (by omega), if_neg (by omega), if_neg (by omega), if_neg (by omega),
    if_neg (by omega), if_neg (by omega), if_neg (by omega), if_neg (by omega), if_neg (by omega),
    if_neg (by omega), if_neg (by omega), if_pos htag]
  have hread : readLE (2 ^ (tag - 0xC1)) (index ++ rest) = .ok (fromLEBytes index, rest) := by
    unfold readLE
    rw [← hindex, readExact_append]
    rfl
  by_cases hbyte : tag = 0xC1
  · subst hbyte
    obtain ⟨byte, rfl⟩ := List.length_eq_one_iff.mp hindex
    rfl
  · rw [if_neg hbyte, hread]
    rfl

theorem wide_index {read : Reader PlistValue} {rounds tag : ℕ} (htag : IsWide tag)
    {bytes rest : Bytes} {objects objects' : Objects} {value : PlistValue}
    (h : parseTag read rounds tag bytes objects = .ok (value, rest, objects')) :
    ∃ index more, bytes = index ++ more ∧ index.length = 2 ^ (tag - 0xC1) := by
  unfold IsWide at htag
  unfold parseTag at h
  rw [if_neg (by omega), if_neg (by omega), if_neg (by omega), if_neg (by omega), if_neg (by omega),
    if_neg (by omega), if_neg (by omega), if_neg (by omega), if_neg (by omega), if_neg (by omega),
    if_neg (by omega), if_neg (by omega), if_pos htag] at h
  dsimp only at h
  by_cases hbyte : tag = 0xC1
  · rw [if_pos hbyte] at h
    cases bytes with
    | nil => cases h
    | cons byte bytes =>
      subst hbyte
      exact ⟨[byte], bytes, rfl, rfl⟩
  · rw [if_neg hbyte] at h
    obtain ⟨⟨index, more⟩, hindex, -⟩ := bind_eq_ok h
    obtain ⟨⟨word, behind⟩, hword, -⟩ := bind_eq_ok hindex
    exact ⟨word, behind, readExact_eq_ok hword⟩

theorem inner_reference {index : ℕ} {reference : Bytes} (h : Reference index reference)
    (rounds : ℕ) (rest : Bytes) (objects : Objects) :
    opackToPlistInner (rounds + 1) (reference ++ rest) objects = lookup index rest objects := by
  cases h with
  | inline hindex =>
    rw [List.singleton_append, inner_cons rounds (by omega)]
    unfold parseTag
    rw [if_neg (by omega), if_neg (by omega), if_neg (by omega), if_neg (by omega),
      if_neg (by omega), if_neg (by omega), if_neg (by omega), if_neg (by omega),
      if_neg (by omega), if_neg (by omega), if_neg (by omega), if_pos (by omega),
      Nat.add_sub_cancel_left]
  | wide width hwidth hindex =>
    rw [List.cons_append, inner_cons rounds (by omega), parseTag_wide _ _ (by unfold IsWide; omega)
      (by rw [toLEBytes_length, Nat.add_sub_cancel_left]), fromLEBytes_toLEBytes _ _ hindex]

end Reading

/-- What may differ where a reference stands for a literal: `like` holds of the two
scalars, of a value and itself, and of collections of such values. -/
structure Congruence (same like : PlistValue → PlistValue → Prop) : Prop where
  seen : ∀ seen value, same seen value → scalarEq seen value = true
  same : ∀ seen value, same seen value → like seen value
  refl : ∀ value, like value value
  string : ∀ value key, like value (.string key) → value = .string key
  array : ∀ items items', List.Forall₂ like items' items → like (.array items') (.array items)
  dictionary : ∀ entries entries' : List (String × PlistValue),
    List.Forall₂ (fun entry' entry => entry'.1 = entry.1 ∧ like entry'.2 entry.2) entries' entries →
      like (.dictionary entries') (.dictionary entries)

section Agreement

variable {same like : PlistValue → PlistValue → Prop} {α β : Type}

/-- Where the first reading succeeds the second does, with a like value, the same table
and less than `length` bytes behind it, which are what is behind the first replaced. -/
def Agree (same : PlistValue → PlistValue → Prop) (alike : α → α → Prop) (length : ℕ)
    (result result' : Except OpackError (α × Bytes × Objects)) : Prop :=
  ∀ value rest objects, result = .ok (value, rest, objects) →
    ∃ value' rest', result' = .ok (value', rest', objects) ∧ alike value' value ∧
      Replaces same objects rest rest' ∧ rest'.length < length

variable {alike : α → α → Prop} {alike' : β → β → Prop} {length length' : ℕ}
  {result result' : Except OpackError (α × Bytes × Objects)}

theorem Agree.ok {value value' : α} {rest rest' : Bytes} {objects : Objects}
    (hlike : alike value' value) (hrest : Replaces same objects rest rest')
    (hlength : rest'.length < length) :
    Agree same alike length (.ok (value, rest, objects)) (.ok (value', rest', objects)) := by
  intro other bytes table h
  cases h
  exact ⟨value', rest', rfl, hlike, hrest, hlength⟩

theorem Agree.error (error : OpackError) : Agree same alike length (.error error) result' := by
  intro value rest objects h
  cases h

theorem Agree.mono (h : Agree same alike length result result') (hle : length ≤ length') :
    Agree same alike length' result result' := by
  intro value rest objects hread
  obtain ⟨value', rest', hread', hlike, hrest, hlength⟩ := h value rest objects hread
  exact ⟨value', rest', hread', hlike, hrest, hlength.trans_le hle⟩

theorem Agree.bind {next next' : α × Bytes × Objects → Except OpackError (β × Bytes × Objects)}
    (h : Agree same alike length result result')
    (hnext : ∀ value value' rest rest' objects, alike value' value →
      Replaces same objects rest rest' → rest'.length < length →
        Agree same alike' length' (next (value, rest, objects)) (next' (value', rest', objects))) :
    Agree same alike' length' (result >>= next) (result' >>= next') := by
  intro value rest objects hread
  obtain ⟨⟨first, middle, table⟩, hfirst, hlast⟩ := bind_eq_ok hread
  obtain ⟨first', middle', hfirst', hlike, hmiddle, hlength⟩ := h _ _ _ hfirst
  rw [hfirst']
  exact hnext first first' middle middle' table hlike hmiddle hlength _ _ _ hlast

theorem Agree.ite {c : Prop} [Decidable c] {first first' second second' :
    Except OpackError (α × Bytes × Objects)} (hthen : c → Agree same alike length first first')
    (helse : ¬ c → Agree same alike length second second') :
    Agree same alike length (if c then first else second) (if c then first' else second') := by
  by_cases hc : c
  · rw [if_pos hc, if_pos hc]
    exact hthen hc
  · rw [if_neg hc, if_neg hc]
    exact helse hc

/-- Of fewer than `bound` replaced bytes, `read'` reads as `read` of the original ones. -/
def Follows (same like : PlistValue → PlistValue → Prop) (bound : ℕ)
    (read read' : Reader PlistValue) : Prop :=
  ∀ bytes bytes' objects, Replaces same objects bytes bytes' → bytes'.length < bound →
    Agree same like bytes'.length (read bytes objects) (read' bytes' objects)

theorem Replaces.eq_nil {objects : Objects} {bytes' : Bytes} (h : Replaces same objects [] bytes') :
    bytes' = [] := by
  generalize hbytes : ([] : Bytes) = bytes at h
  cases h with
  | nil => rfl
  | kept htoken hrest =>
    cases htoken <;> cases hbytes
  | replaced htoken hseen hsame hreference hrest =>
    cases htoken
    cases hbytes

theorem Token.head_ne {token : Bytes} {value : PlistValue} (h : Token token (some value))
    (rest : Bytes) : (token ++ rest).head? ≠ some 0x03 := by
  cases h with
  | literal htag hread =>
    intro hhead
    refine absurd htag ?_
    rw [Option.some.inj hhead]
    decide

theorem Reference.head_ne {index : ℕ} {reference : Bytes} (h : Reference index reference)
    (rest : Bytes) : (reference ++ rest).head? ≠ some 0x03 := by
  intro hhead
  have hthree : (0x03 : UInt8).toNat = 3 := rfl
  cases h with
  | inline hindex =>
    have htag := congrArg UInt8.toNat (Option.some.inj hhead)
    rw [toNat_ofNat (by omega), hthree] at htag
    omega
  | wide width hwidth hindex =>
    have htag := congrArg UInt8.toNat (Option.some.inj hhead)
    rw [toNat_ofNat (by omega), hthree] at htag
    omega

/-- A terminator stands in both bytes, with replaced bytes behind it, or in none. -/
theorem Replaces.terminator {objects : Objects} {bytes bytes' : Bytes}
    (h : Replaces same objects bytes bytes') :
    (bytes.head? = some 0x03 ↔ bytes'.head? = some 0x03) ∧
      (bytes.head? = some 0x03 → Replaces same objects (bytes.drop 1) (bytes'.drop 1)) := by
  cases h with
  | nil => exact ⟨Iff.rfl, fun h => absurd h nofun⟩
  | kept htoken hrest =>
    cases htoken with
    | literal htag hread =>
      refine ⟨Iff.rfl, fun hhead => absurd hhead ?_⟩
      exact (Token.literal htag hread).head_ne _
    | wide htag hindex =>
      refine ⟨Iff.rfl, fun hhead => absurd htag ?_⟩
      rw [Option.some.inj hhead]
      unfold IsWide
      decide
    | single => exact ⟨Iff.rfl, fun _ => hrest⟩
  | replaced htoken hseen hsame hreference hrest =>
    have hhead := htoken.head_ne
    exact ⟨iff_of_false (hhead _) (hreference.head_ne _), fun h => absurd h (hhead _)⟩

variable {bound : ℕ} {read read' : Reader PlistValue} (hread : Follows same like bound read read')
  {bytes bytes' : Bytes} {objects : Objects}

include hread

theorem countedItems_agree (count : ℕ) {items items' : List PlistValue}
    (hitems : List.Forall₂ like items' items) (h : Replaces same objects bytes bytes')
    (hbound : bytes'.length < bound) :
    Agree same (List.Forall₂ like) (bytes'.length + 1) (countedItems read count items bytes objects)
      (countedItems read' count items' bytes' objects) := by
  induction count generalizing items items' bytes bytes' objects with
  | zero => exact Agree.ok hitems h (Nat.lt_succ_self _)
  | succ count ih =>
    refine Agree.bind (hread _ _ _ h hbound) fun item item' rest rest' table hlike hrest hlength => ?_
    refine Agree.mono (ih ?_ hrest (hlength.trans hbound)) (by omega)
    exact List.rel_append hitems (List.Forall₂.cons hlike .nil)

theorem openItems_agree (rounds : ℕ) {rounds' : ℕ} {items items' : List PlistValue}
    (hitems : List.Forall₂ like items' items) (h : Replaces same objects bytes bytes')
    (hbound : bytes'.length < bound) (hrounds : bytes'.length < rounds') :
    Agree same (List.Forall₂ like) (bytes'.length + 1) (openItems read rounds items bytes objects)
      (openItems read' rounds' items' bytes' objects) := by
  induction rounds generalizing rounds' items items' bytes bytes' objects with
  | zero => exact Agree.error _
  | succ rounds ih =>
    obtain ⟨hhead, hbehind⟩ := h.terminator
    obtain ⟨rounds', rfl⟩ : ∃ more, rounds' = more + 1 := ⟨rounds' - 1, by omega⟩
    unfold openItems
    by_cases hterminator : bytes.head? = some 0x03
    · rw [if_pos hterminator, if_pos (hhead.mp hterminator)]
      refine Agree.ok hitems (hbehind hterminator) ?_
      rw [List.length_drop]
      omega
    · rw [if_neg hterminator, if_neg (mt hhead.mpr hterminator)]
      refine Agree.bind (hread _ _ _ h hbound) fun item item' rest rest' table hlike hrest hlength => ?_
      refine Agree.mono (ih ?_ hrest (hlength.trans hbound) (by omega)) (by omega)
      exact List.rel_append hitems (List.Forall₂.cons hlike .nil)

/-- Entries with the same keys and like values. -/
abbrev LikeEntries (like : PlistValue → PlistValue → Prop) :
    List (String × PlistValue) → List (String × PlistValue) → Prop :=
  List.Forall₂ fun entry' entry => entry'.1 = entry.1 ∧ like entry'.2 entry.2

omit hread in
theorem insertKey_like {entries entries' : List (String × PlistValue)}
    (h : LikeEntries like entries' entries) (key : String) {value value' : PlistValue}
    (hlike : like value' value) :
    LikeEntries like (insertKey entries' key value') (insertKey entries key value) := by
  have hany : entries'.any (fun entry => entry.1 == key) = entries.any (fun entry => entry.1 == key) := by
    induction h with
    | nil => rfl
    | cons hentry _ ih =>
      rw [List.any_cons, List.any_cons, ih, hentry.1]
  unfold insertKey
  rw [hany]
  by_cases hfound : entries.any (fun entry => entry.1 == key) = true
  · rw [if_pos hfound, if_pos hfound, LikeEntries, List.forall₂_map_left_iff,
      List.forall₂_map_right_iff]
    refine h.imp fun entry' entry hentry => ?_
    rw [hentry.1]
    by_cases hkey : (entry.1 == key) = true
    · rw [if_pos hkey, if_pos hkey]
      exact ⟨rfl, hlike⟩
    · rw [if_neg hkey, if_neg hkey]
      exact hentry
  · rw [if_neg hfound, if_neg hfound]
    exact List.rel_append h (List.Forall₂.cons ⟨rfl, hlike⟩ .nil)

variable (hcongruence : Congruence same like)

include hcongruence

theorem readDictionaryKey_agree (h : Replaces same objects bytes bytes')
    (hbound : bytes'.length < bound) :
    Agree same Eq bytes'.length (readDictionaryKey read bytes objects)
      (readDictionaryKey read' bytes' objects) := by
  refine Agree.bind (hread _ _ _ h hbound) fun value value' rest rest' table hlike hrest hlength => ?_
  cases value with
  | string key =>
    rw [hcongruence.string value' key hlike]
    exact Agree.ok rfl hrest hlength
  | boolean | real | integer | date | data | array | dictionary => exact Agree.error _

/-- An entry, and what is read with it. -/
theorem entry_agree {entries entries' : List (String × PlistValue)} {γ : Type}
    {alike : γ → γ → Prop} {length : ℕ} (hentries : LikeEntries like entries' entries)
    (h : Replaces same objects bytes bytes') (hbound : bytes'.length < bound)
    {next next' : List (String × PlistValue) → Reader γ}
    (hnext : ∀ entries entries' rest rest' table, LikeEntries like entries' entries →
      Replaces same table rest rest' → rest'.length < bytes'.length →
        Agree same alike length (next entries rest table) (next' entries' rest' table)) :
    Agree same alike length
      (do
        let (key, bytes, objects) ← readDictionaryKey read bytes objects
        let (value, bytes, objects) ← read bytes objects
        next (insertKey entries key value) bytes objects)
      (do
        let (key, bytes, objects) ← readDictionaryKey read' bytes' objects
        let (value, bytes, objects) ← read' bytes objects
        next' (insertKey entries' key value) bytes objects) := by
  refine Agree.bind (readDictionaryKey_agree hread hcongruence h hbound) ?_
  intro key key' middle middle' table hkey hmiddle hlength
  subst hkey
  refine Agree.bind (hread _ _ _ hmiddle (hlength.trans hbound)) ?_
  intro value value' rest rest' table' hlike hrest hlength'
  exact hnext _ _ _ _ _ (insertKey_like hentries key' hlike) hrest (hlength'.trans hlength)

theorem countedEntries_agree (count : ℕ) {entries entries' : List (String × PlistValue)}
    (hentries : LikeEntries like entries' entries) (h : Replaces same objects bytes bytes')
    (hbound : bytes'.length < bound) :
    Agree same (LikeEntries like) (bytes'.length + 1)
      (countedEntries read count entries bytes objects)
      (countedEntries read' count entries' bytes' objects) := by
  induction count generalizing entries entries' bytes bytes' objects with
  | zero => exact Agree.ok hentries h (Nat.lt_succ_self _)
  | succ count ih =>
    refine entry_agree hread hcongruence hentries h hbound ?_
    intro more more' rest rest' table hmore hrest hlength
    exact Agree.mono (ih hmore hrest (hlength.trans hbound)) (by omega)

theorem openEntries_agree (rounds : ℕ) {rounds' : ℕ} {entries entries' : List (String × PlistValue)}
    (hentries : LikeEntries like entries' entries) (h : Replaces same objects bytes bytes')
    (hbound : bytes'.length < bound) (hrounds : bytes'.length < rounds') :
    Agree same (LikeEntries like) (bytes'.length + 1)
      (openEntries read rounds entries bytes objects)
      (openEntries read' rounds' entries' bytes' objects) := by
  induction rounds generalizing rounds' entries entries' bytes bytes' objects with
  | zero => exact Agree.error _
  | succ rounds ih =>
    obtain ⟨hhead, hbehind⟩ := h.terminator
    obtain ⟨rounds', rfl⟩ : ∃ more, rounds' = more + 1 := ⟨rounds' - 1, by omega⟩
    unfold openEntries
    by_cases hterminator : bytes.head? = some 0x03
    · rw [if_pos hterminator, if_pos (hhead.mp hterminator)]
      refine Agree.ok hentries (hbehind hterminator) ?_
      rw [List.length_drop]
      omega
    · rw [if_neg hterminator, if_neg (mt hhead.mpr hterminator)]
      refine entry_agree hread hcongruence hentries h hbound ?_
      intro more more' rest rest' table hmore hrest hlength
      exact Agree.mono (ih hmore hrest (hlength.trans hbound) (by omega)) (by omega)

/-- A tag that is a token of its own. -/
theorem parseTag_agree {tag rounds rounds' : ℕ} (hliteral : ¬ IsLiteral tag) (hwide : ¬ IsWide tag)
    (h : Replaces same objects bytes bytes') (hbound : bytes'.length < bound)
    (hrounds : bytes'.length < rounds') :
    Agree same like (bytes'.length + 1) (parseTag read rounds tag bytes objects)
      (parseTag read' rounds' tag bytes' objects) := by
  unfold IsLiteral at hliteral
  have hplain : ∀ value, Agree same like (bytes'.length + 1) (.ok (value, bytes, objects))
      (.ok (value, bytes', objects)) :=
    fun value => Agree.ok (hcongruence.refl value) h (Nat.lt_succ_self _)
  unfold parseTag
  refine Agree.ite (fun _ => hplain _) fun _ => ?_
  refine Agree.ite (fun _ => hplain _) fun _ => ?_
  refine Agree.ite (fun _ => hplain _) fun _ => ?_
  refine Agree.ite (fun htag => absurd htag (by omega)) fun _ => ?_
  refine Agree.ite (fun htag => absurd htag (by omega)) fun _ => ?_
  refine Agree.ite (fun htag => absurd htag (by omega)) fun _ => ?_
  refine Agree.ite (fun htag => absurd htag (by omega)) fun _ => ?_
  refine Agree.ite (fun htag => absurd htag (by omega)) fun _ => ?_
  refine Agree.ite (fun htag => absurd htag (by omega)) fun _ => ?_
  refine Agree.ite (fun htag => absurd htag (by omega)) fun _ => ?_
  refine Agree.ite (fun htag => absurd htag (by omega)) fun _ => ?_
  refine Agree.ite (fun _ => ?_) fun _ => ?_
  · unfold lookup
    cases objects[tag - 0xA0]? with
    | some value => exact hplain value
    | none => exact Agree.error _
  refine Agree.ite (fun htag => absurd htag hwide) fun _ => ?_
  refine Agree.ite (fun _ => ?_) fun _ => ?_
  · refine Agree.bind (countedItems_agree hread _ .nil h hbound) ?_
    exact fun items items' rest rest' table hlike hrest hlength =>
      Agree.ok (hcongruence.array _ _ hlike) hrest hlength
  refine Agree.ite (fun _ => ?_) fun _ => ?_
  · refine Agree.bind (openItems_agree hread _ .nil h hbound hrounds) ?_
    exact fun items items' rest rest' table hlike hrest hlength =>
      Agree.ok (hcongruence.array _ _ hlike) hrest hlength
  refine Agree.ite (fun _ => ?_) fun _ => ?_
  · refine Agree.bind (countedEntries_agree hread hcongruence _ .nil h hbound) ?_
    exact fun entries entries' rest rest' table hlike hrest hlength =>
      Agree.ok (hcongruence.dictionary _ _ hlike) hrest hlength
  refine Agree.ite (fun _ => ?_) fun _ => ?_
  · refine Agree.bind (openEntries_agree hread hcongruence _ .nil h hbound hrounds) ?_
    exact fun entries entries' rest rest' table hlike hrest hlength =>
      Agree.ok (hcongruence.dictionary _ _ hlike) hrest hlength
  exact Agree.ite (fun _ => Agree.error _) fun _ => Agree.error _

end Agreement

section Transparency

variable {same like : PlistValue → PlistValue → Prop} (hcongruence : Congruence same like)

include hcongruence

/-- A literal that is like one in the table leaves the table as it is. -/
theorem interned_seen {objects : Objects} {index : ℕ} {seen value : PlistValue}
    (hseen : objects[index]? = some seen) (hsame : same seen value) :
    interned objects value = objects := by
  unfold interned
  rw [if_pos]
  exact List.any_eq_true.mpr ⟨seen, List.mem_of_getElem? hseen, hcongruence.seen _ _ hsame⟩

/-- Token by token, at any depth. -/
theorem inner_follows (rounds rounds' : ℕ) :
    Follows same like rounds' (opackToPlistInner rounds) (opackToPlistInner rounds') := by
  induction rounds generalizing rounds' with
  | zero =>
    intro bytes bytes' objects h hbound
    exact Agree.error _
  | succ rounds ih =>
    intro bytes bytes' objects h hbound
    obtain ⟨rounds', rfl⟩ : ∃ more, rounds' = more + 1 := ⟨rounds' - 1, by omega⟩
    cases h with
    | nil => exact Agree.error _
    | kept htoken hrest =>
      rename_i token literal rest rest'
      cases literal with
      | some value =>
        rw [inner_literal htoken, inner_literal htoken]
        refine Agree.ok (hcongruence.refl value) hrest ?_
        cases htoken
        rw [List.length_append, List.length_cons]
        omega
      | none =>
        cases htoken with
        | wide htag hindex =>
          rename_i tag index
          show Agree same like _ (parseTag _ rounds tag.toNat (index ++ rest) objects)
            (parseTag _ rounds' tag.toNat (index ++ rest') objects)
          rw [parseTag_wide _ _ htag hindex, parseTag_wide _ _ htag hindex]
          unfold lookup
          cases objects[fromLEBytes index]? with
          | none => exact Agree.error _
          | some value =>
            refine Agree.ok (hcongruence.refl value) hrest ?_
            rw [List.length_append, List.length_cons]
            omega
        | single hliteral hwide =>
          rename_i tag
          have hless : rest'.length < rounds' := Nat.lt_of_succ_lt_succ hbound
          exact parseTag_agree (ih rounds') hcongruence hliteral hwide hrest hless hless
    | replaced htoken hseen hsame hreference hrest =>
      rw [inner_literal htoken, inner_reference hreference, interned_seen hcongruence hseen hsame]
      unfold lookup
      rw [hseen]
      refine Agree.ok (hcongruence.same _ _ hsame) hrest ?_
      cases hreference with
      | inline hindex =>
        rw [List.length_append, List.length_singleton]
        omega
      | wide width hwidth hindex =>
        rw [List.length_append, List.length_cons]
        omega

theorem opackToPlist_replaced {bytes bytes' : Bytes} {value : PlistValue}
    (hread : opackToPlist bytes = .ok value) (h : Replaces same [] bytes bytes') :
    ∃ value', opackToPlist bytes' = .ok value' ∧ like value' value := by
  obtain ⟨⟨value, rest, objects⟩, hinner, hend⟩ := bind_eq_ok hread
  obtain ⟨value', rest', hinner', hlike, hrest, -⟩ := inner_follows hcongruence _
    (bytes'.length + 1) bytes bytes' [] h (Nat.lt_succ_self _) value rest objects hinner
  cases rest with
  | cons byte rest => cases hend
  | nil =>
    cases hend
    obtain rfl : rest' = [] := hrest.eq_nil
    refine ⟨value', ?_, hlike⟩
    unfold opackToPlist
    rw [hinner']
    rfl

end Transparency

section Scanning

/-- From a table and some bytes to another table and what is left, token by token. -/
inductive ScansTo : Objects → Bytes → Objects → Bytes → Prop
  | refl (objects : Objects) (bytes : Bytes) : ScansTo objects bytes objects bytes
  | token {objects objects' : Objects} {token : Bytes} {literal : Option PlistValue}
      {more rest : Bytes} (htoken : Token token literal)
      (h : ScansTo (literal.elim objects (interned objects)) more objects' rest) :
      ScansTo objects (token ++ more) objects' rest

theorem ScansTo.trans {objects objects' objects'' : Objects} {bytes bytes' bytes'' : Bytes}
    (h : ScansTo objects bytes objects' bytes') (h' : ScansTo objects' bytes' objects'' bytes'') :
    ScansTo objects bytes objects'' bytes'' := by
  induction h with
  | refl => exact h'
  | token htoken _ ih => exact .token htoken (ih h')

/-- Nothing has to be replaced. -/
theorem ScansTo.replaces {same : PlistValue → PlistValue → Prop} {objects objects' : Objects}
    {bytes rest : Bytes} (h : ScansTo objects bytes objects' rest)
    (hrest : Replaces same objects' rest rest) : Replaces same objects bytes bytes := by
  induction h with
  | refl => exact hrest
  | token htoken _ ih => exact .kept htoken (ih hrest)

/-- Whatever the reader takes is tokens. -/
def Scans {α : Type} (read : Reader α) : Prop :=
  ∀ bytes objects value rest objects', read bytes objects = .ok (value, rest, objects') →
    ScansTo objects bytes objects' rest

variable {α β : Type} {read : Reader α}

theorem Scans.ok (value : α) : Scans fun bytes objects => .ok (value, bytes, objects) := by
  intro bytes objects other rest objects' h
  cases h
  exact .refl ..

theorem Scans.error (error : OpackError) : Scans (fun _ _ => .error error : Reader α) := by
  intro bytes objects value rest objects' h
  cases h

theorem Scans.bind {next : α × Bytes × Objects → Except OpackError (β × Bytes × Objects)}
    (h : Scans read) (hnext : ∀ value, Scans fun bytes objects => next (value, bytes, objects)) :
    Scans fun bytes objects => read bytes objects >>= next := by
  intro bytes objects value rest objects' hread
  obtain ⟨⟨first, middle, table⟩, hfirst, hlast⟩ := bind_eq_ok hread
  exact (h _ _ _ _ _ hfirst).trans (hnext first _ _ _ _ _ hlast)

theorem Scans.ite {c : Prop} [Decidable c] {read' : Reader α} (hthen : c → Scans read)
    (helse : ¬ c → Scans read') :
    Scans fun bytes objects => if c then read bytes objects else read' bytes objects := by
  by_cases hc : c
  · simpa only [if_pos hc] using hthen hc
  · simpa only [if_neg hc] using helse hc

theorem scans_lookup (index : ℕ) : Scans (lookup index) := by
  intro bytes objects value rest objects' h
  unfold lookup at h
  cases hseen : objects[index]? with
  | none =>
    rw [hseen] at h
    cases h
  | some seen =>
    rw [hseen] at h
    cases h
    exact .refl ..

theorem ScansTo.terminator {bytes : Bytes} (h : bytes.head? = some 0x03) (objects : Objects) :
    ScansTo objects bytes objects (bytes.drop 1) := by
  cases bytes with
  | nil => cases h
  | cons byte rest =>
    cases h
    exact .token (.single (by decide) (by unfold IsWide; decide)) (.refl ..)

section Collections

variable {read : Reader PlistValue} (hread : Scans read)

include hread

theorem scans_countedItems (count : ℕ) (items : List PlistValue) :
    Scans (countedItems read count items) := by
  induction count generalizing items with
  | zero => exact Scans.ok items
  | succ count ih => exact hread.bind fun item => ih (items ++ [item])

theorem scans_openItems (rounds : ℕ) (items : List PlistValue) :
    Scans (openItems read rounds items) := by
  induction rounds generalizing items with
  | zero => exact Scans.error _
  | succ rounds ih =>
    intro bytes objects value rest objects' h
    unfold openItems at h
    by_cases hterminator : bytes.head? = some 0x03
    · rw [if_pos hterminator] at h
      cases h
      exact ScansTo.terminator hterminator objects
    · rw [if_neg hterminator] at h
      exact (hread.bind fun item => ih (items ++ [item])) _ _ _ _ _ h

theorem scans_readDictionaryKey : Scans (readDictionaryKey read) := by
  refine hread.bind fun value => ?_
  cases value with
  | string key => exact Scans.ok key
  | boolean | real | integer | date | data | array | dictionary => exact Scans.error _

theorem scans_countedEntries (count : ℕ) (entries : List (String × PlistValue)) :
    Scans (countedEntries read count entries) := by
  induction count generalizing entries with
  | zero => exact Scans.ok entries
  | succ count ih =>
    refine (scans_readDictionaryKey hread).bind fun key => ?_
    exact hread.bind fun value => ih (insertKey entries key value)

theorem scans_openEntries (rounds : ℕ) (entries : List (String × PlistValue)) :
    Scans (openEntries read rounds entries) := by
  induction rounds generalizing entries with
  | zero => exact Scans.error _
  | succ rounds ih =>
    intro bytes objects value rest objects' h
    unfold openEntries at h
    by_cases hterminator : bytes.head? = some 0x03
    · rw [if_pos hterminator] at h
      cases h
      exact ScansTo.terminator hterminator objects
    · rw [if_neg hterminator] at h
      refine (Scans.bind (scans_readDictionaryKey hread) fun key => ?_) _ _ _ _ _ h
      exact hread.bind fun value => ih (insertKey entries key value)

/-- What is behind a tag that is a token of its own. -/
theorem scans_parseTag {tag rounds : ℕ} (hliteral : ¬ IsLiteral tag) (hwide : ¬ IsWide tag) :
    Scans (parseTag read rounds tag) := by
  unfold IsLiteral at hliteral
  unfold parseTag
  refine Scans.ite (fun _ => Scans.ok _) fun _ => ?_
  refine Scans.ite (fun _ => Scans.ok _) fun _ => ?_
  refine Scans.ite (fun _ => Scans.ok _) fun _ => ?_
  refine Scans.ite (fun htag => absurd htag (by omega)) fun _ => ?_
  refine Scans.ite (fun htag => absurd htag (by omega)) fun _ => ?_
  refine Scans.ite (fun htag => absurd htag (by omega)) fun _ => ?_
  refine Scans.ite (fun htag => absurd htag (by omega)) fun _ => ?_
  refine Scans.ite (fun htag => absurd htag (by omega)) fun _ => ?_
  refine Scans.ite (fun htag => absurd htag (by omega)) fun _ => ?_
  refine Scans.ite (fun htag => absurd htag (by omega)) fun _ => ?_
  refine Scans.ite (fun htag => absurd htag (by omega)) fun _ => ?_
  refine Scans.ite (fun _ => scans_lookup _) fun _ => ?_
  refine Scans.ite (fun htag => absurd htag hwide) fun _ => ?_
  refine Scans.ite (fun _ => ?_) fun _ => ?_
  · exact (scans_countedItems hread _ []).bind fun items => Scans.ok _
  refine Scans.ite (fun _ => ?_) fun _ => ?_
  · exact (scans_openItems hread _ []).bind fun items => Scans.ok _
  refine Scans.ite (fun _ => ?_) fun _ => ?_
  · exact (scans_countedEntries hread _ []).bind fun entries => Scans.ok _
  refine Scans.ite (fun _ => ?_) fun _ => ?_
  · exact (scans_openEntries hread _ []).bind fun entries => Scans.ok _
  exact Scans.ite (fun _ => Scans.error _) fun _ => Scans.error _

end Collections

/-- All that is read is tokens, those of collections too. -/
theorem scans_inner (rounds : ℕ) : Scans (opackToPlistInner rounds) := by
  induction rounds with
  | zero => exact Scans.error _
  | succ rounds ih =>
    intro bytes objects value rest objects' h
    cases bytes with
    | nil => cases h
    | cons tag bytes =>
      change parseTag _ rounds tag.toNat bytes objects = _ at h
      by_cases hliteral : IsLiteral tag.toNat
      · rw [parseTag_literal _ _ hliteral] at h
        obtain ⟨⟨scalar, middle⟩, hscalar, hlast⟩ := bind_eq_ok h
        cases hlast
        obtain ⟨body, rfl, hbody⟩ := (local_readLiteral _).split _ _ _ hscalar
        exact .token (.literal hliteral hbody) (.refl ..)
      · by_cases hwide : IsWide tag.toNat
        · obtain ⟨index, bytes, rfl, hindex⟩ := wide_index hwide h
          rw [parseTag_wide _ _ hwide hindex] at h
          have htoken : ScansTo objects (tag :: index ++ bytes) objects' rest :=
            .token (.wide hwide hindex) (scans_lookup _ _ _ _ _ _ h)
          exact htoken
        · have hsingle : ScansTo objects ([tag] ++ bytes) objects' rest :=
            .token (.single hliteral hwide) (scans_parseTag ih hliteral hwide _ _ _ _ _ h)
          exact hsingle

end Scanning

section Equality

/-- `==` of two values, where a NaN is also the same as itself. -/
inductive Alike : PlistValue → PlistValue → Prop
  | scalar {value' value : PlistValue} (h : scalarEq value' value = true) : Alike value' value
  | refl (value : PlistValue) : Alike value value
  | array {items' items : List PlistValue} (h : List.Forall₂ Alike items' items) :
      Alike (.array items') (.array items)
  | dictionary {entries' entries : List (String × PlistValue)}
      (hkeys : entries'.map Prod.fst = entries.map Prod.fst)
      (h : List.Forall₂ Alike (entries'.map Prod.snd) (entries.map Prod.snd)) :
      Alike (.dictionary entries') (.dictionary entries)

/-- The very same scalar, and no NaN. -/
def Identical (seen value : PlistValue) : Prop := seen = value ∧ scalarEq seen value = true

theorem congruence_identical : Congruence Identical Eq where
  seen _ _ h := h.2
  same _ _ h := h.1
  refl _ := rfl
  string _ _ h := h
  array items items' h := by
    rw [List.forall₂_eq_eq_eq] at h
    rw [h]
  dictionary entries entries' h := by
    have hentries : List.Forall₂ Eq entries' entries := h.imp fun _ _ h => Prod.ext h.1 h.2
    rw [List.forall₂_eq_eq_eq] at hentries
    rw [hentries]

theorem congruence_alike : Congruence (fun seen value => scalarEq seen value = true) Alike where
  seen _ _ h := h
  same _ _ h := .scalar h
  refl := .refl
  string value key h := by
    cases h with
    | scalar h =>
      cases value with
      | string text => rw [eq_of_beq h]
      | boolean | real | integer | date | data | array | dictionary => cases h
    | refl => rfl
  array _ _ h := .array h
  dictionary entries entries' h := by
    refine .dictionary ?_ ?_
    · rw [← List.forall₂_eq_eq_eq, List.forall₂_map_left_iff, List.forall₂_map_right_iff]
      exact h.imp fun _ _ h => h.1
    · rw [List.forall₂_map_left_iff, List.forall₂_map_right_iff]
      exact h.imp fun _ _ h => h.2

end Equality

/-- Bytes that decode are all tokens. -/
theorem opackToPlist_replaces_self {bytes : Bytes} {value : PlistValue}
    (h : opackToPlist bytes = .ok value) (same : PlistValue → PlistValue → Prop) :
    Replaces same [] bytes bytes := by
  obtain ⟨⟨value, rest, objects⟩, hinner, hend⟩ := bind_eq_ok h
  cases rest with
  | cons byte rest => cases hend
  | nil => exact (scans_inner _ _ _ _ _ _ hinner).replaces (.nil objects)

/-- References decode to what the literals do. Where the scalar that is referred to is
only `==` to the literal, as `0.0` is to `-0.0`, so is what is decoded. -/
theorem references_transparent {bytes bytes' : Bytes} {value : PlistValue}
    (h : opackToPlist bytes = .ok value) :
    (Replaces Identical [] bytes bytes' → opackToPlist bytes' = .ok value) ∧
      (Replaces (fun seen value => scalarEq seen value = true) [] bytes bytes' →
        ∃ value', opackToPlist bytes' = .ok value' ∧ Alike value' value) := by
  constructor
  · intro hreplaces
    obtain ⟨value', hread, rfl⟩ := opackToPlist_replaced congruence_identical h hreplaces
    exact hread
  · exact opackToPlist_replaced congruence_alike h

/-- The second of two equal pieces of data, in an array. -/
theorem references_transparent_data :
    opackToPlist [0xD3, 0x71, 5, 0x71, 5, 0x01] = .ok (.array [.data [5], .data [5], .boolean true]) ∧
      opackToPlist [0xD3, 0x71, 5, 0xA0, 0x01] = .ok (.array [.data [5], .data [5], .boolean true]) := by
  have hread : opackToPlist [0xD3, 0x71, 5, 0x71, 5, 0x01] =
      .ok (.array [.data [5], .data [5], .boolean true]) := by rfl
  refine ⟨hread, (references_transparent hread).1 ?_⟩
  have hdata : Token [0x71, 5] (some (.data [5])) := .literal (by decide) (by rfl)
  have harray : Token [0xD3] none := .single (by decide) (by unfold IsWide; decide)
  have htrue : Token [0x01] none := .single (by decide) (by unfold IsWide; decide)
  have htail : Replaces Identical [.data [5]] [0x01] [0x01] := .kept htrue (.nil _)
  have hsecond : Replaces Identical [.data [5]] [0x71, 5, 0x01] [0xA0, 0x01] :=
    .replaced hdata (List.getElem?_cons_zero ..) ⟨rfl, rfl⟩ (.inline (by decide)) htail
  have hfirst : Replaces Identical [] [0x71, 5, 0x71, 5, 0x01] [0x71, 5, 0xA0, 0x01] :=
    .kept hdata hsecond
  exact .kept harray hfirst

end XitForge.RemotePairing
