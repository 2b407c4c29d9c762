import Mathlib.Data.Nat.Log
import XitForge.ByteStream

/-!
Elements of definite length in the encoding of ASN.1: an identifier, the length of the
content in short or long form, and the content. What is read from the front of some
bytes is read the same way if more bytes follow, so an element is found in one way only.
The distinguished rules ask besides for as few octets as possible.
-/
namespace XitForge.Der

open ByteStream

variable {bytes rest more content : Bytes} {n : ℕ}

/-- The first octet, and the tag number where it follows in high form. -/
inductive Identifier where
  | low (octet : UInt8)
  | high (octet : UInt8) (number : ℕ)
  deriving DecidableEq, Repr

/-- The tag number in groups of seven bits; all octets but the last have the top bit. -/
def readNumber : ℕ → Bytes → Option (ℕ × Bytes)
  | _, [] => none
  | number, octet :: rest =>
    if octet.toNat < 128 then some (number * 128 + octet.toNat, rest)
    else readNumber (number * 128 + (octet.toNat - 128)) rest

def readIdentifier : Bytes → Option (Identifier × Bytes)
  | [] => none
  | octet :: rest =>
    if octet &&& 0x1f = 0x1f then
      (readNumber 0 rest).map fun (number, rest) => (.high octet number, rest)
    else some (.low octet, rest)

/-- A definite length in short or long form. -/
def readLength : Bytes → Option (ℕ × Bytes)
  | [] => none
  | octet :: rest =>
    if octet.toNat < 128 then some (octet.toNat, rest)
    else if octet = 0x80 ∨ octet = 0xff then none
    else (splitExact (octet.toNat - 128) rest).map fun (octets, rest) => (beValue octets, rest)

/-- An element at the front: its identifier, its content and what follows. -/
def readElement (bytes : Bytes) : Option (Identifier × Bytes × Bytes) := do
  let (identifier, rest) ← readIdentifier bytes
  let (length, rest) ← readLength rest
  let (content, rest) ← splitExact length rest
  return (identifier, content, rest)

/-- The bytes are the octets of a length. -/
def IsLength (bytes : Bytes) (length : ℕ) : Prop := readLength bytes = some (length, [])

/-- The bytes are one element and nothing more. -/
def IsElement (identifier : Identifier) (content bytes : Bytes) : Prop :=
  readElement bytes = some (identifier, content, [])

/-- How many octets hold a number. -/
def width (n : ℕ) : ℕ := Nat.log2 n / 8 + 1

/-- The octets of a length that are as few as possible. -/
def minimalLength (length : ℕ) : Bytes :=
  if length < 128 then [UInt8.ofNat length]
  else UInt8.ofNat (128 + width length) :: beBytes (width length) length

/-- The octets of an identifier, with a tag number of as few groups as possible where it
stands in high form. -/
inductive IsIdentifier : Identifier → Bytes → Prop where
  | low {octet : UInt8} (h : octet &&& 0x1f ≠ 0x1f) : IsIdentifier (.low octet) [octet]
  | high {octet : UInt8} {number : ℕ} {octets : Bytes} (h : octet &&& 0x1f = 0x1f)
      (hnumber : readNumber 0 octets = some (number, [])) (hfirst : octets.head? ≠ some 0x80) :
      IsIdentifier (.high octet number) (octet :: octets)

/-- An element with as few octets as possible before its content. The long form has room
for 126 octets of the length. -/
def IsMinimalElement (identifier : Identifier) (content bytes : Bytes) : Prop :=
  ∃ octets, IsIdentifier identifier octets ∧ width content.length ≤ 126 ∧
    bytes = octets ++ (minimalLength content.length ++ content)

/-- The content octets of an INTEGER as a number in two's complement. -/
def intValue : Bytes → ℤ
  | [] => 0
  | octet :: octets =>
    if octet.toNat < 128 then beValue (octet :: octets)
    else beValue (octet :: octets) - 256 ^ (octets.length + 1)

/-- The first nine bits of an INTEGER are not all the same. -/
def IsMinimalInt : Bytes → Prop
  | [] => False
  | [_] => True
  | first :: second :: _ =>
    ¬ (first = 0 ∧ second.toNat < 128) ∧ ¬ (first = 0xff ∧ 128 ≤ second.toNat)

/-- What counts as an element and as the content of an INTEGER. -/
structure Rules where
  element : Identifier → Bytes → Bytes → Prop
  integer : Bytes → ℤ → Prop

def definite : Rules where
  element := IsElement
  integer octets value := octets ≠ [] ∧ intValue octets = value

def distinguished : Rules where
  element := IsMinimalElement
  integer octets value := IsMinimalInt octets ∧ intValue octets = value

section Append

theorem splitExact_more {count : ℕ} {front : Bytes}
    (h : splitExact count bytes = some (front, rest)) (more : Bytes) :
    splitExact count (bytes ++ more) = some (front, rest ++ more) := by
  obtain ⟨rfl, hlength⟩ := splitExact_eq_some h
  rw [List.append_assoc]
  exact splitExact_append hlength _

theorem readNumber_more {number : ℕ} (h : readNumber number bytes = some (n, rest)) (more : Bytes) :
    readNumber number (bytes ++ more) = some (n, rest ++ more) := by
  induction bytes generalizing number with
  | nil => cases h
  | cons octet bytes ih =>
    unfold readNumber at h
    rw [List.cons_append, readNumber]
    split at h
    · rename_i hlast
      cases h
      rw [if_pos hlast]
    · rename_i hmore
      rw [if_neg hmore]
      exact ih h

theorem readIdentifier_more {identifier : Identifier}
    (h : readIdentifier bytes = some (identifier, rest)) (more : Bytes) :
    readIdentifier (bytes ++ more) = some (identifier, rest ++ more) := by
  cases bytes with
  | nil => cases h
  | cons octet bytes =>
    rw [readIdentifier] at h
    rw [List.cons_append, readIdentifier]
    split at h
    · rename_i hhigh
      obtain ⟨⟨number, rest'⟩, hnumber, heq⟩ := Option.map_eq_some_iff.mp h
      cases heq
      rw [if_pos hhigh, readNumber_more hnumber]
      rfl
    · rename_i hlow
      cases h
      rw [if_neg hlow]

/-- A length is one octet, or the count of the octets behind the first one. -/
theorem readLength_cons_eq_some {octet : UInt8} :
    readLength (octet :: bytes) = some (n, rest) ↔
      octet.toNat < 128 ∧ n = octet.toNat ∧ bytes = rest ∨
        128 < octet.toNat ∧ octet ≠ 0xff ∧ ∃ octets, bytes = octets ++ rest ∧
          octets.length = octet.toNat - 128 ∧ n = beValue octets := by
  rw [readLength]
  constructor
  · intro h
    split at h
    · rename_i hshort
      cases h
      exact .inl ⟨hshort, rfl, rfl⟩
    · rename_i hlong
      split at h
      · cases h
      · rename_i hdefinite
        obtain ⟨⟨octets, rest'⟩, hsplit, heq⟩ := Option.map_eq_some_iff.mp h
        cases heq
        obtain ⟨hbytes, hlength⟩ := splitExact_eq_some hsplit
        have hne : octet.toNat ≠ 128 := fun heq => hdefinite (.inl (UInt8.toNat_inj.mp heq))
        exact .inr ⟨by omega, fun heq => hdefinite (.inr heq), octets, hbytes, hlength, rfl⟩
  · intro hcase
    rcases hcase with ⟨hshort, hn, hbytes⟩ | ⟨hlong, hreserved, octets, hbytes, hlength, hn⟩
    · rw [if_pos hshort, hn, hbytes]
    · have hdefinite : ¬ (octet = 0x80 ∨ octet = 0xff) := by
        intro hcase
        rcases hcase with heq | heq
        · rw [heq] at hlong
          exact absurd hlong (by decide)
        · exact hreserved heq
      rw [if_neg (by omega), if_neg hdefinite, hbytes, splitExact_append hlength, hn]
      rfl

theorem readLength_more (h : readLength bytes = some (n, rest)) (more : Bytes) :
    readLength (bytes ++ more) = some (n, rest ++ more) := by
  cases bytes with
  | nil => cases h
  | cons octet bytes =>
    rw [List.cons_append]
    apply readLength_cons_eq_some.mpr
    rcases readLength_cons_eq_some.mp h with
      ⟨hshort, hn, hbytes⟩ | ⟨hlong, hreserved, octets, hbytes, hcount⟩
    · exact .inl ⟨hshort, hn, by rw [hbytes]⟩
    · exact .inr ⟨hlong, hreserved, octets, by rw [hbytes, List.append_assoc], hcount⟩

theorem readElement_eq_some {identifier : Identifier} :
    readElement bytes = some (identifier, content, rest) ↔
      ∃ behind length contents, readIdentifier bytes = some (identifier, behind) ∧
        readLength behind = some (length, contents) ∧
        splitExact length contents = some (content, rest) := by
  unfold readElement
  simp only [Option.bind_eq_bind, Option.bind_eq_some_iff, Option.pure_def, Option.some.injEq,
    Prod.mk.injEq, Prod.exists]
  constructor
  · intro h
    obtain ⟨_, behind, hidentifier, length, contents, hlength, _, _, hcontent, rfl, rfl, rfl⟩ := h
    exact ⟨behind, length, contents, hidentifier, hlength, hcontent⟩
  · intro ⟨behind, length, contents, hidentifier, hlength, hcontent⟩
    exact ⟨_, behind, hidentifier, length, contents, hlength, _, _, hcontent, rfl, rfl, rfl⟩

theorem readElement_more {identifier : Identifier}
    (h : readElement bytes = some (identifier, content, rest)) (more : Bytes) :
    readElement (bytes ++ more) = some (identifier, content, rest ++ more) := by
  obtain ⟨behind, length, contents, hidentifier, hlength, hcontent⟩ := readElement_eq_some.mp h
  exact readElement_eq_some.mpr ⟨behind ++ more, length, contents ++ more,
    readIdentifier_more hidentifier more, readLength_more hlength more,
    splitExact_more hcontent more⟩

theorem IsElement.read {identifier : Identifier} (h : IsElement identifier content bytes)
    (rest : Bytes) : readElement (bytes ++ rest) = some (identifier, content, rest) := by
  simpa using readElement_more h rest

/-- The bytes at the front are one element in one way only. -/
theorem IsElement.append_inj {identifier identifier' : Identifier} {content' bytes' rest' : Bytes}
    (h : IsElement identifier content bytes) (h' : IsElement identifier' content' bytes')
    (heq : bytes ++ rest = bytes' ++ rest') :
    identifier = identifier' ∧ content = content' ∧ bytes = bytes' ∧ rest = rest' := by
  have hread := h.read rest
  rw [heq, h'.read rest'] at hread
  obtain ⟨hidentifier, hcontent, hrest⟩ : identifier' = identifier ∧ content' = content ∧
      rest' = rest := by simpa using hread
  refine ⟨hidentifier.symm, hcontent.symm, ?_, hrest.symm⟩
  rw [hrest] at heq
  exact List.append_cancel_right heq

theorem IsElement.ne_nil {identifier : Identifier} (h : IsElement identifier content bytes) :
    bytes ≠ [] := by
  intro heq
  subst heq
  cases h

end Append

section Encoding

theorem IsLength.short_or_long {octet : UInt8} {octets : Bytes} (h : IsLength (octet :: octets) n) :
    octet.toNat < 128 ∧ octets = [] ∧ n = octet.toNat ∨
      128 < octet.toNat ∧ octets.length = octet.toNat - 128 ∧ n = beValue octets := by
  rcases readLength_cons_eq_some.mp h with ⟨hshort, hn, hnil⟩ | ⟨hlong, _, octets', heq, hlength, hn⟩
  · exact .inl ⟨hshort, hnil, hn⟩
  · rw [List.append_nil] at heq
    rw [heq]
    exact .inr ⟨hlong, hlength, hn⟩

theorem readLength_eq_some (h : readLength bytes = some (n, rest)) :
    ∃ octets, bytes = octets ++ rest ∧ IsLength octets n := by
  cases bytes with
  | nil => cases h
  | cons octet bytes =>
    rcases readLength_cons_eq_some.mp h with
      ⟨hshort, hn, hbytes⟩ | ⟨hlong, hreserved, octets, hbytes, hcount⟩
    · refine ⟨[octet], by rw [hbytes, List.singleton_append], ?_⟩
      exact readLength_cons_eq_some.mpr (.inl ⟨hshort, hn, rfl⟩)
    · refine ⟨octet :: octets, by rw [hbytes, List.cons_append], ?_⟩
      exact readLength_cons_eq_some.mpr
        (.inr ⟨hlong, hreserved, octets, (List.append_nil octets).symm, hcount⟩)

theorem readIdentifier_eq_low {octet : UInt8} (h : readIdentifier bytes = some (.low octet, rest)) :
    bytes = octet :: rest := by
  cases bytes with
  | nil => cases h
  | cons octet' bytes =>
    rw [readIdentifier] at h
    split at h
    · obtain ⟨_, _, heq⟩ := Option.map_eq_some_iff.mp h
      cases heq
    · cases h
      rfl

theorem IsElement.eq_low {octet : UInt8} (h : IsElement (.low octet) content bytes) :
    ∃ length, IsLength length content.length ∧ bytes = octet :: (length ++ content) := by
  obtain ⟨behind, n, contents, hidentifier, hlength, hcontent⟩ := readElement_eq_some.mp h
  obtain ⟨length, hbehind, hisLength⟩ := readLength_eq_some hlength
  obtain ⟨hcontents, hn⟩ := splitExact_eq_some hcontent
  rw [List.append_nil] at hcontents
  refine ⟨length, by rwa [hn], ?_⟩
  rw [readIdentifier_eq_low hidentifier, hbehind, hcontents]

theorem IsLength.ne_nil (h : IsLength bytes n) : bytes ≠ [] := by
  intro heq
  subst heq
  cases h

theorem width_le_four (h : n < 2 ^ 32) : width n ≤ 4 := by
  unfold width
  by_cases hzero : n = 0
  · rw [hzero]
    decide
  · have hlog : Nat.log2 n < 32 := (Nat.log2_lt hzero).mpr h
    omega

theorem lt_pow_width (n : ℕ) : n < 256 ^ width n := by
  have hlt : n < 2 ^ (Nat.log2 n + 1) := Nat.lt_log2_self
  have hle : Nat.log2 n + 1 ≤ 8 * width n := by
    unfold width
    omega
  have hpow : 2 ^ (Nat.log2 n + 1) ≤ 2 ^ (8 * width n) := Nat.pow_le_pow_right (by omega) hle
  rw [show (256 : ℕ) = 2 ^ 8 from rfl, ← Nat.pow_mul]
  omega

theorem isLength_minimalLength (h : width n ≤ 126) : IsLength (minimalLength n) n := by
  unfold IsLength minimalLength
  split
  · rename_i hshort
    have htoNat : (UInt8.ofNat n).toNat = n := by
      rw [UInt8.toNat_ofNat']
      omega
    apply readLength_cons_eq_some.mpr
    rw [htoNat]
    exact .inl ⟨hshort, rfl, rfl⟩
  · have hpos : 0 < width n := Nat.succ_pos _
    have htoNat : (UInt8.ofNat (128 + width n)).toNat = 128 + width n := by
      rw [UInt8.toNat_ofNat']
      omega
    have hreserved : UInt8.ofNat (128 + width n) ≠ 0xff := by
      intro heq
      have hwidth : 128 + width n = 255 := by
        rw [← htoNat, heq]
        rfl
      omega
    apply readLength_cons_eq_some.mpr
    rw [htoNat]
    refine .inr ⟨by omega, hreserved, beBytes (width n) n, (List.append_nil _).symm, ?_, ?_⟩
    · rw [length_beBytes]
      omega
    · exact (beValue_beBytes (lt_pow_width n)).symm

theorem IsIdentifier.read {identifier : Identifier} {octets : Bytes}
    (h : IsIdentifier identifier octets) (rest : Bytes) :
    readIdentifier (octets ++ rest) = some (identifier, rest) := by
  cases h with
  | low h => rw [List.singleton_append, readIdentifier, if_neg h]
  | high h hnumber hfirst =>
    rw [List.cons_append, readIdentifier, if_pos h, readNumber_more hnumber]
    rfl

theorem isElement_append {identifier : Identifier} {octets length : Bytes}
    (hidentifier : readIdentifier octets = some (identifier, []))
    (hlength : IsLength length content.length) :
    IsElement identifier content (octets ++ (length ++ content)) := by
  apply readElement_eq_some.mpr
  refine ⟨length ++ content, content.length, content, ?_, ?_, ?_⟩
  · simpa using readIdentifier_more hidentifier (length ++ content)
  · simpa using readLength_more hlength content
  · simpa using splitExact_append (rfl : content.length = content.length) []

theorem IsMinimalElement.isElement {identifier : Identifier}
    (h : IsMinimalElement identifier content bytes) : IsElement identifier content bytes := by
  obtain ⟨octets, hidentifier, hlength, rfl⟩ := h
  apply isElement_append _ (isLength_minimalLength hlength)
  simpa using hidentifier.read []

theorem IsMinimalInt.ne_nil {octets : Bytes} (h : IsMinimalInt octets) : octets ≠ [] := by
  intro heq
  subst heq
  exact h

/-- Whatever counts by the first rules counts by the second ones. -/
structure Rules.Stricter (rules rules' : Rules) : Prop where
  element : ∀ {identifier content bytes}, rules.element identifier content bytes →
    rules'.element identifier content bytes
  integer : ∀ {octets value}, rules.integer octets value → rules'.integer octets value

theorem distinguished_stricter : distinguished.Stricter definite where
  element := IsMinimalElement.isElement
  integer h := ⟨h.1.ne_nil, h.2⟩

end Encoding

end XitForge.Der
