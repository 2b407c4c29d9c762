import XitForge.Der
import XitForge.RustEval

/-!
IMG4 personalization. A firmware component, the ticket of the signing server and the
restore properties are put into one container, and the four-character code of the
component is replaced where the device expects another one. Errors are the texts of
`RestoreError::Img4`.
-/
namespace XitForge.Restore.Img4

open ByteStream Der RustEval

def tagInteger : UInt8 := 0x02

def tagOctetString : UInt8 := 0x04

def tagIa5String : UInt8 := 0x16

def tagSequence : UInt8 := 0x30

def tagSet : UInt8 := 0x31

def tagContext0 : UInt8 := 0xA0

def tagContext1 : UInt8 := 0xA1

/-- Private class, constructed, the tag number in high form. -/
def tagPrivateHigh : UInt8 := 0xFF

/-- `[u8; 4]`. -/
structure Fourcc where
  a : UInt8
  b : UInt8
  c : UInt8
  d : UInt8
  deriving DecidableEq, Repr

namespace Fourcc

def bytes (fourcc : Fourcc) : Bytes := [fourcc.a, fourcc.b, fourcc.c, fourcc.d]

/-- `u32::from_be_bytes`. -/
def number (fourcc : Fourcc) : UInt32 := UInt32.ofNat (beValue fourcc.bytes)

end Fourcc

inductive RestoreProperty where
  | integer (fourcc : Fourcc) (value : UInt64)
  | octetString (fourcc : Fourcc) (value : Bytes)
  deriving DecidableEq, Repr

section Encoders

-- `Length::to_der` of the `der` crate for a number of bytes
variable (toDer : ℕ → Except String Bytes)

def encodeLen (len : ℕ) : Eval String Bytes :=
  match toDer len with
  | .ok bytes => .ok bytes
  | .error e => .err s!"length {len}: {e}"

def tlv (tag : UInt8) (content : Bytes) : Eval String Bytes := do
  let len ← encodeLen toDer content.length
  return tag :: (len ++ content)

/-- `while bytes.len() > 1 && bytes[0] == 0`. -/
def trimZeros : Bytes → Bytes
  | [] => []
  | [byte] => [byte]
  | first :: second :: bytes =>
    if first = 0 then trimZeros (second :: bytes) else first :: second :: bytes

def derUint (value : UInt64) : Bytes :=
  if value = 0 then [0]
  else
    let bytes := trimZeros (beBytes 8 value.toNat)
    if bytes.headD 0 &&& 0x80 ≠ 0 then 0 :: bytes else bytes

/-- `while tmp > 0`, in rounds that shift out seven bits each. -/
def countGroups : ℕ → UInt32 → ℕ
  | 0, _ => 0
  | rounds + 1, tmp => if 0 < tmp then countGroups rounds (tmp >>> 7) + 1 else 0

/-- `for i in (0..groups).rev()`, with the octets behind `i` in `out`. -/
def fillGroups (groups : ℕ) : ℕ → UInt32 → Bytes → Bytes
  | 0, _, out => out
  | i + 1, value, out =>
    let octet := (value &&& 0x7f).toUInt8
    fillGroups groups i (value >>> 7) ((if i ≠ groups - 1 then octet ||| 0x80 else octet) :: out)

def base128 (value : UInt32) : Bytes :=
  -- five rounds are enough for 32 bits
  let counted := countGroups 5 value
  let groups := if counted = 0 then 1 else counted
  fillGroups groups groups value []

def buildProperty (prop : RestoreProperty) : Eval String Bytes := do
  let (fourcc, inner) ← (match prop with
    | .integer fourcc value => do
      let inner ← tlv toDer tagIa5String fourcc.bytes
      let value ← tlv toDer tagInteger (derUint value)
      return (fourcc, inner ++ value)
    | .octetString fourcc value => do
      let inner ← tlv toDer tagIa5String fourcc.bytes
      let value ← tlv toDer tagOctetString value
      return (fourcc, inner ++ value))
  let seq ← tlv toDer tagSequence inner
  let len ← encodeLen toDer seq.length
  return tagPrivateHigh :: (base128 fourcc.number ++ (len ++ seq))

/-- `for p in props`. -/
def buildProperties : List RestoreProperty → Eval String Bytes
  | [] => return []
  | p :: props => do
    let property ← buildProperty toDer p
    let properties ← buildProperties props
    return property ++ properties

/-- `b"IM4R"`. -/
def im4r : Bytes := [0x49, 0x4D, 0x34, 0x52]

def buildIm4r (props : List RestoreProperty) : Eval String Bytes := do
  let setContent ← buildProperties toDer props
  let name ← tlv toDer tagIa5String im4r
  let set ← tlv toDer tagSet setContent
  let seq ← tlv toDer tagSequence (name ++ set)
  tlv toDer tagContext1 seq

end Encoders

section Numbers

theorem toNat_and_80 (octet : UInt8) : (octet &&& 0x80).toNat = octet.toNat / 128 * 128 := by
  have hfin : ∀ i : Fin 256, i.val &&& 128 = i.val / 128 * 128 := by decide +kernel
  rw [UInt8.toNat_and]
  exact hfin ⟨octet.toNat, octet.toNat_lt⟩

theorem toNat_or_80 {octet : UInt8} (h : octet.toNat < 128) :
    (octet ||| 0x80).toNat = octet.toNat + 128 := by
  have hfin : ∀ i : Fin 128, i.val ||| 128 = i.val + 128 := by decide +kernel
  rw [UInt8.toNat_or]
  exact hfin ⟨octet.toNat, h⟩

theorem toNat_shift (value : UInt32) : (value >>> 7).toNat = value.toNat / 128 := by
  rw [UInt32.toNat_shiftRight, Nat.shiftRight_eq_div_pow]
  rfl

theorem toNat_group (value : UInt32) : ((value &&& 0x7f).toUInt8).toNat = value.toNat % 128 := by
  rw [UInt32.toNat_toUInt8, UInt32.toNat_and]
  have hmask : (0x7f : UInt32).toNat = 2 ^ 7 - 1 := rfl
  rw [hmask, Nat.and_two_pow_sub_one_eq_mod]
  omega

theorem beValue_zero_cons (bytes : Bytes) : beValue (0 :: bytes) = beValue bytes := by
  simp [beValue]

theorem beValue_trimZeros (bytes : Bytes) : beValue (trimZeros bytes) = beValue bytes := by
  fun_induction trimZeros bytes with
  | case1 => rfl
  | case2 byte => rfl
  | case3 second bytes ih =>
    rw [ih, beValue_zero_cons]
  | case4 first second bytes hfirst => rfl

theorem trimZeros_eq_cons {bytes : Bytes} (h : bytes ≠ []) :
    ∃ first rest, trimZeros bytes = first :: rest ∧ (first = 0 → rest = []) := by
  fun_induction trimZeros bytes with
  | case1 => exact absurd rfl h
  | case2 byte => exact ⟨byte, [], rfl, fun _ => rfl⟩
  | case3 second bytes ih => exact ih (List.cons_ne_nil second bytes)
  | case4 first second bytes hfirst =>
    exact ⟨first, second :: bytes, rfl, fun hzero => absurd hzero hfirst⟩

/-- The integer is written in as few octets as possible and reads back as the value. -/
theorem derUint_distinguished (value : UInt64) :
    distinguished.integer (derUint value) value.toNat := by
  unfold derUint
  split
  · rename_i hzero
    rw [hzero]
    exact ⟨trivial, rfl⟩
  · rename_i hvalue
    have hbytes : beBytes 8 value.toNat ≠ [] := by
      intro hnil
      have hlength := length_beBytes 8 value.toNat
      rw [hnil] at hlength
      cases hlength
    obtain ⟨first, rest, htrim, hfirst⟩ := trimZeros_eq_cons hbytes
    have hnumber : beValue (first :: rest) = value.toNat := by
      rw [← htrim, beValue_trimZeros]
      exact beValue_beBytes value.toNat_lt
    have hne : first ≠ 0 := by
      intro hzero
      apply hvalue
      apply UInt64.toNat_inj.mp
      rw [← hnumber, hzero, hfirst hzero]
      rfl
    have hhigh := toNat_and_80 first
    have hbound := first.toNat_lt
    dsimp only
    rw [htrim, List.headD_cons]
    split
    · rename_i htop
      -- the sign bit would be set, so a zero octet stands in front
      have hlarge : 128 ≤ first.toNat := by
        by_contra hsmall
        apply htop
        apply UInt8.toNat_inj.mp
        rw [hhigh]
        show first.toNat / 128 * 128 = 0
        omega
      constructor
      · refine ⟨fun h => ?_, fun h => absurd h.1 (by decide)⟩
        have hlt := h.2
        omega
      · rw [intValue, if_pos (by decide), beValue_zero_cons, hnumber]
    · rename_i htop
      have hsmall : first.toNat < 128 := by
        rw [not_not] at htop
        rw [htop] at hhigh
        have hzero : first.toNat / 128 * 128 = 0 := hhigh.symm
        omega
      constructor
      · cases rest with
        | nil => trivial
        | cons second rest =>
          refine ⟨fun h => hne h.1, ?_⟩
          intro ⟨hff, _⟩
          rw [hff] at hsmall
          exact absurd hsmall (by decide)
      · rw [intValue, if_pos hsmall, hnumber]

theorem lt_pow_countGroups {rounds : ℕ} {tmp : UInt32} (h : tmp.toNat < 128 ^ rounds) :
    tmp.toNat < 128 ^ countGroups rounds tmp := by
  induction rounds generalizing tmp with
  | zero => exact h
  | succ rounds ih =>
    rw [countGroups]
    split
    · have hshift : (tmp >>> 7).toNat < 128 ^ rounds := by
        rw [toNat_shift]
        rw [pow_succ] at h
        omega
      have hlt := ih hshift
      rw [toNat_shift] at hlt
      rw [pow_succ]
      omega
    · rename_i hzero
      have htoNat : ¬ 0 < tmp.toNat := fun hpos => hzero (UInt32.lt_iff_toNat_lt.mpr hpos)
      omega

/-- The first of the groups is not zero. -/
theorem pow_le_of_countGroups {rounds groups : ℕ} {tmp : UInt32}
    (h : countGroups rounds tmp = groups + 1) : 128 ^ groups ≤ tmp.toNat := by
  induction rounds generalizing groups tmp with
  | zero => cases h
  | succ rounds ih =>
    rw [countGroups] at h
    split at h
    · rename_i hpos
      have htoNat : 0 < tmp.toNat := UInt32.lt_iff_toNat_lt.mp hpos
      cases groups with
      | zero => rwa [pow_zero]
      | succ groups =>
        have hle := ih (Nat.succ.inj h)
        rw [toNat_shift] at hle
        rw [pow_succ]
        omega
    · cases h

/-- The groups written before `out` continue the number. -/
theorem readNumber_fillGroups {groups i acc : ℕ} {value : UInt32} {out : Bytes} (hi : i < groups)
    (hvalue : value.toNat < 128 ^ i) :
    readNumber acc (fillGroups groups i value out) =
      readNumber (acc * 128 ^ i + value.toNat) out := by
  induction i generalizing value out with
  | zero =>
    have hzero : value.toNat = 0 := by simpa using hvalue
    rw [fillGroups, hzero, pow_zero, Nat.mul_one, Nat.add_zero]
  | succ i ih =>
    have hshift : (value >>> 7).toNat < 128 ^ i := by
      rw [toNat_shift]
      rw [pow_succ] at hvalue
      omega
    have hgroup := toNat_group value
    have htop : ((value &&& 0x7f).toUInt8 ||| 0x80).toNat = (value &&& 0x7f).toUInt8.toNat + 128 :=
      toNat_or_80 (by omega)
    rw [fillGroups, ih (by omega) hshift, if_pos (by omega), readNumber, if_neg (by omega), htop,
      hgroup, toNat_shift, Nat.add_sub_cancel, pow_succ]
    congr 1
    have hsplit := Nat.div_add_mod value.toNat 128
    rw [Nat.add_mul, ← Nat.mul_assoc]
    omega

theorem head_fillGroups {groups i : ℕ} {value : UInt32} {out : Bytes}
    (hle : 128 ^ i ≤ value.toNat) (hlt : value.toNat < 128 ^ (i + 1)) :
    (fillGroups groups (i + 1) value out).head? ≠ some 0x80 := by
  induction i generalizing value out with
  | zero =>
    rw [fillGroups, fillGroups, List.head?_cons]
    intro heq
    have hgroup := toNat_group value
    have hoctet := congrArg UInt8.toNat (Option.some.inj heq)
    split at hoctet
    · rw [toNat_or_80 (by omega)] at hoctet
      have htoNat : (value &&& 0x7f).toUInt8.toNat + 128 = 128 := hoctet
      omega
    · have htoNat : (value &&& 0x7f).toUInt8.toNat = 128 := hoctet
      omega
  | succ i ih =>
    rw [fillGroups]
    apply ih
    · rw [toNat_shift]
      rw [pow_succ] at hle
      omega
    · rw [toNat_shift]
      rw [pow_succ] at hlt
      omega

/-- The tag number is written in as few groups as possible and reads back. -/
theorem isIdentifier_base128 (value : UInt32) :
    IsIdentifier (.high tagPrivateHigh value.toNat) (tagPrivateHigh :: base128 value) := by
  have hbound : value.toNat < 128 ^ 5 := by
    have hlt := value.toNat_lt
    omega
  have hcounted := lt_pow_countGroups hbound
  obtain ⟨groups, hgroups, hlt, hhead⟩ : ∃ groups, base128 value =
      fillGroups (groups + 1) (groups + 1) value [] ∧ value.toNat < 128 ^ (groups + 1) ∧
        (groups = 0 ∧ value.toNat = 0 ∨ 128 ^ groups ≤ value.toNat) := by
    unfold base128
    cases hcount : countGroups 5 value with
    | zero =>
      rw [hcount] at hcounted
      exact ⟨0, rfl, by omega, .inl ⟨rfl, by omega⟩⟩
    | succ groups =>
      rw [hcount] at hcounted
      exact ⟨groups, rfl, hcounted, .inr (pow_le_of_countGroups hcount)⟩
  apply IsIdentifier.high (by decide)
  · have hgroup := toNat_group value
    have hshift : (value >>> 7).toNat < 128 ^ groups := by
      rw [toNat_shift]
      rw [pow_succ] at hlt
      omega
    rw [hgroups, fillGroups, readNumber_fillGroups (Nat.lt_succ_self groups) hshift,
      if_neg (by omega), readNumber, if_pos (by omega), hgroup, toNat_shift]
    have hsplit := Nat.div_add_mod value.toNat 128
    rw [show (0 * 128 ^ groups + value.toNat / 128) * 128 + value.toNat % 128 = value.toNat by omega]
  · rw [hgroups]
    rcases hhead with ⟨hzero, hvalue⟩ | hle
    · have hvalue' : value = 0 := UInt32.toNat_inj.mp hvalue
      rw [hzero, hvalue']
      decide
    · exact head_fillGroups hle hlt

end Numbers

section Patch

variable (checks : Bool) (buf : Bytes)

def byteAt (i : ℕ) : Eval String UInt8 :=
  match buf[i]? with
  | some byte => .ok byte
  | none => .err "truncated IM4P while locating fourcc"

/-- `for _ in 0..n`; the shift drops the bits above the 64th. -/
def readLengthOctets : ℕ → ℕ → ℕ → Eval String (ℕ × ℕ)
  | 0, l, i => return (l, i)
  | n + 1, l, i => do
    let byte ← byteAt buf i
    readLengthOctets n (l * 256 % 2 ^ 64 + byte.toNat) (i + 1)

/-- The tag at `off`, the length of the content, and where the content starts. -/
def readTlv (off : ℕ) : Eval String (UInt8 × ℕ × ℕ) := do
  let tag ← byteAt buf off
  let first ← byteAt buf (off + 1)
  let (len, i) ←
    if first < 0x80 then pure (first.toNat, off + 2)
    else
      let n := (first &&& 0x7f).toNat
      if n = 0 ∨ 8 < n then .err "invalid IM4P length field"
      else readLengthOctets buf n 0 (off + 2)
  let stop ← Eval.add 64 checks i len
  if buf.length < stop then .err "truncated IM4P while locating fourcc"
  else return (tag, len, i)

/-- `out[start..start + 4].copy_from_slice(&fourcc)`, which panics past the end. -/
def overwrite (start : ℕ) (fourcc : Fourcc) : Eval String Bytes :=
  if start + 4 ≤ buf.length then
    .ok (buf.take start ++ (fourcc.bytes ++ buf.drop (start + 4)))
  else .panic

def patchIm4pFourcc (fourcc : Fourcc) : Eval String Bytes := do
  let (t, _, seqStart) ← readTlv checks buf 0
  if t ≠ tagSequence then .err "IM4P is not a SEQUENCE"
  else do
    let (t0, l0, s0) ← readTlv checks buf seqStart
    if t0 ≠ tagIa5String then .err "IM4P magic is not an IA5String"
    else do
      let next ← Eval.add 64 checks s0 l0
      let (t1, l1, s1) ← readTlv checks buf next
      if t1 ≠ tagIa5String ∨ l1 ≠ 4 then .err "IM4P type is not a 4-byte IA5String"
      else overwrite buf s1 fourcc

end Patch

section WellFormed

/-- The magic, the type and whatever follows. -/
def im4pContent (magicLength magic typeLength : Bytes) (kind : Fourcc) (rest : Bytes) : Bytes :=
  tagIa5String :: (magicLength ++ (magic ++
    (tagIa5String :: (typeLength ++ (kind.bytes ++ rest)))))

/-- One complete IM4P with lengths of definite form, not always in as few octets as
possible. -/
structure Im4p where
  magicLength : Bytes
  magic : Bytes
  typeLength : Bytes
  kind : Fourcc
  rest : Bytes
  length : Bytes
  isLength_magic : IsLength magicLength magic.length
  isLength_type : IsLength typeLength 4
  isLength : IsLength length (im4pContent magicLength magic typeLength kind rest).length

namespace Im4p

def content (p : Im4p) : Bytes := im4pContent p.magicLength p.magic p.typeLength p.kind p.rest

def bytes (p : Im4p) : Bytes := tagSequence :: (p.length ++ p.content)

/-- Only the four bytes of the type are replaced. -/
def withKind (p : Im4p) (kind : Fourcc) : Im4p where
  magicLength := p.magicLength
  magic := p.magic
  typeLength := p.typeLength
  kind := kind
  rest := p.rest
  length := p.length
  isLength_magic := p.isLength_magic
  isLength_type := p.isLength_type
  isLength := by simpa [im4pContent, Fourcc.bytes] using p.isLength

theorem isElement (p : Im4p) : IsElement (.low tagSequence) p.content p.bytes := by
  have hidentifier : readIdentifier [tagSequence] = some (.low tagSequence, []) := rfl
  exact isElement_append hidentifier p.isLength

/-- Every such sequence is the bytes of an `Im4p`. -/
theorem exists_bytes_eq {bytes content magic magicElement typeElement rest : Bytes} {kind : Fourcc}
    (h : IsElement (.low tagSequence) content bytes)
    (hmagic : IsElement (.low tagIa5String) magic magicElement)
    (htype : IsElement (.low tagIa5String) kind.bytes typeElement)
    (hcontent : content = magicElement ++ (typeElement ++ rest)) :
    ∃ p : Im4p, p.bytes = bytes ∧ p.kind = kind := by
  obtain ⟨length, hlength, hbytes⟩ := h.eq_low
  obtain ⟨magicLength, hmagicLength, hmagicElement⟩ := hmagic.eq_low
  obtain ⟨typeLength, htypeLength, htypeElement⟩ := htype.eq_low
  have heq : content = im4pContent magicLength magic typeLength kind rest := by
    rw [hcontent, hmagicElement, htypeElement]
    simp [im4pContent]
  rw [heq] at hlength
  refine ⟨⟨magicLength, magic, typeLength, kind, rest, length, hmagicLength, htypeLength,
    hlength⟩, ?_, rfl⟩
  rw [hbytes, heq]
  rfl

end Im4p

end WellFormed

section Patching

variable {checks : Bool} {buf behind : Bytes} {off : ℕ}

theorem byteAt_of_drop {i : ℕ} {byte : UInt8} (h : buf.drop i = byte :: behind) :
    byteAt buf i = .ok byte := by
  have hget : buf[i]? = some byte := by
    rw [← Nat.add_zero i, ← List.getElem?_drop, h]
    rfl
  unfold byteAt
  rw [hget]

theorem drop_succ {i : ℕ} {byte : UInt8} (h : buf.drop i = byte :: behind) :
    buf.drop (i + 1) = behind := by
  rw [← List.drop_drop, h]
  rfl

/-- At most eight octets make a number below `2 ^ 64`, so the shift drops no bit. -/
theorem readLengthOctets_eq {octets : Bytes} {l i k : ℕ} (h : buf.drop i = octets ++ behind)
    (hl : l < 256 ^ k) (hk : k + octets.length ≤ 8) :
    readLengthOctets buf octets.length l i =
      .ok (octets.foldl (fun acc byte => acc * 256 + byte.toNat) l, i + octets.length) := by
  induction octets generalizing l i k with
  | nil => rfl
  | cons octet octets ih =>
    rw [List.cons_append] at h
    rw [List.length_cons] at hk
    have hoctet := octet.toNat_lt
    have hstep : l * 256 + octet.toNat < 256 ^ (k + 1) := by
      rw [pow_succ]
      omega
    have hpow : 256 ^ (k + 1) ≤ 256 ^ 8 := Nat.pow_le_pow_right (by omega) (by omega)
    have hmod : l * 256 % 2 ^ 64 = l * 256 := by
      apply Nat.mod_eq_of_lt
      have hle : l * 256 ≤ l * 256 + octet.toNat := Nat.le_add_right _ _
      exact lt_of_le_of_lt hle (lt_of_lt_of_le hstep hpow)
    rw [List.length_cons, readLengthOctets, byteAt_of_drop h, Eval.ok_bind, hmod,
      ih (drop_succ h) hstep (by omega), List.foldl_cons, Nat.add_assoc i, Nat.add_comm 1]

/-- The hand-written reader finds the parts of an element that stands at `off`. -/
theorem readTlv_eq {tag t : UInt8} {len content : Bytes} {l s : ℕ} (hbuf : buf.length < 2 ^ 64)
    (hdrop : buf.drop off = tag :: (len ++ (content ++ behind)))
    (hlen : IsLength len content.length) (hok : readTlv checks buf off = .ok (t, l, s)) :
    t = tag ∧ l = content.length ∧ s = off + 1 + len.length := by
  have hlength := congrArg List.length hdrop
  simp only [List.length_drop, List.length_cons, List.length_append] at hlength
  have hnext := drop_succ hdrop
  cases len with
  | nil => exact absurd rfl hlen.ne_nil
  | cons first octets =>
    rw [List.cons_append] at hnext
    rw [List.length_cons] at hlength
    unfold readTlv at hok
    rw [byteAt_of_drop hdrop, Eval.ok_bind, byteAt_of_drop hnext, Eval.ok_bind] at hok
    have hread : ∀ i, i = off + 2 + octets.length →
        ((Eval.add 64 checks i content.length : Eval String ℕ) >>= fun stop =>
          if buf.length < stop then .err "truncated IM4P while locating fourcc"
          else return (tag, content.length, i)) = .ok (t, l, s) →
        t = tag ∧ l = content.length ∧ s = off + 1 + (first :: octets).length := by
      intro i hi hrest
      rw [Eval.add_of_lt (by omega), Eval.ok_bind, if_neg (by omega)] at hrest
      cases hrest
      rw [List.length_cons]
      exact ⟨rfl, rfl, by omega⟩
    rcases hlen.short_or_long with ⟨hshort, hoctets, hcontent⟩ | ⟨hlong, hoctets, hcontent⟩
    · rw [if_pos (UInt8.lt_iff_toNat_lt.mpr hshort), Eval.pure_eq, Eval.ok_bind] at hok
      dsimp only at hok
      rw [← hcontent] at hok
      apply hread (off + 2) _ hok
      rw [hoctets]
      rfl
    · have hmask : (first &&& 0x7f).toNat = octets.length := by
        have hbound := first.toNat_lt
        have hconst : (0x7f : UInt8).toNat = 2 ^ 7 - 1 := rfl
        rw [UInt8.toNat_and, hconst, Nat.and_two_pow_sub_one_eq_mod]
        omega
      have hnotShort : ¬ first < 0x80 := by
        rw [UInt8.lt_iff_toNat_lt]
        exact Nat.not_lt.mpr hlong.le
      rw [if_neg hnotShort] at hok
      dsimp only at hok
      rw [hmask] at hok
      split at hok
      · cases hok
      · rename_i hcount
        have hfit : 0 + octets.length ≤ 8 := by omega
        have hzero : 0 < 256 ^ 0 := Nat.one_pos
        rw [readLengthOctets_eq (drop_succ hnext) hzero hfit, Eval.ok_bind] at hok
        dsimp only at hok
        have hvalue : octets.foldl (fun acc byte => acc * 256 + byte.toNat) 0 = content.length :=
          hcontent.symm
        rw [hvalue] at hok
        exact hread _ rfl hok

theorem overwrite_append {front rest : Bytes} {kind fourcc : Fourcc} :
    overwrite (front ++ (kind.bytes ++ rest)) front.length fourcc =
      .ok (front ++ (fourcc.bytes ++ rest)) := by
  have hfour : kind.bytes.length = 4 := rfl
  have hdrop : (front ++ (kind.bytes ++ rest)).drop (front.length + 4) = rest := by
    rw [← List.drop_drop, List.drop_left, ← hfour, List.drop_left]
  unfold overwrite
  rw [if_pos (by simp only [List.length_append, hfour]; omega), List.take_left, hdrop]

theorem length_of_overwrite {start : ℕ} {fourcc : Fourcc} {out : Bytes}
    (h : overwrite buf start fourcc = .ok out) : out.length = buf.length := by
  unfold overwrite at h
  split at h
  · cases h
    have hfour : fourcc.bytes.length = 4 := rfl
    simp only [List.length_append, List.length_take, List.length_drop, hfour]
    omega
  · cases h

theorem length_of_patchIm4pFourcc {fourcc : Fourcc} {out : Bytes}
    (h : patchIm4pFourcc checks buf fourcc = .ok out) : out.length = buf.length := by
  unfold patchIm4pFourcc at h
  obtain ⟨⟨t, _, seqStart⟩, _, h⟩ := Eval.bind_eq_ok.mp h
  dsimp only at h
  split at h
  · cases h
  obtain ⟨⟨t0, l0, s0⟩, _, h⟩ := Eval.bind_eq_ok.mp h
  dsimp only at h
  split at h
  · cases h
  obtain ⟨next, _, h⟩ := Eval.bind_eq_ok.mp h
  obtain ⟨⟨t1, l1, s1⟩, _, h⟩ := Eval.bind_eq_ok.mp h
  dsimp only at h
  split at h
  · cases h
  exact length_of_overwrite h

/-- On a complete IM4P the patch replaces the type and nothing else. -/
theorem patchIm4pFourcc_eq {p : Im4p} {fourcc : Fourcc} {out : Bytes}
    (hlength : p.bytes.length < 2 ^ 64)
    (h : patchIm4pFourcc checks p.bytes fourcc = .ok out) : out = (p.withKind fourcc).bytes := by
  have hfour : p.kind.bytes.length = 4 := rfl
  have hsum : p.bytes.length = p.length.length + p.content.length + 1 := by
    rw [Im4p.bytes, List.length_cons, List.length_append]
  have hcontent : p.content.length = 1 + p.magicLength.length + p.magic.length + 1 +
      p.typeLength.length + 4 + p.rest.length := by
    simp only [Im4p.content, im4pContent, List.length_cons, List.length_append, hfour]
    omega
  have houter : p.bytes.drop 0 = tagSequence :: (p.length ++ (p.content ++ [])) := by
    rw [List.append_nil]
    rfl
  have hseq : p.bytes.drop (0 + 1 + p.length.length) = p.content := by
    rw [← List.drop_drop, drop_succ houter, List.drop_left, List.append_nil]
  unfold patchIm4pFourcc at h
  obtain ⟨⟨t, l, seqStart⟩, hread, h⟩ := Eval.bind_eq_ok.mp h
  obtain ⟨rfl, rfl, rfl⟩ := readTlv_eq hlength houter p.isLength hread
  dsimp only at h
  rw [if_neg (fun hne => hne rfl)] at h
  obtain ⟨⟨t0, l0, s0⟩, hread0, h⟩ := Eval.bind_eq_ok.mp h
  obtain ⟨rfl, rfl, rfl⟩ := readTlv_eq hlength hseq p.isLength_magic hread0
  dsimp only at h
  rw [if_neg (fun hne => hne rfl)] at h
  have hmagic := drop_succ hseq
  have htype : p.bytes.drop
      (0 + 1 + p.length.length + 1 + p.magicLength.length + p.magic.length) =
        tagIa5String :: (p.typeLength ++ (p.kind.bytes ++ p.rest)) := by
    rw [← List.drop_drop, ← List.drop_drop, hmagic, List.drop_left, List.drop_left]
  rw [Eval.add_of_lt (by omega), Eval.ok_bind] at h
  obtain ⟨⟨t1, l1, s1⟩, hread1, h⟩ := Eval.bind_eq_ok.mp h
  obtain ⟨rfl, rfl, rfl⟩ := readTlv_eq hlength htype p.isLength_type hread1
  dsimp only at h
  rw [if_neg (by simp [hfour])] at h
  -- the type stands behind everything that was read
  obtain ⟨front, hfront, hbytes, hpatched⟩ : ∃ front : Bytes,
      front.length = 0 + 1 + p.length.length + 1 + p.magicLength.length + p.magic.length + 1 +
        p.typeLength.length ∧ p.bytes = front ++ (p.kind.bytes ++ p.rest) ∧
        (p.withKind fourcc).bytes = front ++ (fourcc.bytes ++ p.rest) := by
    refine ⟨tagSequence :: (p.length ++ (tagIa5String :: (p.magicLength ++ (p.magic ++
      (tagIa5String :: p.typeLength))))), ?_, ?_, ?_⟩
    · simp only [List.length_cons, List.length_append]
      omega
    · simp [Im4p.bytes, Im4p.content, im4pContent]
    · simp [Im4p.bytes, Im4p.content, im4pContent, Im4p.withKind]
  rw [← hfront, hbytes, overwrite_append] at h
  cases h
  exact hpatched.symm

end Patching

/-- `b"IMG4"`. -/
def img4 : Bytes := [0x49, 0x4D, 0x47, 0x34]

def stitchComponent (toDer : ℕ → Except String Bytes) (checks : Bool) (im4p apImg4Ticket : Bytes)
    (fourccOverride : Option Fourcc) (restoreProperties : List RestoreProperty) :
    Eval String Bytes := do
  let im4p ← (match fourccOverride with
    | some fourcc => patchIm4pFourcc checks im4p fourcc
    | none => return im4p)
  let name ← tlv toDer tagIa5String img4
  let ticket ← tlv toDer tagContext0 apImg4Ticket
  let restoreInfo ←
    (if restoreProperties.isEmpty then return [] else buildIm4r toDer restoreProperties)
  tlv toDer tagSequence (name ++ (im4p ++ (ticket ++ restoreInfo)))

end XitForge.Restore.Img4
