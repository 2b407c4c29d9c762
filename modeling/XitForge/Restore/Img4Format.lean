import XitForge.Restore.Img4

/-!
What an IMG4 container says, as a relation between its bytes and its parts. The container
that `stitchComponent` returns has the parts that were given, in the distinguished
encoding, and no other parts even where any definite length is taken.
-/
namespace XitForge.Restore.Img4

open ByteStream Der RustEval

/-- The private tag and the name of a property are both its four-character code. -/
def IsKeyed (rules : Rules) (fourcc : Fourcc) (tag : UInt8) (value bytes : Bytes) : Prop :=
  ∃ seq name element,
    rules.element (.high tagPrivateHigh (beValue fourcc.bytes)) seq bytes ∧
    rules.element (.low tagSequence) (name ++ element) seq ∧
    rules.element (.low tagIa5String) fourcc.bytes name ∧
    rules.element (.low tag) value element

def IsProperty (rules : Rules) : RestoreProperty → Bytes → Prop
  | .integer fourcc value, bytes =>
    ∃ octets, IsKeyed rules fourcc tagInteger octets bytes ∧ rules.integer octets value.toNat
  | .octetString fourcc value, bytes => IsKeyed rules fourcc tagOctetString value bytes

/-- The properties one behind the other. -/
def AreProperties (rules : Rules) : List RestoreProperty → Bytes → Prop
  | [], bytes => bytes = []
  | property :: properties, bytes =>
    ∃ first rest, bytes = first ++ rest ∧ IsProperty rules property first ∧
      AreProperties rules properties rest

def IsRestoreInfo (rules : Rules) : Option (List RestoreProperty) → Bytes → Prop
  | none, bytes => bytes = []
  | some properties, bytes =>
    ∃ seq name set content,
      rules.element (.low tagContext1) seq bytes ∧
      rules.element (.low tagSequence) (name ++ set) seq ∧
      rules.element (.low tagIa5String) im4r name ∧
      rules.element (.low tagSet) content set ∧ AreProperties rules properties content

structure Container where
  im4p : Bytes
  ticket : Bytes
  properties : Option (List RestoreProperty)

/-- The IM4P comes from the firmware, so its own length need not be in as few octets as
possible. -/
def IsImg4 (rules : Rules) (container : Container) (bytes : Bytes) : Prop :=
  ∃ name content ticket restoreInfo,
    rules.element (.low tagSequence) (name ++ (container.im4p ++ (ticket ++ restoreInfo))) bytes ∧
    rules.element (.low tagIa5String) img4 name ∧
    IsElement (.low tagSequence) content container.im4p ∧
    rules.element (.low tagContext0) container.ticket ticket ∧
    IsRestoreInfo rules container.properties restoreInfo

section Uniqueness

variable {bytes bytes' rest rest' : Bytes}

/-- A whole element has one content. -/
theorem content_unique {identifier identifier' : Identifier} {content content' : Bytes}
    (h : IsElement identifier content bytes) (h' : IsElement identifier' content' bytes) :
    identifier = identifier' ∧ content = content' := by
  obtain ⟨hidentifier, hcontent, _, _⟩ := h.append_inj h' (rfl : bytes ++ [] = bytes ++ [])
  exact ⟨hidentifier, hcontent⟩

theorem bytes_injective {fourcc fourcc' : Fourcc} (h : fourcc.bytes = fourcc'.bytes) :
    fourcc = fourcc' := by
  cases fourcc
  cases fourcc'
  simpa [Fourcc.bytes] using h

theorem isKeyed_unique {fourcc fourcc' : Fourcc} {tag tag' : UInt8} {value value' : Bytes}
    (h : IsKeyed definite fourcc tag value bytes) (h' : IsKeyed definite fourcc' tag' value' bytes) :
    fourcc = fourcc' ∧ tag = tag' ∧ value = value' := by
  obtain ⟨seq, name, element, houter, hseq, hname, helement⟩ := h
  obtain ⟨seq', name', element', houter', hseq', hname', helement'⟩ := h'
  obtain ⟨_, rfl⟩ := content_unique houter houter'
  obtain ⟨_, hinner⟩ := content_unique hseq hseq'
  obtain ⟨_, hfourcc, _, rfl⟩ := IsElement.append_inj hname hname' hinner
  obtain ⟨htag, hvalue⟩ := content_unique helement helement'
  exact ⟨bytes_injective hfourcc, Identifier.low.inj htag, hvalue⟩

theorem isProperty_unique {property property' : RestoreProperty}
    (h : IsProperty definite property bytes) (h' : IsProperty definite property' bytes) :
    property = property' := by
  cases property with
  | integer fourcc value =>
    obtain ⟨octets, hkeyed, _, hvalue⟩ := h
    cases property' with
    | integer fourcc' value' =>
      obtain ⟨octets', hkeyed', _, hvalue'⟩ := h'
      obtain ⟨hfourcc, _, hoctets⟩ := isKeyed_unique hkeyed hkeyed'
      have htoNat : value.toNat = value'.toNat := by
        apply Int.ofNat_inj.mp
        rw [← hvalue, ← hvalue', hoctets]
      rw [hfourcc, UInt64.toNat_inj.mp htoNat]
    | octetString fourcc' value' =>
      obtain ⟨_, htag, _⟩ := isKeyed_unique hkeyed h'
      exact absurd htag (by decide)
  | octetString fourcc value =>
    cases property' with
    | integer fourcc' value' =>
      obtain ⟨octets', hkeyed', _⟩ := h'
      obtain ⟨_, htag, _⟩ := isKeyed_unique h hkeyed'
      exact absurd htag (by decide)
    | octetString fourcc' value' =>
      obtain ⟨hfourcc, _, hvalue⟩ := isKeyed_unique h h'
      rw [hfourcc, hvalue]

theorem IsProperty.exists_element {property : RestoreProperty}
    (h : IsProperty definite property bytes) :
    ∃ identifier content, IsElement identifier content bytes := by
  cases property with
  | integer fourcc value =>
    obtain ⟨octets, ⟨seq, _, _, houter, _⟩, _⟩ := h
    exact ⟨_, seq, houter⟩
  | octetString fourcc value =>
    obtain ⟨seq, _, _, houter, _⟩ := h
    exact ⟨_, seq, houter⟩

theorem areProperties_unique {properties properties' : List RestoreProperty}
    (h : AreProperties definite properties bytes) (h' : AreProperties definite properties' bytes) :
    properties = properties' := by
  induction properties generalizing properties' bytes with
  | nil =>
    cases properties' with
    | nil => rfl
    | cons property' properties' =>
      obtain ⟨first, rest, hbytes, hproperty, _⟩ := h'
      obtain ⟨_, _, helement⟩ := hproperty.exists_element
      have hnil : first ++ rest = [] := hbytes.symm.trans h
      exact absurd (List.append_eq_nil_iff.mp hnil).1 helement.ne_nil
  | cons property properties ih =>
    obtain ⟨first, rest, hbytes, hproperty, hproperties⟩ := h
    obtain ⟨_, _, helement⟩ := hproperty.exists_element
    cases properties' with
    | nil =>
      have hnil : first ++ rest = [] := hbytes.symm.trans h'
      exact absurd (List.append_eq_nil_iff.mp hnil).1 helement.ne_nil
    | cons property' properties' =>
      obtain ⟨first', rest', hbytes', hproperty', hproperties'⟩ := h'
      obtain ⟨_, _, helement'⟩ := hproperty'.exists_element
      obtain ⟨_, _, rfl, rfl⟩ := helement.append_inj helement' (hbytes.symm.trans hbytes')
      rw [isProperty_unique hproperty hproperty', ih hproperties hproperties']

theorem isRestoreInfo_unique {properties properties' : Option (List RestoreProperty)}
    (h : IsRestoreInfo definite properties bytes) (h' : IsRestoreInfo definite properties' bytes) :
    properties = properties' := by
  cases properties with
  | none =>
    cases properties' with
    | none => rfl
    | some properties' =>
      obtain ⟨_, _, _, _, houter, _⟩ := h'
      exact absurd h houter.ne_nil
  | some properties =>
    obtain ⟨seq, name, set, content, houter, hseq, hname, hset, hproperties⟩ := h
    cases properties' with
    | none => exact absurd h' houter.ne_nil
    | some properties' =>
      obtain ⟨seq', name', set', content', houter', hseq', hname', hset', hproperties'⟩ := h'
      obtain ⟨_, rfl⟩ := content_unique houter houter'
      obtain ⟨_, hinner⟩ := content_unique hseq hseq'
      obtain ⟨_, _, _, rfl⟩ := IsElement.append_inj hname hname' hinner
      obtain ⟨_, rfl⟩ := content_unique hset hset'
      rw [areProperties_unique hproperties hproperties']

/-- A container is read in one way only. -/
theorem isImg4_unique {container container' : Container} (h : IsImg4 definite container bytes)
    (h' : IsImg4 definite container' bytes) : container = container' := by
  obtain ⟨im4p, ticket, properties⟩ := container
  obtain ⟨im4p', ticket', properties'⟩ := container'
  obtain ⟨name, _, element, info, houter, hname, him4p, hticket, hinfo⟩ := h
  obtain ⟨name', _, element', info', houter', hname', him4p', hticket', hinfo'⟩ := h'
  obtain ⟨_, hinner⟩ := content_unique houter houter'
  obtain ⟨_, _, _, hbehind⟩ := IsElement.append_inj hname hname' hinner
  obtain ⟨_, _, him4pEq, hbehind⟩ := him4p.append_inj him4p' hbehind
  obtain ⟨_, hticketEq, _, rfl⟩ := IsElement.append_inj hticket hticket' hbehind
  have hpropertiesEq := isRestoreInfo_unique hinfo hinfo'
  dsimp only at him4pEq hticketEq hpropertiesEq
  rw [him4pEq, hticketEq, hpropertiesEq]

end Uniqueness

section Stricter

variable {rules rules' : Rules} {bytes : Bytes}

theorem IsKeyed.mono {fourcc : Fourcc} {tag : UInt8} {value : Bytes}
    (hrules : rules.Stricter rules') (h : IsKeyed rules fourcc tag value bytes) :
    IsKeyed rules' fourcc tag value bytes := by
  obtain ⟨seq, name, element, houter, hseq, hname, helement⟩ := h
  exact ⟨seq, name, element, hrules.element houter, hrules.element hseq, hrules.element hname,
    hrules.element helement⟩

theorem AreProperties.mono {properties : List RestoreProperty} (hrules : rules.Stricter rules')
    (h : AreProperties rules properties bytes) : AreProperties rules' properties bytes := by
  induction properties generalizing bytes with
  | nil => exact h
  | cons property properties ih =>
    obtain ⟨first, rest, hbytes, hproperty, hproperties⟩ := h
    refine ⟨first, rest, hbytes, ?_, ih hproperties⟩
    cases property with
    | integer fourcc value =>
      obtain ⟨octets, hkeyed, hinteger⟩ := hproperty
      exact ⟨octets, hkeyed.mono hrules, hrules.integer hinteger⟩
    | octetString fourcc value => exact IsKeyed.mono hrules hproperty

theorem IsImg4.mono {container : Container} (hrules : rules.Stricter rules')
    (h : IsImg4 rules container bytes) : IsImg4 rules' container bytes := by
  obtain ⟨name, content, ticket, restoreInfo, houter, hname, him4p, hticket, hinfo⟩ := h
  refine ⟨name, content, ticket, restoreInfo, hrules.element houter, hrules.element hname, him4p,
    hrules.element hticket, ?_⟩
  cases hproperties : container.properties with
  | none =>
    rw [hproperties] at hinfo
    exact hinfo
  | some properties =>
    rw [hproperties] at hinfo
    obtain ⟨seq, name, set, content, houter, hseq, hname, hset, hall⟩ := hinfo
    exact ⟨seq, name, set, content, hrules.element houter, hrules.element hseq,
      hrules.element hname, hrules.element hset, hall.mono hrules⟩

end Stricter

section Stitching

/-- `der::Length` holds a `u32` and encodes it in as few octets as possible. -/
def EncodesMinimal (toDer : ℕ → Except String Bytes) : Prop :=
  ∀ n bytes, toDer n = .ok bytes → n < 2 ^ 32 ∧ bytes = minimalLength n

variable {toDer : ℕ → Except String Bytes} {bytes content : Bytes}

theorem encodeLen_eq_ok {n : ℕ} (hder : EncodesMinimal toDer) (h : encodeLen toDer n = .ok bytes) :
    n < 2 ^ 32 ∧ bytes = minimalLength n := by
  unfold encodeLen at h
  split at h
  · rename_i len hlen
    cases h
    exact hder n _ hlen
  · cases h

theorem tlv_eq_ok {tag : UInt8} (hder : EncodesMinimal toDer) (htag : tag &&& 0x1f ≠ 0x1f)
    (h : tlv toDer tag content = .ok bytes) :
    content.length < 2 ^ 32 ∧ IsMinimalElement (.low tag) content bytes := by
  unfold tlv at h
  obtain ⟨len, hlen, hbytes⟩ := Eval.bind_eq_ok.mp h
  obtain ⟨hlength, rfl⟩ := encodeLen_eq_ok hder hlen
  cases hbytes
  refine ⟨hlength, [tag], .low htag, ?_, rfl⟩
  exact (width_le_four hlength).trans (by decide)

theorem toNat_number (fourcc : Fourcc) : fourcc.number.toNat = beValue fourcc.bytes := by
  have ha := fourcc.a.toNat_lt
  have hb := fourcc.b.toNat_lt
  have hc := fourcc.c.toNat_lt
  have hd := fourcc.d.toNat_lt
  rw [Fourcc.number, UInt32.toNat_ofNat']
  apply Nat.mod_eq_of_lt
  simp only [Fourcc.bytes, beValue, List.foldl_cons, List.foldl_nil]
  omega

/-- What `build_property` does with the value of either kind. -/
theorem isKeyed_of_ok {fourcc : Fourcc} {tag : UInt8} {value name element seq len : Bytes}
    (hder : EncodesMinimal toDer) (htag : tag &&& 0x1f ≠ 0x1f)
    (hname : tlv toDer tagIa5String fourcc.bytes = .ok name)
    (helement : tlv toDer tag value = .ok element)
    (hseq : tlv toDer tagSequence (name ++ element) = .ok seq)
    (hlen : encodeLen toDer seq.length = .ok len) :
    IsKeyed distinguished fourcc tag value
      (tagPrivateHigh :: (base128 fourcc.number ++ (len ++ seq))) := by
  obtain ⟨_, hnameElement⟩ := tlv_eq_ok hder (by decide) hname
  obtain ⟨_, hvalueElement⟩ := tlv_eq_ok hder htag helement
  obtain ⟨_, hseqElement⟩ := tlv_eq_ok hder (by decide) hseq
  obtain ⟨hlength, rfl⟩ := encodeLen_eq_ok hder hlen
  refine ⟨seq, name, element, ?_, hseqElement, hnameElement, hvalueElement⟩
  have hidentifier := isIdentifier_base128 fourcc.number
  rw [toNat_number] at hidentifier
  refine ⟨tagPrivateHigh :: base128 fourcc.number, hidentifier, ?_, rfl⟩
  exact (width_le_four hlength).trans (by decide)

theorem isProperty_of_ok {property : RestoreProperty} (hder : EncodesMinimal toDer)
    (h : buildProperty toDer property = .ok bytes) : IsProperty distinguished property bytes := by
  unfold buildProperty at h
  obtain ⟨⟨fourcc, inner⟩, hinner, h⟩ := Eval.bind_eq_ok.mp h
  obtain ⟨seq, hseq, h⟩ := Eval.bind_eq_ok.mp h
  obtain ⟨len, hlen, h⟩ := Eval.bind_eq_ok.mp h
  cases h
  cases property with
  | integer fourcc value =>
    obtain ⟨name, hname, hinner⟩ := Eval.bind_eq_ok.mp hinner
    obtain ⟨element, helement, hinner⟩ := Eval.bind_eq_ok.mp hinner
    cases hinner
    exact ⟨derUint value, isKeyed_of_ok hder (by decide) hname helement hseq hlen,
      derUint_distinguished value⟩
  | octetString fourcc value =>
    obtain ⟨name, hname, hinner⟩ := Eval.bind_eq_ok.mp hinner
    obtain ⟨element, helement, hinner⟩ := Eval.bind_eq_ok.mp hinner
    cases hinner
    exact isKeyed_of_ok hder (by decide) hname helement hseq hlen

theorem areProperties_of_ok {properties : List RestoreProperty} (hder : EncodesMinimal toDer)
    (h : buildProperties toDer properties = .ok bytes) :
    AreProperties distinguished properties bytes := by
  induction properties generalizing bytes with
  | nil =>
    cases h
    rfl
  | cons property properties ih =>
    unfold buildProperties at h
    obtain ⟨first, hfirst, h⟩ := Eval.bind_eq_ok.mp h
    obtain ⟨rest, hrest, h⟩ := Eval.bind_eq_ok.mp h
    cases h
    exact ⟨first, rest, rfl, isProperty_of_ok hder hfirst, ih hrest⟩

theorem isRestoreInfo_of_ok {properties : List RestoreProperty} (hder : EncodesMinimal toDer)
    (h : buildIm4r toDer properties = .ok bytes) :
    IsRestoreInfo distinguished (some properties) bytes := by
  unfold buildIm4r at h
  obtain ⟨content, hcontent, h⟩ := Eval.bind_eq_ok.mp h
  obtain ⟨name, hname, h⟩ := Eval.bind_eq_ok.mp h
  obtain ⟨set, hset, h⟩ := Eval.bind_eq_ok.mp h
  obtain ⟨seq, hseq, h⟩ := Eval.bind_eq_ok.mp h
  exact ⟨seq, name, set, content, (tlv_eq_ok hder (by decide) h).2,
    (tlv_eq_ok hder (by decide) hseq).2, (tlv_eq_ok hder (by decide) hname).2,
    (tlv_eq_ok hder (by decide) hset).2, areProperties_of_ok hder hcontent⟩

/-- The IM4P as it goes into the container. -/
def Im4p.override (p : Im4p) : Option Fourcc → Im4p
  | some fourcc => p.withKind fourcc
  | none => p

/-- The container reads back as what went into it, and as nothing else. -/
theorem stitchComponent_parses (hder : EncodesMinimal toDer) {checks : Bool} {im4p : Im4p}
    {ticket out : Bytes} {fourccOverride : Option Fourcc} {properties : List RestoreProperty}
    (hok : stitchComponent toDer checks im4p.bytes ticket fourccOverride properties = .ok out) :
    IsImg4 distinguished
        ⟨(im4p.override fourccOverride).bytes, ticket,
          if properties = [] then none else some properties⟩ out ∧
      ∀ container, IsImg4 definite container out →
        container = ⟨(im4p.override fourccOverride).bytes, ticket,
          if properties = [] then none else some properties⟩ := by
  unfold stitchComponent at hok
  obtain ⟨patched, hpatched, hok⟩ := Eval.bind_eq_ok.mp hok
  obtain ⟨name, hname, hok⟩ := Eval.bind_eq_ok.mp hok
  obtain ⟨element, helement, hok⟩ := Eval.bind_eq_ok.mp hok
  obtain ⟨info, hinfo, hok⟩ := Eval.bind_eq_ok.mp hok
  obtain ⟨hlength, houter⟩ := tlv_eq_ok hder (by decide) hok
  have hpatchedEq : patched = (im4p.override fourccOverride).bytes := by
    cases fourccOverride with
    | none =>
      cases hpatched
      rfl
    | some fourcc =>
      have hsame := length_of_patchIm4pFourcc hpatched
      simp only [List.length_append] at hlength
      exact patchIm4pFourcc_eq (by omega) hpatched
  have hrestoreInfo : IsRestoreInfo distinguished
      (if properties = [] then none else some properties) info := by
    cases properties with
    | nil =>
      cases hinfo
      rfl
    | cons property properties => exact isRestoreInfo_of_ok hder hinfo
  rw [hpatchedEq] at houter
  have hparse : IsImg4 distinguished ⟨(im4p.override fourccOverride).bytes, ticket,
      if properties = [] then none else some properties⟩ out :=
    ⟨name, _, element, info, houter, (tlv_eq_ok hder (by decide) hname).2,
      (im4p.override fourccOverride).isElement, (tlv_eq_ok hder (by decide) helement).2,
      hrestoreInfo⟩
  refine ⟨hparse, ?_⟩
  intro container hcontainer
  exact isImg4_unique hcontainer (hparse.mono distinguished_stricter)

/-- The crate refuses a length that is no `u32`. -/
def lengthToDer (n : ℕ) : Except String Bytes :=
  if n < 2 ^ 32 then .ok (minimalLength n) else .error "integer overflow"

theorem encodesMinimal_lengthToDer : EncodesMinimal lengthToDer := by
  intro n bytes h
  unfold lengthToDer at h
  split at h
  · rename_i hlength
    cases h
    exact ⟨hlength, rfl⟩
  · cases h

/-- An `ibss` payload of three bytes, the length of the whole in long form. -/
def ibssIm4p : Im4p where
  magicLength := [0x04]
  magic := [0x49, 0x4D, 0x34, 0x50]
  typeLength := [0x04]
  kind := ⟨0x69, 0x62, 0x73, 0x73⟩
  rest := [0x04, 0x01, 0x07]
  length := [0x81, 0x0F]
  isLength_magic := rfl
  isLength_type := rfl
  isLength := by
    unfold IsLength
    decide +kernel

theorem stitchComponent_parses_ibss :
    ∃ out, stitchComponent lengthToDer true ibssIm4p.bytes [0x05, 0x00]
        (some ⟨0x69, 0x62, 0x65, 0x63⟩)
        [.integer ⟨0x73, 0x6E, 0x69, 0x64⟩ 200, .octetString ⟨0x75, 0x63, 0x6F, 0x6E⟩ [0x01]] =
          .ok out ∧
      ∀ container, IsImg4 definite container out →
        container = ⟨(ibssIm4p.withKind ⟨0x69, 0x62, 0x65, 0x63⟩).bytes, [0x05, 0x00],
          some [.integer ⟨0x73, 0x6E, 0x69, 0x64⟩ 200,
            .octetString ⟨0x75, 0x63, 0x6F, 0x6E⟩ [0x01]]⟩ := by
  have hok : stitchComponent lengthToDer true ibssIm4p.bytes [0x05, 0x00]
      (some ⟨0x69, 0x62, 0x65, 0x63⟩)
      [.integer ⟨0x73, 0x6E, 0x69, 0x64⟩ 200, .octetString ⟨0x75, 0x63, 0x6F, 0x6E⟩ [0x01]] =
        .ok [0x30, 0x4D, 0x16, 0x04, 0x49, 0x4D, 0x47, 0x34,
          0x30, 0x81, 0x0F, 0x16, 0x04, 0x49, 0x4D, 0x34, 0x50, 0x16, 0x04, 0x69, 0x62, 0x65, 0x63,
          0x04, 0x01, 0x07, 0xA0, 0x02, 0x05, 0x00, 0xA1, 0x2F, 0x30, 0x2D, 0x16, 0x04,
          0x49, 0x4D, 0x34, 0x52, 0x31, 0x25, 0xFF, 0x87, 0x9B, 0xB9, 0xD2, 0x64, 0x0C, 0x30, 0x0A,
          0x16, 0x04, 0x73, 0x6E, 0x69, 0x64, 0x02, 0x02, 0x00, 0xC8, 0xFF, 0x87, 0xAB, 0x8D, 0xDE,
          0x6E, 0x0B, 0x30, 0x09, 0x16, 0x04, 0x75, 0x63, 0x6F, 0x6E, 0x04, 0x01, 0x01] := by
    decide +kernel
  exact ⟨_, hok, (stitchComponent_parses encodesMinimal_lengthToDer hok).2⟩

end Stitching

end XitForge.Restore.Img4
