import XitForge.Leb128
import XitForge.Program
import XitForge.RustSlice

/-!
The protobuf wire format of the media negotiation: an encoder that grows a buffer, and
a decoder that steps over one. A panic stops the decoder, and so does a loop that runs
out of the rounds it is given.
-/
namespace XitForge.CoreDevice.Protobuf

open ByteStream Program RustSlice

def wireVarint : ℕ := 0

def wireLen : ℕ := 2

structure Encoder where
  buf : Bytes := []

namespace Encoder

def new : Encoder := {}

def push (e : Encoder) (bytes : Bytes) : Encoder := { e with buf := e.buf ++ bytes }

/-- The loop of `write_varint` over a `u64`. -/
def writeVarint (e : Encoder) (v : ℕ) : Encoder :=
  let byte := UInt8.ofNat (v &&& 0x7f)
  let rest := v >>> 7
  if h : rest ≠ 0 then (e.push [byte ||| 0x80]).writeVarint rest else e.push [byte]
termination_by v
decreasing_by
  rw [Nat.shiftRight_eq_div_pow]
  refine Nat.div_lt_self (Nat.pos_of_ne_zero ?_) (by decide)
  intro heq
  subst heq
  exact h rfl

/-- The tag is made in a `u32`. -/
def writeTag (e : Encoder) (field wire : ℕ) : Encoder :=
  e.writeVarint (field <<< 3 % 2 ^ 32 ||| wire)

def uintField (e : Encoder) (field v : ℕ) : Encoder := (e.writeTag field wireVarint).writeVarint v

def bytesField (e : Encoder) (field : ℕ) (v : Bytes) : Encoder :=
  ((e.writeTag field wireLen).writeVarint v.length).push v

def messageField (e : Encoder) (field : ℕ) (f : Encoder → Encoder) : Encoder :=
  e.bytesField field (f new).buf

end Encoder

structure Decoder where
  buf : Bytes
  pos : ℕ

inductive Field where
  | varint (v : ℕ)
  | len (slice : Bytes)
  deriving DecidableEq, Repr

namespace Decoder

def new (buf : Bytes) : Decoder := ⟨buf, 0⟩

def isEmpty (d : Decoder) : Bool := d.buf.length ≤ d.pos

abbrev Read := Prog Decoder Unit

variable (checks : Bool)

/-- `self.pos += n` -/
def advance (n : ℕ) : Read Unit := do
  let d ← Prog.get
  if d.pos + n < 2 ^ 64 then Prog.modify fun d => { d with pos := d.pos + n }
  else if checks then Prog.stop
  else Prog.modify fun d => { d with pos := (d.pos + n) % 2 ^ 64 }

/-- `value << shift` of a `u64`. -/
def shiftLeft (value shift : ℕ) : Read ℕ :=
  if shift < 64 then pure (value <<< shift % 2 ^ 64)
  else if checks then Prog.stop
  else pure (value <<< (shift % 64) % 2 ^ 64)

def readVarintLoop : ℕ → ℕ → ℕ → Read ℕ
  | 0, _, _ => Prog.stop
  | rounds + 1, result, shift => do
    let d ← Prog.get
    match d.buf[d.pos]? with
    | none => Prog.fail ()
    | some byte => do
      advance checks 1
      let bits ← shiftLeft checks (byte &&& 0x7f).toNat shift
      let result := result ||| bits
      if byte &&& 0x80 = 0 then pure result
      else
        let shift := shift + 7
        if 64 ≤ shift then Prog.fail () else readVarintLoop rounds result shift

/-- `read_varint`: the shift allows ten rounds. -/
def readVarint : Read ℕ := readVarintLoop checks 10 0 0

/-- `self.pos.checked_add(n)?` -/
def checkedAdd (n : ℕ) : Read ℕ := do
  let d ← Prog.get
  if d.pos + n < 2 ^ 64 then pure (d.pos + n) else Prog.fail ()

/-- A field of fixed width is stepped over. -/
def skipFixed (width : ℕ) : Read Unit := do
  let pos ← checkedAdd width
  Prog.modify fun d => { d with pos }
  let d ← Prog.get
  if d.buf.length < d.pos then Prog.fail () else pure ()

def readLen (field : ℕ) : Read (ℕ × Field) := do
  let len ← readVarint checks
  let stop ← checkedAdd len
  let d ← Prog.get
  match getRange d.buf d.pos stop with
  | none => Prog.fail ()
  | some slice => do
    Prog.modify fun d => { d with pos := stop }
    pure (field, .len slice)

/-- What `next_field` does behind the tag. It calls itself `again` behind a field of
fixed width. -/
def behindTag (again : Read (ℕ × Field)) (field wire : ℕ) : Read (ℕ × Field) :=
  if wire = wireVarint then do
    let v ← readVarint checks
    pure (field, .varint v)
  else if wire = wireLen then readLen checks field
  else if wire = 1 then do
    skipFixed 8
    again
  else if wire = 5 then do
    skipFixed 4
    again
  else Prog.fail ()

def nextFieldLoop : ℕ → Read (ℕ × Field)
  | 0 => Prog.stop
  | calls + 1 => do
    let d ← Prog.get
    if d.isEmpty then Prog.fail ()
    else do
      let tag ← readVarint checks
      behindTag checks (nextFieldLoop calls) (tag >>> 3 % 2 ^ 32) (tag &&& 7)

/-- `next_field`: every call reads a byte at least. -/
def nextField : Read (ℕ × Field) := do
  let d ← Prog.get
  nextFieldLoop checks (d.buf.length + 1)

/-- `while let Some(field) = d.next_field()`, as the callers do it. -/
def fieldsLoop : ℕ → Read (List (ℕ × Field))
  | 0 => Prog.stop
  | calls + 1 => do
    match ← Prog.attempt (nextField checks) with
    | .error () => pure []
    | .ok field => do
      let rest ← fieldsLoop calls
      pure (field :: rest)

def fields : Read (List (ℕ × Field)) := do
  let d ← Prog.get
  fieldsLoop checks (d.buf.length + 1)

end Decoder

/-- Numbers that leave room for the wire type in a tag. -/
abbrev FieldNumber := { n : ℕ // 1 ≤ n ∧ n < 2 ^ 29 }

/-- What a buffer can hold: what the encoder writes, and the fields of fixed width that
other encoders write. -/
inductive Item where
  | uint (field : FieldNumber) (v : UInt64)
  | bytes (field : FieldNumber) (v : Bytes)
  | message (field : FieldNumber) (items : List Item)
  | fixed32 (field : FieldNumber) (v : UInt32)
  | fixed64 (field : FieldNumber) (v : UInt64)

mutual

def Item.write : Item → Encoder → Encoder
  | .uint field v, e => e.uintField field v.toNat
  | .bytes field v, e => e.bytesField field v
  | .message field items, e => e.messageField field (writeAll items)
  | .fixed32 field v, e => (e.writeTag field 5).push (leBytes 4 v.toNat)
  | .fixed64 field v, e => (e.writeTag field 1).push (leBytes 8 v.toNat)

def writeAll : List Item → Encoder → Encoder
  | [], e => e
  | item :: rest, e => writeAll rest (item.write e)

end

/-- `into_bytes` of the encoder that wrote the items. -/
def encode (items : List Item) : Bytes := (writeAll items Encoder.new).buf

/-- What the decoder returns for an item; fields of fixed width are not returned. -/
def Item.visible : Item → Option (ℕ × Field)
  | .uint field v => some (field, .varint v.toNat)
  | .bytes field v => some (field, .len v)
  | .message field items => some (field, .len (encode items))
  | .fixed32 _ _ => none
  | .fixed64 _ _ => none

/-- The messages that are in a list of items, at any depth, and the list itself. -/
inductive Within : List Item → List Item → Prop
  | self (items : List Item) : Within items items
  | nested {sub items inner : List Item} {field : FieldNumber} (hmem : .message field inner ∈ items)
      (hsub : Within sub inner) : Within sub items

section Writing

namespace Encoder

@[simp] theorem buf_push (e : Encoder) (bytes : Bytes) : (e.push bytes).buf = e.buf ++ bytes := rfl

@[simp] theorem buf_writeVarint (e : Encoder) (v : ℕ) :
    (e.writeVarint v).buf = e.buf ++ Leb128.encode v := by
  induction v using Nat.strongRecOn generalizing e with
  | ind v ih =>
    have hlow : v &&& 0x7f = v % 128 := Nat.and_two_pow_sub_one_eq_mod v 7
    have hrest : v >>> 7 = v / 128 := Nat.shiftRight_eq_div_pow v 7
    rw [writeVarint, hlow, hrest]
    by_cases hlt : v < 128
    · have hzero : v / 128 = 0 := Nat.div_eq_of_lt hlt
      rw [dif_neg (not_not_intro hzero), buf_push, Nat.mod_eq_of_lt hlt, Leb128.encode_of_lt hlt]
    · have hne : v / 128 ≠ 0 := by omega
      rw [dif_pos hne, ih (v / 128) (by omega), buf_push, Leb128.or_high (by omega),
        Leb128.encode_of_le (Nat.not_lt.mp hlt), List.append_assoc]
      rfl

/-- The bytes of a tag. -/
def tag (field wire : ℕ) : Bytes := Leb128.encode (field * 8 + wire)

theorem buf_writeTag (e : Encoder) (field : FieldNumber) {wire : ℕ} (h : wire < 8) :
    (e.writeTag field wire).buf = e.buf ++ tag field wire := by
  have hshift : field.val <<< 3 % 2 ^ 32 ||| wire = field.val * 8 + wire := by
    have hlt := field.property.2
    rw [Nat.shiftLeft_eq, Nat.mod_eq_of_lt (by omega), Nat.mul_comm,
      ← Nat.two_pow_add_eq_or_of_lt h]
  rw [writeTag, hshift, buf_writeVarint, tag]

end Encoder

/-- The bytes of a single item. -/
def Item.encoded : Item → Bytes
  | .uint field v => Encoder.tag field wireVarint ++ Leb128.encode v.toNat
  | .bytes field v => Encoder.tag field wireLen ++ Leb128.encode v.length ++ v
  | .message field items =>
    Encoder.tag field wireLen ++ Leb128.encode (encode items).length ++ encode items
  | .fixed32 field v => Encoder.tag field 5 ++ leBytes 4 v.toNat
  | .fixed64 field v => Encoder.tag field 1 ++ leBytes 8 v.toNat

theorem Item.buf_write (item : Item) (e : Encoder) :
    (item.write e).buf = e.buf ++ item.encoded := by
  have hvarint : wireVarint < 8 := by decide
  have hlen : wireLen < 8 := by decide
  cases item with
  | uint field v =>
    rw [Item.write, Encoder.uintField, Encoder.buf_writeVarint,
      Encoder.buf_writeTag e field hvarint, List.append_assoc]
    rfl
  | bytes field v =>
    rw [Item.write, Encoder.bytesField, Encoder.buf_push, Encoder.buf_writeVarint,
      Encoder.buf_writeTag e field hlen, List.append_assoc, List.append_assoc, Item.encoded,
      List.append_assoc]
  | message field items =>
    rw [Item.write, Encoder.messageField, Encoder.bytesField, Encoder.buf_push,
      Encoder.buf_writeVarint, Encoder.buf_writeTag e field hlen, List.append_assoc,
      List.append_assoc, Item.encoded, List.append_assoc]
    rfl
  | fixed32 field v =>
    rw [Item.write, Encoder.buf_push, Encoder.buf_writeTag e field (by decide), List.append_assoc]
    rfl
  | fixed64 field v =>
    rw [Item.write, Encoder.buf_push, Encoder.buf_writeTag e field (by decide), List.append_assoc]
    rfl

theorem buf_writeAll (items : List Item) (e : Encoder) :
    (writeAll items e).buf = e.buf ++ items.flatMap Item.encoded := by
  induction items generalizing e with
  | nil => simp [writeAll]
  | cons item rest ih => rw [writeAll, ih, item.buf_write, List.append_assoc, List.flatMap_cons]

theorem encode_eq (items : List Item) : encode items = items.flatMap Item.encoded := by
  rw [encode, buf_writeAll]
  rfl

theorem encode_cons (item : Item) (rest : List Item) :
    encode (item :: rest) = item.encoded ++ encode rest := by
  rw [encode_eq, encode_eq, List.flatMap_cons]

end Writing

theorem Item.length_encoded_pos (item : Item) : 0 < item.encoded.length := by
  have htag (field wire : ℕ) : 0 < (Encoder.tag field wire).length := Leb128.length_encode_pos _
  cases item <;> simp [Item.encoded, htag]

theorem length_le_encode (items : List Item) : items.length ≤ (encode items).length := by
  induction items with
  | nil => exact Nat.zero_le _
  | cons item rest ih =>
    have hpos := item.length_encoded_pos
    rw [encode_cons, List.length_append, List.length_cons]
    omega

section Steps

namespace Decoder

variable {checks : Bool} {d : Decoder}

theorem advance_eq {n : ℕ} (h : d.pos + n < 2 ^ 64) :
    advance checks n d = (.done (), ⟨d.buf, d.pos + n⟩) := by
  unfold advance
  rw [Prog.bind_done (rfl : Prog.get d = (.done d, d)), if_pos h]
  rfl

theorem shiftLeft_eq {shift : ℕ} (h : shift < 64) (value : ℕ) :
    shiftLeft checks value shift d = (.done (value <<< shift % 2 ^ 64), d) := by
  unfold shiftLeft
  rw [if_pos h]
  rfl

theorem checkedAdd_eq {n : ℕ} (h : d.pos + n < 2 ^ 64) :
    checkedAdd n d = (.done (d.pos + n), d) := by
  unfold checkedAdd
  rw [Prog.bind_done (rfl : Prog.get d = (.done d, d)), if_pos h]
  rfl

theorem checkedAdd_none {n : ℕ} (h : ¬ d.pos + n < 2 ^ 64) : checkedAdd n d = (.failed (), d) := by
  unfold checkedAdd
  rw [Prog.bind_done (rfl : Prog.get d = (.done d, d)), if_neg h]
  rfl

/-- A round that finds a byte. -/
theorem readVarintLoop_byte {rounds result shift : ℕ} {byte : UInt8}
    (hbyte : d.buf[d.pos]? = some byte) (hpos : d.pos + 1 < 2 ^ 64) (hshift : shift < 64) :
    readVarintLoop checks (rounds + 1) result shift d =
      (if byte.toNat < 128 then
        pure (result ||| (byte.toNat % 128) <<< shift % 2 ^ 64)
      else if 64 ≤ shift + 7 then Prog.fail ()
      else readVarintLoop checks rounds (result ||| (byte.toNat % 128) <<< shift % 2 ^ 64)
        (shift + 7)) ⟨d.buf, d.pos + 1⟩ := by
  rw [readVarintLoop, Prog.bind_done (rfl : Prog.get d = (.done d, d))]
  simp only [hbyte]
  rw [Prog.bind_done (advance_eq hpos), Prog.bind_done (shiftLeft_eq hshift _),
    Leb128.toNat_and_low]
  simp only [Leb128.and_high_eq_zero]

theorem readVarintLoop_end {rounds result shift : ℕ} (h : d.buf[d.pos]? = none) :
    readVarintLoop checks (rounds + 1) result shift d = (.failed (), d) := by
  rw [readVarintLoop, Prog.bind_done (rfl : Prog.get d = (.done d, d))]
  simp only [h]
  rfl

/-- The bytes of a number are read, whatever bits were there before. -/
theorem readVarintLoop_encode {rounds v result shift : ℕ} (front rest : Bytes)
    (hresult : result < 2 ^ shift) (hv : v * 2 ^ shift < 2 ^ 64) (hshift : shift < 64)
    (hrounds : 64 ≤ rounds * 7 + shift)
    (hlen : front.length + (Leb128.encode v).length < 2 ^ 64) :
    readVarintLoop checks rounds result shift
        ⟨front ++ (Leb128.encode v ++ rest), front.length⟩ =
      (.done (result + v * 2 ^ shift), ⟨front ++ (Leb128.encode v ++ rest),
        front.length + (Leb128.encode v).length⟩) := by
  induction rounds generalizing v result shift front with
  | zero => omega
  | succ rounds ih =>
    by_cases hlt : v < 128
    · have hbyte : (UInt8.ofNat v).toNat = v := by
        rw [UInt8.toNat_ofNat']
        omega
      rw [Leb128.encode_of_lt hlt] at hlen ⊢
      have hget : (front ++ ([UInt8.ofNat v] ++ rest))[front.length]? = some (UInt8.ofNat v) := by
        simp
      rw [readVarintLoop_byte hget hlen hshift, hbyte, if_pos hlt, Nat.mod_eq_of_lt hlt,
        Leb128.or_shiftLeft hresult hv]
      rfl
    · have hbyte : (UInt8.ofNat (v % 128 + 128)).toNat = v % 128 + 128 := by
        rw [UInt8.toNat_ofNat']
        omega
      have hgroup : v % 128 * 2 ^ shift < 2 ^ 64 :=
        Nat.lt_of_le_of_lt (Nat.mul_le_mul_right _ (Nat.mod_le v 128)) hv
      have hnext : shift + 7 < 64 := Leb128.next_lt_width (Nat.not_lt.mp hlt) hv
      have hsum := Leb128.low_add_high v shift
      have hresult' := Leb128.add_low_lt hresult v
      rw [Leb128.encode_of_le (Nat.not_lt.mp hlt)] at hlen ⊢
      rw [List.length_cons] at hlen
      have hmove (bytes : Bytes) : front ++ (UInt8.ofNat (v % 128 + 128) :: bytes ++ rest) =
          (front ++ [UInt8.ofNat (v % 128 + 128)]) ++ (bytes ++ rest) := by simp
      have hget : (front ++ (UInt8.ofNat (v % 128 + 128) :: Leb128.encode (v / 128) ++
          rest))[front.length]? = some (UInt8.ofNat (v % 128 + 128)) := by simp
      have htail := ih (v := v / 128) (front ++ [UInt8.ofNat (v % 128 + 128)]) hresult'
        (by omega) hnext (by omega) (by rw [List.length_append, List.length_singleton]; omega)
      rw [List.length_append, List.length_singleton, ← hmove] at htail
      rw [readVarintLoop_byte hget (by dsimp only; omega) hshift, hbyte, if_neg (by omega),
        if_neg (by omega)]
      have hlow : (v % 128 + 128) % 128 = v % 128 := by omega
      rw [hlow, Leb128.or_shiftLeft hresult hgroup, htail, Nat.add_assoc, hsum, List.length_cons,
        Nat.add_assoc, Nat.add_comm 1]

theorem readVarint_encode {v : ℕ} (front rest : Bytes) (hv : v < 2 ^ 64)
    (hlen : front.length + (Leb128.encode v).length < 2 ^ 64) :
    readVarint checks ⟨front ++ (Leb128.encode v ++ rest), front.length⟩ =
      (.done v, ⟨front ++ (Leb128.encode v ++ rest),
        front.length + (Leb128.encode v).length⟩) := by
  have hread : readVarintLoop checks 10 0 0 ⟨front ++ (Leb128.encode v ++ rest), front.length⟩ =
      (.done (0 + v * 2 ^ 0), _) :=
    readVarintLoop_encode front rest (by decide) (by omega) (by decide) (by decide) hlen
  rw [Nat.zero_add, pow_zero, Nat.mul_one] at hread
  exact hread

/-- A tag is the field number over the wire type. -/
theorem tag_shiftRight (field : FieldNumber) {wire : ℕ} (h : wire < 8) :
    (field.val * 8 + wire) >>> 3 % 2 ^ 32 = field := by
  have hlt := field.property.2
  have hdiv : (field.val * 8 + wire) >>> 3 = (field.val * 8 + wire) / 8 :=
    Nat.shiftRight_eq_div_pow _ 3
  rw [hdiv]
  omega

theorem tag_and (field : ℕ) {wire : ℕ} (h : wire < 8) : (field * 8 + wire) &&& 7 = wire := by
  have hand : (field * 8 + wire) &&& 7 = (field * 8 + wire) % 8 :=
    Nat.and_two_pow_sub_one_eq_mod _ 3
  rw [hand]
  omega

theorem nextFieldLoop_tag {calls wire : ℕ} (field : FieldNumber) (front rest : Bytes)
    (hwire : wire < 8) (hlen : front.length + (Encoder.tag field wire).length < 2 ^ 64) :
    nextFieldLoop checks (calls + 1) ⟨front ++ (Encoder.tag field wire ++ rest), front.length⟩ =
      behindTag checks (nextFieldLoop checks calls) field wire
        ⟨front ++ (Encoder.tag field wire ++ rest),
          front.length + (Encoder.tag field wire).length⟩ := by
  have hlt := field.property.2
  have hpos : 0 < (Encoder.tag field wire).length := Leb128.length_encode_pos _
  have hnonempty : ¬ (⟨front ++ (Encoder.tag field wire ++ rest), front.length⟩ :
      Decoder).isEmpty = true := by
    unfold isEmpty
    simp only [List.length_append, decide_eq_true_eq]
    omega
  have hread : readVarint checks ⟨front ++ (Encoder.tag field wire ++ rest), front.length⟩ =
      (.done (field.val * 8 + wire), ⟨front ++ (Encoder.tag field wire ++ rest),
        front.length + (Encoder.tag field wire).length⟩) :=
    readVarint_encode front rest (by omega) hlen
  rw [nextFieldLoop, Prog.bind_done (m := Prog.get) rfl, if_neg hnonempty, Prog.bind_done hread,
    tag_shiftRight field hwire, tag_and field hwire]

theorem skipFixed_eq {width : ℕ} (hle : d.pos + width ≤ d.buf.length)
    (hlen : d.buf.length < 2 ^ 64) :
    skipFixed width d = (.done (), ⟨d.buf, d.pos + width⟩) := by
  unfold skipFixed
  rw [Prog.bind_done (checkedAdd_eq (by omega)), Prog.bind_done (m := Prog.modify _) rfl,
    Prog.bind_done (m := Prog.get) rfl, if_neg (Nat.not_lt.mpr hle)]
  rfl

theorem readLen_eq (field : ℕ) (front v rest : Bytes)
    (hlen : front.length + (Leb128.encode v.length).length + v.length < 2 ^ 64) :
    readLen checks field ⟨front ++ (Leb128.encode v.length ++ (v ++ rest)), front.length⟩ =
      (.done (field, .len v), ⟨front ++ (Leb128.encode v.length ++ (v ++ rest)),
        front.length + (Leb128.encode v.length).length + v.length⟩) := by
  have hread : readVarint checks ⟨front ++ (Leb128.encode v.length ++ (v ++ rest)), front.length⟩ =
      (.done v.length, _) := readVarint_encode front (v ++ rest) (by omega) (by omega)
  have hslice : getRange (front ++ (Leb128.encode v.length ++ (v ++ rest)))
      (front.length + (Leb128.encode v.length).length)
      (front.length + (Leb128.encode v.length).length + v.length) = some v := by
    have hget := getRange_append (front ++ Leb128.encode v.length) v rest
    rw [List.length_append] at hget
    simpa only [List.append_assoc] using hget
  unfold readLen
  rw [Prog.bind_done hread, Prog.bind_done (checkedAdd_eq hlen), Prog.bind_done (m := Prog.get) rfl]
  dsimp only
  rw [hslice]
  rfl

/-- The reader behind a piece. -/
theorem behind_piece (front piece rest : Bytes) :
    (⟨front ++ (piece ++ rest), front.length + piece.length⟩ : Decoder) =
      ⟨(front ++ piece) ++ rest, (front ++ piece).length⟩ := by
  rw [List.append_assoc, List.length_append]

theorem behindTag_len {again : Read (ℕ × Field)} (field : ℕ) (front v rest : Bytes)
    (hlen : front.length + (Leb128.encode v.length).length + v.length < 2 ^ 64) :
    behindTag checks again field wireLen
        ⟨front ++ (Leb128.encode v.length ++ (v ++ rest)), front.length⟩ =
      (.done (field, .len v), ⟨front ++ (Leb128.encode v.length ++ (v ++ rest)),
        front.length + (Leb128.encode v.length).length + v.length⟩) := by
  unfold behindTag
  rw [if_neg (by decide), if_pos rfl, readLen_eq field front v rest hlen]

theorem behindTag_varint {again : Read (ℕ × Field)} {v : ℕ} (field : ℕ) (front rest : Bytes)
    (hv : v < 2 ^ 64) (hlen : front.length + (Leb128.encode v).length < 2 ^ 64) :
    behindTag checks again field wireVarint
        ⟨front ++ (Leb128.encode v ++ rest), front.length⟩ =
      (.done (field, .varint v), ⟨front ++ (Leb128.encode v ++ rest),
        front.length + (Leb128.encode v).length⟩) := by
  unfold behindTag
  rw [if_pos rfl, Prog.bind_done (readVarint_encode front rest hv hlen)]
  rfl

theorem behindTag_fixed {again : Read (ℕ × Field)} {wire width : ℕ}
    (hwire : wire = 1 ∧ width = 8 ∨ wire = 5 ∧ width = 4) (field : ℕ)
    (hle : d.pos + width ≤ d.buf.length) (hlen : d.buf.length < 2 ^ 64) :
    behindTag checks again field wire d = again ⟨d.buf, d.pos + width⟩ := by
  unfold behindTag
  rcases hwire with ⟨rfl, rfl⟩ | ⟨rfl, rfl⟩
  · rw [if_neg (by decide), if_neg (by decide), if_pos rfl, Prog.bind_done (skipFixed_eq hle hlen)]
  · rw [if_neg (by decide), if_neg (by decide), if_neg (by decide), if_pos rfl,
      Prog.bind_done (skipFixed_eq hle hlen)]

/-- The bytes of an item are read, or stepped over. -/
theorem nextFieldLoop_item {calls : ℕ} (item : Item) (front rest : Bytes)
    (hlen : (front ++ (item.encoded ++ rest)).length < 2 ^ 64) :
    nextFieldLoop checks (calls + 1) ⟨front ++ (item.encoded ++ rest), front.length⟩ =
      (match item.visible with
        | some field => pure field
        | none => nextFieldLoop checks calls)
        ⟨front ++ (item.encoded ++ rest), front.length + item.encoded.length⟩ := by
  have htotal := hlen
  simp only [List.length_append] at htotal
  cases item with
  | uint field v =>
    have hv : v.toNat < 2 ^ 64 := v.toNat_lt
    simp only [Item.encoded, List.append_assoc, List.length_append] at htotal ⊢
    rw [nextFieldLoop_tag field front _ (by decide) (by omega), behind_piece,
      behindTag_varint field _ rest hv (by rw [List.length_append]; omega)]
    simp only [List.append_assoc, List.length_append, Nat.add_assoc]
    rfl
  | bytes field v =>
    simp only [Item.encoded, List.append_assoc, List.length_append] at htotal ⊢
    rw [nextFieldLoop_tag field front _ (by decide) (by omega), behind_piece,
      behindTag_len field _ v rest (by rw [List.length_append]; omega)]
    simp only [List.append_assoc, List.length_append, Nat.add_assoc]
    rfl
  | message field items =>
    simp only [Item.encoded, List.append_assoc, List.length_append] at htotal ⊢
    rw [nextFieldLoop_tag field front _ (by decide) (by omega), behind_piece,
      behindTag_len field _ (encode items) rest (by rw [List.length_append]; omega)]
    simp only [List.append_assoc, List.length_append, Nat.add_assoc]
    rfl
  | fixed32 field v =>
    simp only [Item.encoded, List.append_assoc, List.length_append, length_leBytes] at htotal ⊢
    rw [nextFieldLoop_tag field front _ (by decide) (by omega),
      behindTag_fixed (.inr ⟨rfl, rfl⟩) field (by simp; omega) (by simp; omega), Nat.add_assoc]
    rfl
  | fixed64 field v =>
    simp only [Item.encoded, List.append_assoc, List.length_append, length_leBytes] at htotal ⊢
    rw [nextFieldLoop_tag field front _ (by decide) (by omega),
      behindTag_fixed (.inl ⟨rfl, rfl⟩) field (by simp; omega) (by simp; omega), Nat.add_assoc]
    rfl

end Decoder

end Steps

section Runs

namespace Decoder

variable {checks : Bool}

/-- The first item that is returned, and the items behind it. -/
def nextVisible : List Item → Option ((ℕ × Field) × List Item)
  | [] => none
  | item :: rest =>
    match item.visible with
    | some field => some (field, rest)
    | none => nextVisible rest

theorem nextFieldLoop_items {calls : ℕ} (items : List Item) (front : Bytes)
    (hcalls : items.length < calls) (hlen : (front ++ encode items).length < 2 ^ 64) :
    nextFieldLoop checks calls ⟨front ++ encode items, front.length⟩ =
      match nextVisible items with
      | some (field, rest) => (.done field, ⟨front ++ encode items,
          (front ++ encode items).length - (encode rest).length⟩)
      | none => (.failed (), ⟨front ++ encode items, (front ++ encode items).length⟩) := by
  induction items generalizing calls front with
  | nil =>
    obtain ⟨calls, rfl⟩ := Nat.exists_eq_add_of_lt hcalls
    have hnil : encode [] = [] := encode_eq []
    have hempty : (⟨front ++ encode [], front.length⟩ : Decoder).isEmpty = true := by
      simp [isEmpty, hnil]
    rw [nextFieldLoop, Prog.bind_done (m := Prog.get) rfl, if_pos hempty, hnil, List.append_nil]
    rfl
  | cons item rest ih =>
    obtain ⟨calls, rfl⟩ : ∃ n, calls = n + 1 := ⟨calls - 1, by
      rw [List.length_cons] at hcalls
      omega⟩
    rw [List.length_cons] at hcalls
    rw [encode_cons] at hlen ⊢
    rw [nextFieldLoop_item item front (encode rest) hlen]
    unfold nextVisible
    cases hvisible : item.visible with
    | some field =>
      have hpos : front.length + item.encoded.length =
          (front ++ (item.encoded ++ encode rest)).length - (encode rest).length := by
        simp only [List.length_append]
        omega
      rw [hpos]
      rfl
    | none =>
      dsimp only
      rw [behind_piece,
        ih (front ++ item.encoded) (by omega) (by rw [List.append_assoc]; exact hlen),
        List.append_assoc]

/-- `next_field` at the start of items. -/
theorem nextField_items (items : List Item) (front : Bytes)
    (hlen : (front ++ encode items).length < 2 ^ 64) :
    nextField checks ⟨front ++ encode items, front.length⟩ =
      match nextVisible items with
      | some (field, rest) => (.done field, ⟨front ++ encode items,
          (front ++ encode items).length - (encode rest).length⟩)
      | none => (.failed (), ⟨front ++ encode items, (front ++ encode items).length⟩) := by
  have hcalls : items.length < (front ++ encode items).length + 1 := by
    have hle := length_le_encode items
    rw [List.length_append]
    omega
  rw [nextField, Prog.bind_done (m := Prog.get) rfl]
  exact nextFieldLoop_items items front hcalls hlen

theorem fieldsLoop_done {calls : ℕ} {d d' : Decoder} {field : ℕ × Field}
    {rest : List (ℕ × Field)} {last : Decoder} (h : nextField checks d = (.done field, d'))
    (hrest : fieldsLoop checks calls d' = (.done rest, last)) :
    fieldsLoop checks (calls + 1) d = (.done (field :: rest), last) := by
  have hattempt : Prog.attempt (nextField checks) d =
      ((.done (.ok field) : Outcome Unit (Except Unit (ℕ × Field))), d') := by
    unfold Prog.attempt
    rw [h]
  rw [fieldsLoop, Prog.bind_done hattempt]
  dsimp only
  rw [Prog.bind_done hrest]
  rfl

theorem fieldsLoop_failed {calls : ℕ} {d d' : Decoder} (h : nextField checks d = (.failed (), d')) :
    fieldsLoop checks (calls + 1) d = (.done [], d') := by
  have hattempt : Prog.attempt (nextField checks) d =
      ((.done (.error ()) : Outcome Unit (Except Unit (ℕ × Field))), d') := by
    unfold Prog.attempt
    rw [h]
  rw [fieldsLoop, Prog.bind_done hattempt]
  rfl

/-- The loop sees of a decoder only what the next field is. -/
theorem fieldsLoop_congr {calls : ℕ} {d d' : Decoder}
    (h : nextField checks d = nextField checks d') :
    fieldsLoop checks (calls + 1) d = fieldsLoop checks (calls + 1) d' := by
  have hattempt : Prog.attempt (nextField checks) d = Prog.attempt (nextField checks) d' := by
    unfold Prog.attempt
    rw [h]
  rw [fieldsLoop]
  show Prog.bind _ _ d = Prog.bind _ _ d'
  unfold Prog.bind
  rw [hattempt]

/-- The loop over the fields of a buffer, from the start of items on. -/
theorem fieldsLoop_items {calls : ℕ} (items : List Item) (front : Bytes)
    (hcalls : items.length < calls) (hlen : (front ++ encode items).length < 2 ^ 64) :
    fieldsLoop checks calls ⟨front ++ encode items, front.length⟩ =
      (.done (items.filterMap Item.visible),
        ⟨front ++ encode items, (front ++ encode items).length⟩) := by
  induction items generalizing calls front with
  | nil =>
    obtain ⟨calls, rfl⟩ := Nat.exists_eq_add_of_lt hcalls
    exact fieldsLoop_failed (nextField_items [] front hlen)
  | cons item rest ih =>
    obtain ⟨calls, rfl⟩ : ∃ n, calls = n + 1 := ⟨calls - 1, by
      rw [List.length_cons] at hcalls
      omega⟩
    rw [List.length_cons] at hcalls
    have hfirst : nextField checks ⟨front ++ encode (item :: rest), front.length⟩ = _ :=
      nextField_items (item :: rest) front hlen
    have hmove : front ++ encode (item :: rest) = front ++ item.encoded ++ encode rest := by
      rw [encode_cons, List.append_assoc]
    have hlen' := hlen
    rw [hmove] at hlen'
    unfold nextVisible at hfirst
    cases hvisible : item.visible with
    | some field =>
      rw [hvisible] at hfirst
      dsimp only at hfirst
      have hpos : (front ++ encode (item :: rest)).length - (encode rest).length =
          (front ++ item.encoded).length := by
        rw [hmove, List.length_append]
        omega
      rw [hpos] at hfirst
      rw [List.filterMap_cons_some hvisible]
      refine fieldsLoop_done hfirst ?_
      rw [hmove]
      exact ih (front ++ item.encoded) (by omega) hlen'
    | none =>
      rw [hvisible] at hfirst
      dsimp only at hfirst
      have hsecond : nextField checks ⟨front ++ item.encoded ++ encode rest,
          (front ++ item.encoded).length⟩ = _ := nextField_items rest (front ++ item.encoded) hlen'
      rw [← hmove] at hsecond
      rw [List.filterMap_cons_none hvisible, fieldsLoop_congr (hfirst.trans hsecond.symm), hmove]
      exact ih (front ++ item.encoded) (by omega) hlen'

end Decoder

end Runs

section ArbitraryBytes

namespace Decoder

variable {checks : Bool} {buf : Bytes} {low : ℕ}

/-- The decoder stands in the buffer at an offset or behind it. -/
def At (buf : Bytes) (low : ℕ) (d : Decoder) : Prop := d.buf = buf ∧ low ≤ d.pos

/-- No run of a reader panics or lasts for ever, and one that returns something stands at
an offset or behind it. -/
abbrev Reads {α : Type} (buf : Bytes) (low : ℕ) (m : Read α) (high : ℕ) : Prop :=
  Triple (At buf low) m (fun _ => At buf high) (fun _ d => d.buf = buf) fun _ => False

theorem readVarintLoop_reads (hlen : buf.length < 2 ^ 64) {rounds shift : ℕ} (result : ℕ)
    (hshift : shift < 64) (hrounds : 64 ≤ rounds * 7 + shift) :
    Reads buf low (readVarintLoop checks rounds result shift) (low + 1) := by
  induction rounds generalizing low result shift with
  | zero => omega
  | succ rounds ih =>
    intro d hgiven
    obtain ⟨hbuf, hlow⟩ := hgiven
    cases hbyte : d.buf[d.pos]? with
    | none =>
      rw [readVarintLoop_end hbyte]
      exact hbuf
    | some byte =>
      have hpos : d.pos < d.buf.length := (List.getElem?_eq_some_iff.mp hbyte).1
      rw [hbuf] at hpos
      rw [readVarintLoop_byte hbyte (by omega) hshift]
      split
      · exact ⟨hbuf, Nat.add_le_add_right hlow 1⟩
      · split
        · exact hbuf
        · have hrest : Reads buf (low + 1) (readVarintLoop checks rounds
              (result ||| (byte.toNat % 128) <<< shift % 2 ^ 64) (shift + 7)) (low + 1 + 1) :=
            ih _ (by omega) (by omega)
          exact (hrest ⟨d.buf, d.pos + 1⟩ ⟨hbuf, Nat.add_le_add_right hlow 1⟩).mono
            (fun _ d' h => ⟨h.1, Nat.le_of_succ_le h.2⟩) (fun _ _ => id) fun _ => id

theorem readVarint_reads (hlen : buf.length < 2 ^ 64) :
    Reads buf low (readVarint checks) (low + 1) :=
  readVarintLoop_reads hlen 0 (by decide) (by decide)

theorem skipFixed_reads (width : ℕ) : Reads buf low (skipFixed width) low := by
  intro d h
  obtain ⟨hbuf, hlow⟩ := h
  unfold skipFixed
  by_cases hsum : d.pos + width < 2 ^ 64
  · rw [Prog.bind_done (checkedAdd_eq hsum), Prog.bind_done (m := Prog.modify _) rfl,
      Prog.bind_done (m := Prog.get) rfl]
    split
    · exact hbuf
    · exact ⟨hbuf, Nat.le_trans hlow (Nat.le_add_right _ _)⟩
  · rw [Prog.bind_failed (checkedAdd_none hsum)]
    exact hbuf

theorem readLen_reads (hlen : buf.length < 2 ^ 64) (field : ℕ) :
    Reads buf low (readLen checks field) (low + 1) := by
  refine Triple.bind (readVarint_reads hlen) fun len => ?_
  intro d h
  obtain ⟨hbuf, hlow⟩ := h
  by_cases hsum : d.pos + len < 2 ^ 64
  · rw [Prog.bind_done (checkedAdd_eq hsum), Prog.bind_done (m := Prog.get) rfl]
    cases hslice : getRange d.buf d.pos (d.pos + len) with
    | none => exact hbuf
    | some slice => exact ⟨hbuf, Nat.le_trans hlow (Nat.le_add_right _ _)⟩
  · rw [Prog.bind_failed (checkedAdd_none hsum)]
    exact hbuf

theorem behindTag_reads (hlen : buf.length < 2 ^ 64) {again : Read (ℕ × Field)}
    (hagain : Reads buf low again low) (field wire : ℕ) :
    Reads buf low (behindTag checks again field wire) low := by
  have hweaken {α : Type} {m : Read α} (h : Reads buf low m (low + 1)) : Reads buf low m low :=
    h.post fun _ d hd => ⟨hd.1, Nat.le_of_succ_le hd.2⟩
  unfold behindTag
  refine Triple.ite (fun _ => ?_) fun _ => Triple.ite (fun _ => ?_) fun _ =>
    Triple.ite (fun _ => ?_) fun _ => Triple.ite (fun _ => ?_) fun _ => ?_
  · exact Triple.bind (hweaken (readVarint_reads hlen)) fun _ => Triple.pure fun _ => id
  · exact hweaken (readLen_reads hlen field)
  · exact Triple.bind (skipFixed_reads 8) fun _ => hagain
  · exact Triple.bind (skipFixed_reads 4) fun _ => hagain
  · exact Triple.fail fun _ h => h.1

/-- Every call of `next_field` reads a byte, so the bytes left bound the calls. -/
theorem nextFieldLoop_reads (hlen : buf.length < 2 ^ 64) {calls : ℕ}
    (hcalls : buf.length - low < calls) :
    Reads buf low (nextFieldLoop checks calls) (low + 1) := by
  induction calls generalizing low with
  | zero => omega
  | succ calls ih =>
    intro d hgiven
    obtain ⟨hbuf, hlow⟩ := hgiven
    rw [nextFieldLoop, Prog.bind_done (m := Prog.get) rfl]
    by_cases hempty : d.isEmpty = true
    · rw [if_pos hempty]
      exact hbuf
    · have hpos : ¬ buf.length ≤ d.pos := by simpa [isEmpty, hbuf] using hempty
      have hagain : Reads buf (low + 1) (nextFieldLoop checks calls) (low + 1) :=
        (ih (by omega)).post fun _ d' h => ⟨h.1, Nat.le_of_succ_le h.2⟩
      have hbehind : Reads buf low (readVarint checks >>= fun tag =>
          behindTag checks (nextFieldLoop checks calls) (tag >>> 3 % 2 ^ 32) (tag &&& 7))
        (low + 1) :=
        Triple.bind (readVarint_reads hlen) fun tag => behindTag_reads hlen hagain _ _
      rw [if_neg hempty]
      exact hbehind d ⟨hbuf, hlow⟩

theorem nextField_reads (hlen : buf.length < 2 ^ 64) :
    Reads buf low (nextField checks) (low + 1) := by
  rintro d hd
  have hbuf : d.buf = buf := hd.1
  rw [nextField, Prog.bind_done (m := Prog.get) rfl, hbuf]
  exact nextFieldLoop_reads hlen (by omega) d hd

theorem nextField_end {d : Decoder} (h : d.buf.length ≤ d.pos) :
    nextField checks d = (.failed (), d) := by
  have hempty : d.isEmpty = true := decide_eq_true h
  rw [nextField, Prog.bind_done (m := Prog.get) rfl, nextFieldLoop,
    Prog.bind_done (m := Prog.get) rfl, if_pos hempty]
  rfl

theorem fieldsLoop_reads (hlen : buf.length < 2 ^ 64) {calls : ℕ}
    (hcalls : buf.length - low < calls) :
    Triple (At buf low) (fieldsLoop checks calls) (fun _ d => d.buf = buf) (fun _ _ => False)
      fun _ => False := by
  induction calls generalizing low with
  | zero => omega
  | succ calls ih =>
    intro d h
    obtain ⟨hbuf, hlow⟩ := h
    by_cases hend : d.buf.length ≤ d.pos
    · rw [fieldsLoop_failed (nextField_end hend)]
      exact hbuf
    · rw [hbuf] at hend
      have hrest : Triple (At buf (low + 1)) (fieldsLoop checks calls) (fun _ d => d.buf = buf)
          (fun _ _ => False) fun _ => False := ih (by omega)
      have hnext : Ends _ _ _ (nextField checks d) := nextField_reads hlen d ⟨hbuf, hlow⟩
      rcases hresult : nextField checks d with ⟨outcome, d'⟩
      rw [hresult] at hnext
      cases outcome with
      | done field =>
        have hd' := hrest d' hnext
        rcases hloop : fieldsLoop checks calls d' with ⟨outcome, last⟩
        rw [hloop] at hd'
        cases outcome with
        | done rest =>
          rw [fieldsLoop_done hresult hloop]
          exact hd'
        | failed => exact False.elim hd'
        | stopped => exact False.elim hd'
      | failed =>
        rw [fieldsLoop_failed hresult]
        exact hnext
      | stopped => exact False.elim hnext

/-- On any bytes `next_field` ends without a panic. -/
theorem nextField_ne_stopped {d : Decoder} (hlen : d.buf.length < 2 ^ 64) :
    (nextField checks d).1 ≠ .stopped := by
  intro h
  have hnext : Ends _ _ _ (nextField checks d) := nextField_reads hlen d ⟨rfl, Nat.zero_le d.pos⟩
  rcases hresult : nextField checks d with ⟨outcome, d'⟩
  rw [hresult] at h hnext
  cases h
  exact hnext

/-- And so does the loop over the fields. -/
theorem exists_fields {d : Decoder} (hlen : d.buf.length < 2 ^ 64) :
    ∃ found last, fields checks d = (.done found, last) := by
  have hloop : Ends _ _ _ (fieldsLoop checks (d.buf.length + 1) d) :=
    fieldsLoop_reads hlen (Nat.lt_succ_of_le (Nat.sub_le _ _)) d ⟨rfl, Nat.zero_le d.pos⟩
  rw [fields, Prog.bind_done (m := Prog.get) rfl]
  rcases hresult : fieldsLoop checks (d.buf.length + 1) d with ⟨outcome, last⟩
  rw [hresult] at hloop
  cases outcome with
  | done found => exact ⟨found, last, rfl⟩
  | failed => exact False.elim hloop
  | stopped => exact False.elim hloop

end Decoder

end ArbitraryBytes

theorem Within.length_le {sub items : List Item} (h : Within sub items) :
    (encode sub).length ≤ (encode items).length := by
  induction h with
  | self => exact Nat.le_refl _
  | @nested items inner field hmem hsub ih =>
    obtain ⟨front, rest, rfl⟩ := List.append_of_mem hmem
    have hsplit : encode (front ++ .message field inner :: rest) =
        encode front ++ (Encoder.tag field wireLen ++ Leb128.encode (encode inner).length ++
          encode inner) ++ encode rest := by
      simp only [encode_eq, List.flatMap_append, List.flatMap_cons, List.append_assoc, Item.encoded]
    rw [hsplit]
    simp only [List.length_append]
    omega

/-- What the encoder wrote is what the decoder returns, in every message of it, and on
any bytes the decoder ends. -/
theorem fields_encode (checks : Bool) :
    (∀ items : List Item, (encode items).length < 2 ^ 64 → ∀ sub, Within sub items →
      Decoder.fields checks (Decoder.new (encode sub)) =
        (.done (sub.filterMap Item.visible), ⟨encode sub, (encode sub).length⟩)) ∧
      ∀ d : Decoder, d.buf.length < 2 ^ 64 → (Decoder.nextField checks d).1 ≠ .stopped ∧
        ∃ found last, Decoder.fields checks d = (.done found, last) := by
  constructor
  · intro items hlen sub hsub
    have hsublen : (encode sub).length < 2 ^ 64 := Nat.lt_of_le_of_lt hsub.length_le hlen
    rw [Decoder.fields, Prog.bind_done (m := Prog.get) rfl]
    exact Decoder.fieldsLoop_items sub [] (Nat.lt_succ_of_le (length_le_encode sub)) hsublen
  · intro d hlen
    exact ⟨Decoder.nextField_ne_stopped hlen, Decoder.exists_fields hlen⟩

theorem fields_encode_nested :
    (∃ last, Decoder.fields true (Decoder.new (encode
        [.fixed64 ⟨3, by decide⟩ 5, .message ⟨7, by decide⟩ [.uint ⟨1, by decide⟩ 300]])) =
      (.done [(7, .len (encode [.uint ⟨1, by decide⟩ 300]))], last) ∧ last.pos = 14) ∧
    (Decoder.nextField true ⟨[0x0d, 0x00], 0⟩).1 ≠ .stopped := by
  have hlength : (encode
      [.fixed64 ⟨3, by decide⟩ 5, .message ⟨7, by decide⟩ [.uint ⟨1, by decide⟩ 300]]).length =
        14 := by
    simp [encode_eq, Item.encoded, Encoder.tag, Leb128.encode, wireLen, wireVarint]
  have hall := (fields_encode true).1 _ (by rw [hlength]; decide) _ (Within.self _)
  rw [hlength] at hall
  exact ⟨⟨_, hall, rfl⟩, ((fields_encode true).2 ⟨[0x0d, 0x00], 0⟩ (by decide)).1⟩

end XitForge.CoreDevice.Protobuf
