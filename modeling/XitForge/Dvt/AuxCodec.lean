import Mathlib.Tactic.Ring
import XitForge.Dvt.Message

/-!
The writer of auxiliary values. It puts a key in front of every value and gives the
whole the header of a dictionary block, and a null is a key without a value; the
reader takes the primitives of the block in pairs.
-/
namespace XitForge.Dvt

open RustEval
open Xpc (fromLEBytes leAt toLEBytes toLEBytes_length fromLEBytes_toLEBytes)

/-- What `serialize` writes behind the key of a value. -/
def AuxValue.written : AuxValue → List UInt8
  | .null => []
  | .string s => toLEBytes 4 0x01 ++ toLEBytes 4 s.toUTF8.data.toList.length ++ s.toUTF8.data.toList
  | .array v => toLEBytes 4 0x02 ++ toLEBytes 4 v.length ++ v
  | .u32 u => toLEBytes 4 0x03 ++ toLEBytes 4 u
  | .i64 i => toLEBytes 4 0x06 ++ toLEBytes 8 i.toUInt64.toNat
  | .double d => toLEBytes 4 0x09 ++ toLEBytes 8 d.toNat

def valuesPayload (values : List AuxValue) : List UInt8 :=
  values.flatMap fun v => toLEBytes 4 0x0a ++ v.written

/-- `Aux::serialize`. Only the low bytes of the length are written. -/
def Aux.serialize (aux : Aux) : List UInt8 :=
  let payload := valuesPayload aux.values
  toLEBytes 4 496 ++ toLEBytes 4 0 ++ toLEBytes 4 payload.length ++ toLEBytes 4 0 ++ payload

def Aux.fromValues (values : List AuxValue) : Aux := ⟨{}, values⟩

/-- A value that the types of the source hold, with a length that its field holds. -/
def AuxValue.Fits : AuxValue → Prop
  | .string s => s.toUTF8.data.toList.length < 2 ^ 32
  | .array v => v.length < 2 ^ 32
  | .u32 u => u < 2 ^ 32
  | .null => True
  | .i64 _ => True
  | .double _ => True

namespace AuxCodec

section Reading

theorem readExact_append (front piece rest : List UInt8) :
    Cursor.readExact piece.length ⟨front ++ (piece ++ rest), front.length⟩ =
      .ok (piece, ⟨front ++ (piece ++ rest), front.length + piece.length⟩) := by
  unfold Cursor.readExact
  rw [if_pos (by simp only [List.length_append]; omega)]
  simp only [List.drop_left, List.take_left]

theorem readWord_append {width n : ℕ} (front rest : List UInt8) (h : n < 256 ^ width) :
    Cursor.readWord width ⟨front ++ (toLEBytes width n ++ rest), front.length⟩ =
      .ok (n, ⟨front ++ (toLEBytes width n ++ rest), front.length + width⟩) := by
  have hread := readExact_append front (toLEBytes width n) rest
  rw [toLEBytes_length] at hread
  rw [Cursor.readWord, hread, Eval.ok_bind]
  dsimp only
  rw [fromLEBytes_toLEBytes width n h]
  rfl

/-- The cursor behind a piece. -/
theorem behind_piece (front piece rest : List UInt8) {width : ℕ} (h : piece.length = width) :
    (⟨front ++ (piece ++ rest), front.length + width⟩ : Cursor) =
      ⟨(front ++ piece) ++ rest, (front ++ piece).length⟩ := by
  rw [List.append_assoc, List.length_append, h]

theorem fromUTF8_toUTF8 (s : String) :
    String.fromUTF8? ⟨s.toUTF8.data.toList.toArray⟩ = some s := by
  have hsame : (⟨s.toUTF8.data⟩ : ByteArray) = s.toByteArray := rfl
  unfold String.fromUTF8?
  rw [Array.toArray_toList, hsame, dif_pos s.isValidUTF8]
  rfl

/-- A primitive as it stands in a block. -/
def primitiveBytes : AuxValue → List UInt8
  | .null => toLEBytes 4 0x0a
  | v => v.written

/-- A type word is read, and what is behind it decides. -/
theorem readType_append {code : ℕ} (front rest : List UInt8) (h : code < 256) :
    Cursor.readWord 4 ⟨front ++ (toLEBytes 4 code ++ rest), front.length⟩ =
      .ok (code, ⟨(front ++ toLEBytes 4 code) ++ rest, (front ++ toLEBytes 4 code).length⟩) := by
  rw [readWord_append front rest (by omega), behind_piece front _ rest (toLEBytes_length 4 code)]

/-- A length and as many bytes behind it. -/
theorem readSized_append (front piece rest : List UInt8) (h : piece.length < 2 ^ 32) :
    Cursor.readWord 4 ⟨front ++ (toLEBytes 4 piece.length ++ (piece ++ rest)), front.length⟩ =
      .ok (piece.length, ⟨(front ++ toLEBytes 4 piece.length) ++ (piece ++ rest),
        (front ++ toLEBytes 4 piece.length).length⟩) := by
  rw [readWord_append front _ (by omega), behind_piece front _ _ (toLEBytes_length 4 _)]

theorem parsePrimitive_append {v : AuxValue} (front rest : List UInt8) (h : v.Fits) :
    parsePrimitive ⟨front ++ (primitiveBytes v ++ rest), front.length⟩ =
      .ok (v, ⟨front ++ (primitiveBytes v ++ rest), front.length + (primitiveBytes v).length⟩) := by
  unfold parsePrimitive
  cases v with
  | null =>
    rw [primitiveBytes, readType_append front rest (by decide), Eval.ok_bind]
    simp
  | string s =>
    simp only [primitiveBytes, AuxValue.written, List.append_assoc]
    rw [readType_append front _ (by decide), Eval.ok_bind]
    dsimp only
    rw [if_pos (by decide), readSized_append _ _ rest h, Eval.ok_bind]
    dsimp only
    rw [readExact_append, Eval.ok_bind]
    dsimp only
    rw [fromUTF8_toUTF8]
    simp only [List.append_assoc, List.length_append, toLEBytes_length, Nat.add_assoc]
    rfl
  | array v =>
    simp only [primitiveBytes, AuxValue.written, List.append_assoc]
    rw [readType_append front _ (by decide), Eval.ok_bind]
    dsimp only
    rw [if_neg (by decide), if_pos (by decide), readSized_append _ _ rest h, Eval.ok_bind]
    dsimp only
    rw [readExact_append, Eval.ok_bind]
    simp only [List.append_assoc, List.length_append, toLEBytes_length, Nat.add_assoc]
    rfl
  | u32 u =>
    have hu : u < 256 ^ 4 := h
    simp only [primitiveBytes, AuxValue.written, List.append_assoc]
    rw [readType_append front _ (by decide), Eval.ok_bind]
    dsimp only
    rw [if_neg (by decide), if_neg (by decide), if_pos (by decide), readWord_append _ rest hu,
      Eval.ok_bind]
    simp only [List.append_assoc, List.length_append, toLEBytes_length, Nat.add_assoc]
    rfl
  | i64 i =>
    have hi : i.toUInt64.toNat < 256 ^ 8 := i.toUInt64.toNat_lt
    simp only [primitiveBytes, AuxValue.written, List.append_assoc]
    rw [readType_append front _ (by decide), Eval.ok_bind]
    dsimp only
    rw [if_neg (by decide), if_neg (by decide), if_neg (by decide), if_pos (by decide),
      readWord_append _ rest hi, Eval.ok_bind]
    simp only [List.append_assoc, List.length_append, toLEBytes_length, Nat.add_assoc,
      UInt64.ofNat_toNat, Int64.toInt64_toUInt64]
    rfl
  | double d =>
    have hd : d.toNat < 256 ^ 8 := d.toNat_lt
    simp only [primitiveBytes, AuxValue.written, List.append_assoc]
    rw [readType_append front _ (by decide), Eval.ok_bind]
    dsimp only
    rw [if_neg (by decide), if_neg (by decide), if_neg (by decide), if_neg (by decide),
      if_pos (by decide), readWord_append _ rest hd, Eval.ok_bind]
    simp only [List.append_assoc, List.length_append, toLEBytes_length, Nat.add_assoc,
      UInt64.ofNat_toNat]
    rfl

end Reading

section Pairing

/-- The primitives of a list of values: a key in front of every one, and for a null
nothing else. -/
def primitives (values : List AuxValue) : List AuxValue :=
  values.flatMap fun v => if v = .null then [.null] else [.null, v]

def blockBytes (ps : List AuxValue) : List UInt8 := ps.flatMap primitiveBytes

theorem blockBytes_cons (p : AuxValue) (ps : List AuxValue) :
    blockBytes (p :: ps) = primitiveBytes p ++ blockBytes ps := List.flatMap_cons

theorem valuesPayload_eq (values : List AuxValue) :
    valuesPayload values = blockBytes (primitives values) := by
  induction values with
  | nil => rfl
  | cons v rest ih =>
    have hfirst : toLEBytes 4 0x0a ++ v.written =
        blockBytes (if v = .null then [.null] else [.null, v]) := by
      cases v <;> simp [blockBytes, primitiveBytes, AuxValue.written]
    unfold valuesPayload primitives blockBytes at ih ⊢
    rw [List.flatMap_cons, List.flatMap_cons, List.flatMap_append, ih, hfirst]
    rfl

/-- What the reader makes of primitives from a position on: every second one, as long as
the position is below the end. -/
def everySecond (bodyEnd position : ℕ) : List AuxValue → Option (List AuxValue)
  | key :: value :: rest =>
    if bodyEnd ≤ position then some []
    else (everySecond bodyEnd
      (position + (primitiveBytes key).length + (primitiveBytes value).length) rest).map
        (value :: ·)
  | _ => if bodyEnd ≤ position then some [] else none

theorem parsePrimitive_end (bytes : List UInt8) :
    parsePrimitive ⟨bytes, bytes.length⟩ = .err .socket := by
  unfold parsePrimitive Cursor.readWord Cursor.readExact
  simp

theorem pairLoop_stops {bodyEnd fuel : ℕ} {values : List AuxValue} {cursor : Cursor}
    (h : bodyEnd ≤ cursor.position) : pairLoop bodyEnd (fuel + 1) values cursor = .ok values := by
  rw [pairLoop, if_neg (Nat.not_lt.mpr h)]
  rfl

theorem pairLoop_block {ps : List AuxValue} {bodyEnd fuel position : ℕ} (front : List UInt8)
    (values : List AuxValue) (hposition : front.length = position) (hfits : ∀ p ∈ ps, p.Fits)
    (hfuel : ps.length < fuel) :
    pairLoop bodyEnd fuel values ⟨front ++ blockBytes ps, position⟩ =
      match everySecond bodyEnd position ps with
      | some rest => .ok (values ++ rest)
      | none => .err .socket := by
  obtain ⟨fuel, rfl⟩ : ∃ n, fuel = n + 1 := ⟨fuel - 1, by omega⟩
  fun_induction everySecond bodyEnd position ps generalizing front values fuel with
  | case1 position key value rest hstop =>
    rw [pairLoop_stops hstop]
    exact congrArg Eval.ok (List.append_nil values).symm
  | case2 position key value rest hstop ih =>
    subst hposition
    have hkey : key.Fits := hfits key List.mem_cons_self
    have hvalue : value.Fits := hfits value (List.mem_cons_of_mem _ List.mem_cons_self)
    rw [pairLoop, if_pos (Nat.not_le.mp hstop), blockBytes_cons, parsePrimitive_append front _ hkey,
      Eval.ok_bind]
    dsimp only
    rw [behind_piece front _ _ rfl, blockBytes_cons, parsePrimitive_append _ _ hvalue, Eval.ok_bind]
    dsimp only
    rw [behind_piece (front ++ primitiveBytes key) _ _ rfl]
    obtain ⟨fuel, rfl⟩ : ∃ n, fuel = n + 1 := ⟨fuel - 1, by
      rw [List.length_cons, List.length_cons] at hfuel
      omega⟩
    have hnext := ih (front ++ primitiveBytes key ++ primitiveBytes value) (values ++ [value])
      (by simp only [List.length_append])
      (fun p hp => hfits p (List.mem_cons_of_mem _ (List.mem_cons_of_mem _ hp)))
      fuel (by rw [List.length_cons, List.length_cons] at hfuel; omega)
    simp only [List.length_append] at hnext ⊢
    rw [hnext]
    cases everySecond bodyEnd (front.length + (primitiveBytes key).length +
        (primitiveBytes value).length) rest with
    | none => rfl
    | some found => exact congrArg Eval.ok (List.append_assoc values [value] found)
  | case3 ps position hstop hshort =>
    rw [pairLoop_stops hstop]
    exact congrArg Eval.ok (List.append_nil values).symm
  | case4 ps position hstop hshort =>
    subst hposition
    rw [pairLoop, if_pos (Nat.not_le.mp hstop)]
    cases ps with
    | nil =>
      have hnil : front ++ blockBytes [] = front := List.append_nil front
      rw [hnil, parsePrimitive_end]
      rfl
    | cons key rest =>
      cases rest with
      | nil =>
        have hkey : key.Fits := hfits key List.mem_cons_self
        have hnil : front ++ primitiveBytes key ++ blockBytes [] = front ++ primitiveBytes key :=
          List.append_nil _
        rw [blockBytes_cons, parsePrimitive_append front _ hkey, Eval.ok_bind]
        dsimp only
        rw [behind_piece front _ _ rfl, hnil, parsePrimitive_end]
        rfl
      | cons value rest => exact absurd rfl (hshort key value rest)

/-- The values that are read are half of the primitives at most. -/
theorem everySecond_length {bodyEnd position : ℕ} {ps values : List AuxValue}
    (h : everySecond bodyEnd position ps = some values) : 2 * values.length ≤ ps.length := by
  fun_induction everySecond bodyEnd position ps generalizing values with
  | case1 =>
    cases h
    exact Nat.zero_le _
  | case2 position key value rest hstop ih =>
    obtain ⟨found, hfound, rfl⟩ := Option.map_eq_some_iff.mp h
    have hle := ih hfound
    rw [List.length_cons, List.length_cons, List.length_cons]
    omega
  | case3 =>
    cases h
    exact Nat.zero_le _
  | case4 => cases h

theorem primitives_length (values : List AuxValue) :
    (primitives values).length + values.count .null = 2 * values.length := by
  induction values with
  | nil => rfl
  | cons v rest ih =>
    unfold primitives at ih ⊢
    rw [List.flatMap_cons, List.length_append, List.count_cons, List.length_cons]
    by_cases hnull : v = .null
    · simp only [hnull, if_true, List.length_singleton, beq_self_eq_true]
      omega
    · simp only [hnull, if_false, List.length_cons, List.length_nil, beq_iff_eq]
      omega

theorem valuesPayload_cons (v : AuxValue) (values : List AuxValue) :
    valuesPayload (v :: values) = toLEBytes 4 0x0a ++ v.written ++ valuesPayload values :=
  List.flatMap_cons

/-- Without a null the values are read again if the last of them starts in the body. -/
theorem everySecond_primitives {bodyEnd position : ℕ} {values : List AuxValue}
    (hnull : AuxValue.null ∉ values) (hend : bodyEnd ≤ position + (valuesPayload values).length) :
    everySecond bodyEnd position (primitives values) = some values ↔
      values = [] ∨ position + (valuesPayload values.dropLast).length < bodyEnd := by
  induction values generalizing position with
  | nil =>
    have hstop : bodyEnd ≤ position := hend
    simp [primitives, everySecond, hstop]
  | cons v rest ih =>
    have hv : v ≠ .null := fun heq => hnull (heq ▸ List.mem_cons_self)
    have hpair : primitives (v :: rest) = .null :: v :: primitives rest := by
      unfold primitives
      rw [List.flatMap_cons, if_neg hv]
      rfl
    have hwritten : primitiveBytes v = v.written := by
      cases v with
      | null => exact absurd rfl hv
      | _ => rfl
    have hsize : (primitiveBytes .null).length + (primitiveBytes v).length =
        (toLEBytes 4 0x0a ++ v.written).length := by
      rw [hwritten, List.length_append]
      rfl
    rw [valuesPayload_cons, List.length_append] at hend
    have hrest := @ih (position + (primitiveBytes .null).length + (primitiveBytes v).length)
      (fun hmem => hnull (List.mem_cons_of_mem _ hmem)) (by omega)
    rw [hpair, everySecond]
    by_cases hstop : bodyEnd ≤ position
    · rw [if_pos hstop]
      constructor
      · exact nofun
      · intro hcase
        rcases hcase with hnil | hlt
        · cases hnil
        · omega
    · rw [if_neg hstop]
      have hcons : (everySecond bodyEnd (position + (primitiveBytes .null).length +
          (primitiveBytes v).length) (primitives rest)).map (v :: ·) = some (v :: rest) ↔
          everySecond bodyEnd (position + (primitiveBytes .null).length +
            (primitiveBytes v).length) (primitives rest) = some rest := by
        simp
      rw [hcons, hrest]
      cases rest with
      | nil =>
        have hlt : position < bodyEnd := Nat.not_le.mp hstop
        simp [valuesPayload, hlt]
      | cons w rest =>
        rw [List.dropLast_cons_cons, valuesPayload_cons, List.length_append]
        simp only [reduceCtorEq, false_or]
        omega

theorem fromLEBytes_append (front rest : List UInt8) :
    fromLEBytes (front ++ rest) = fromLEBytes front + 256 ^ front.length * fromLEBytes rest := by
  induction front with
  | nil => simp [fromLEBytes]
  | cons byte front ih =>
    rw [List.cons_append, fromLEBytes, fromLEBytes, ih, List.length_cons, Nat.pow_succ]
    ring

/-- Of a number that is too large only the low bytes are left. -/
theorem fromLEBytes_toLEBytes_mod (width n : ℕ) :
    fromLEBytes (toLEBytes width n) = n % 256 ^ width := by
  induction width generalizing n with
  | zero => exact (Nat.mod_one n).symm
  | succ width ih =>
    have hsplit : n % 256 ^ (width + 1) = n % 256 + 256 * (n / 256 % 256 ^ width) := by
      rw [pow_succ', Nat.mod_mul]
    rw [toLEBytes, fromLEBytes, ih, UInt8.toNat_ofNat', hsplit]

/-- The body length takes the third word of the header and the fourth, which is zero. -/
theorem readBody_append (front rest : List UInt8) (n : ℕ) :
    Cursor.readWord 8 ⟨front ++ (toLEBytes 4 n ++ toLEBytes 4 0 ++ rest), front.length⟩ =
      .ok (n % 2 ^ 32, ⟨front ++ (toLEBytes 4 n ++ toLEBytes 4 0 ++ rest), front.length + 8⟩) := by
  have hread := readExact_append front (toLEBytes 4 n ++ toLEBytes 4 0) rest
  have hlength : (toLEBytes 4 n ++ toLEBytes 4 0).length = 8 := by
    rw [List.length_append, toLEBytes_length, toLEBytes_length]
  rw [hlength] at hread
  rw [Cursor.readWord, hread, Eval.ok_bind]
  dsimp only
  rw [fromLEBytes_append, fromLEBytes_toLEBytes_mod, fromLEBytes_toLEBytes_mod]
  rfl

theorem primitives_fit {values : List AuxValue} (hfits : ∀ v ∈ values, v.Fits) :
    ∀ p ∈ primitives values, p.Fits := by
  intro p hp
  obtain ⟨v, hv, hmem⟩ := List.mem_flatMap.mp hp
  have hcases : p = .null ∨ p = v := by
    split at hmem
    · exact .inl (List.mem_singleton.mp hmem)
    · simpa using hmem
  rcases hcases with rfl | rfl
  · trivial
  · exact hfits p hv

theorem length_le_blockBytes (ps : List AuxValue) : ps.length ≤ (blockBytes ps).length := by
  have hpos (p : AuxValue) : 0 < (primitiveBytes p).length := by
    cases p <;> simp [primitiveBytes, AuxValue.written]
  induction ps with
  | nil => exact Nat.zero_le _
  | cons p rest ih =>
    have hp := hpos p
    rw [blockBytes_cons, List.length_append, List.length_cons]
    omega

theorem serialize_eq (values : List AuxValue) :
    (Aux.fromValues values).serialize = toLEBytes 4 496 ++ (toLEBytes 4 0 ++
      (toLEBytes 4 (valuesPayload values).length ++ toLEBytes 4 0 ++ valuesPayload values)) := by
  simp only [Aux.serialize, Aux.fromValues, List.append_assoc]

theorem length_serialize (values : List AuxValue) :
    (Aux.fromValues values).serialize.length = 16 + (valuesPayload values).length := by
  rw [serialize_eq]
  simp only [List.length_append, toLEBytes_length]
  omega

/-- The header of a written block: its flags, a zero and the length of the body. -/
theorem readHeader_serialize (values : List AuxValue) :
    Cursor.readWord 4 ⟨(Aux.fromValues values).serialize, 0⟩ =
        .ok (496, ⟨(Aux.fromValues values).serialize, 4⟩) ∧
      Cursor.readWord 4 ⟨(Aux.fromValues values).serialize, 4⟩ =
        .ok (0, ⟨(Aux.fromValues values).serialize, 8⟩) ∧
      Cursor.readWord 8 ⟨(Aux.fromValues values).serialize, 8⟩ =
        .ok ((valuesPayload values).length % 2 ^ 32,
          ⟨(Aux.fromValues values).serialize, 16⟩) := by
  rw [serialize_eq]
  refine ⟨readWord_append [] _ (by decide), readWord_append (toLEBytes 4 496) _ (by decide), ?_⟩
  rw [← List.append_assoc (toLEBytes 4 496)]
  exact readBody_append (toLEBytes 4 496 ++ toLEBytes 4 0) _ _

/-- The loop of the reader over what stands behind the header. -/
theorem pairLoop_serialize {values : List AuxValue} (bodyEnd : ℕ)
    (hfits : ∀ v ∈ values, v.Fits) :
    pairLoop bodyEnd ((Aux.fromValues values).serialize.length + 1) []
        ⟨(Aux.fromValues values).serialize, 16⟩ =
      match everySecond bodyEnd 16 (primitives values) with
      | some rest => .ok ([] ++ rest)
      | none => .err .socket := by
  have hlength := length_serialize values
  have hfuel : (primitives values).length < (Aux.fromValues values).serialize.length + 1 := by
    have hle := length_le_blockBytes (primitives values)
    rw [← valuesPayload_eq] at hle
    omega
  have hfront : (Aux.fromValues values).serialize = (toLEBytes 4 496 ++ toLEBytes 4 0 ++
      toLEBytes 4 (valuesPayload values).length ++ toLEBytes 4 0) ++
        blockBytes (primitives values) := by
    rw [serialize_eq, valuesPayload_eq]
    simp only [List.append_assoc]
  generalize (Aux.fromValues values).serialize.length + 1 = fuel at hfuel ⊢
  rw [hfront]
  refine pairLoop_block _ [] ?_ (primitives_fit hfits) hfuel
  simp only [List.length_append, toLEBytes_length]

/-- A written block is read as one of the modern layout. -/
theorem fromBytes_payload (checks : Bool) (values : List AuxValue) (hfits : ∀ v ∈ values, v.Fits) :
    Aux.fromBytes checks (Aux.fromValues values).serialize =
      match everySecond (16 + (valuesPayload values).length % 2 ^ 32) 16 (primitives values) with
      | some found => .ok (Aux.fromValues found)
      | none => .err .socket := by
  have hfirst : (Aux.fromValues values).serialize =
      0xF0 :: ((Aux.fromValues values).serialize).tail := by
    rw [serialize_eq]
    rfl
  have hlength := length_serialize values
  have hmod : (valuesPayload values).length % 2 ^ 32 ≤ (valuesPayload values).length :=
    Nat.mod_le _ _
  have hlt : (valuesPayload values).length % 2 ^ 32 < 2 ^ 32 := Nat.mod_lt _ (by decide)
  obtain ⟨hone, htwo, hbody⟩ := readHeader_serialize values
  have hloop := pairLoop_serialize (16 + (valuesPayload values).length % 2 ^ 32) hfits
  generalize (Aux.fromValues values).serialize = bytes at hfirst hlength hone htwo hbody hloop
  unfold Aux.fromBytes
  rw [hfirst] at hlength hone htwo hbody hloop ⊢
  dsimp only
  rw [if_neg (by decide), if_neg (by omega), hone, Eval.ok_bind]
  dsimp only
  rw [htwo, Eval.ok_bind]
  dsimp only
  rw [hbody, Eval.ok_bind]
  dsimp only
  rw [Eval.add_of_lt (by omega), Eval.ok_bind, if_neg (by omega), hloop]
  cases everySecond (16 + (valuesPayload values).length % 2 ^ 32) 16 (primitives values) with
  | none => rfl
  | some found => rfl

theorem everySecond_of_ok {bodyEnd : ℕ} {ps values : List AuxValue}
    (h : (match everySecond bodyEnd 16 ps with
      | some found => .ok (Aux.fromValues found)
      | none => .err .socket : Eval ReadError Aux) = .ok (Aux.fromValues values)) :
    everySecond bodyEnd 16 ps = some values := by
  cases hread : everySecond bodyEnd 16 ps with
  | none =>
    rw [hread] at h
    cases h
  | some found =>
    rw [hread] at h
    cases h
    rfl

end Pairing

end AuxCodec

open AuxCodec in
/-- What is written is read again just for values without a null whose last one starts
within as many bytes as the low word of their length says. -/
theorem Aux.fromBytes_serialize (checks : Bool) (values : List AuxValue)
    (hfits : ∀ v ∈ values, v.Fits) :
    Aux.fromBytes checks (Aux.fromValues values).serialize = .ok (Aux.fromValues values) ↔
      AuxValue.null ∉ values ∧ (values = [] ∨
        (valuesPayload values.dropLast).length < (valuesPayload values).length % 2 ^ 32) := by
  rw [fromBytes_payload checks values hfits]
  by_cases hnull : AuxValue.null ∈ values
  · constructor
    · intro h
      have hread := everySecond_length (everySecond_of_ok h)
      have hcount := primitives_length values
      have hpos := List.count_pos_iff.mpr hnull
      omega
    · intro h
      exact absurd hnull h.1
  · have hmod : (valuesPayload values).length % 2 ^ 32 ≤ (valuesPayload values).length :=
      Nat.mod_le _ _
    have hread : everySecond (16 + (valuesPayload values).length % 2 ^ 32) 16 (primitives values) =
        some values ↔ _ := everySecond_primitives hnull (by omega)
    rw [Nat.add_lt_add_iff_left] at hread
    constructor
    · intro h
      exact ⟨hnull, hread.mp (everySecond_of_ok h)⟩
    · intro h
      rw [hread.mpr h.2]

theorem Aux.fromBytes_serialize_text :
    Aux.fromBytes true (Aux.fromValues [.array [1, 2], .u32 7]).serialize =
      .ok (Aux.fromValues [.array [1, 2], .u32 7]) := by
  have hfits : ∀ v ∈ [AuxValue.array [1, 2], .u32 7], v.Fits := by
    simp [AuxValue.Fits]
  exact (Aux.fromBytes_serialize true [.array [1, 2], .u32 7] hfits).mpr ⟨by decide, by decide⟩

/-- A null is written as a key alone, and the reader finds no value behind it. -/
theorem Aux.fromBytes_serialize_null :
    Aux.fromBytes true (Aux.fromValues [.null]).serialize = .err .socket ∧
      Aux.fromBytes true (Aux.fromValues [.null, .null]).serialize =
        .ok (Aux.fromValues [.null]) := by
  decide

end XitForge.Dvt
