import Mathlib.Logic.Relation
import XitForge.Dvt.Message
import XitForge.Xpc.Decoding

/-!
Where reading a DTX message panics. The lengths and counts that peers send lead
from one entry to the next, and the reader computes with them before it has
compared them with the bytes there are.
-/
namespace XitForge.Dvt

open RustEval
open Xpc (fromLEBytes leAt leAt_drop leAt_lt leAt_take slice)

section Walk

variable {α : Type} {next : α → Option α} {start : α} {post : α → Prop}

/-- What is reached by following `next`. -/
def Walk (next : α → Option α) : α → α → Prop :=
  Relation.ReflTransGen fun here there => next here = some there

theorem walk_forall_iff :
    (∀ there, Walk next start there → post there) ↔
      post start ∧ ∀ here, next start = some here → ∀ there, Walk next here there → post there := by
  constructor
  · intro h
    exact ⟨h start .refl, fun here hhere there hthere => h there (.head hhere hthere)⟩
  · intro ⟨hstart, hrest⟩ there hthere
    rcases hthere.cases_head with rfl | ⟨here, hhere, hwalk⟩
    · exact hstart
    · exact hrest here hhere there hwalk

theorem walk_exists_iff :
    (∃ there, Walk next start there ∧ post there) ↔
      post start ∨ ∃ here, next start = some here ∧ ∃ there, Walk next here there ∧ post there := by
  constructor
  · intro ⟨there, hthere, hpost⟩
    rcases hthere.cases_head with rfl | ⟨here, hhere, hwalk⟩
    · exact Or.inl hpost
    · exact Or.inr ⟨here, hhere, there, hwalk, hpost⟩
  · intro h
    rcases h with hstart | ⟨here, hhere, there, hwalk, hpost⟩
    · exact ⟨start, .refl, hstart⟩
    · exact ⟨there, .head hhere hwalk, hpost⟩

end Walk

section Layout

/-- The bytes of the primitive in front, if it is whole. -/
def primitiveSize (rest : List UInt8) : Option ℕ :=
  let typeCode := leAt rest 0 4 % 256
  if rest.length < 4 then none
  else if typeCode = 0x01 ∨ typeCode = 0x02 then
    let text := (rest.drop 8).take (leAt rest 4 4)
    if 8 + leAt rest 4 4 ≤ rest.length ∧
        (typeCode = 0x01 → (String.fromUTF8? ⟨text.toArray⟩).isSome) then
      some (8 + leAt rest 4 4)
    else none
  else if typeCode = 0x03 then if 8 ≤ rest.length then some 8 else none
  else if typeCode = 0x06 ∨ typeCode = 0x09 then if 12 ≤ rest.length then some 12 else none
  else if typeCode = 0x0A then some 4
  else none

/-- The end of the flat entry at a position, if it is whole. -/
def legacyNext (bytes : List UInt8) (position : ℕ) : Option ℕ :=
  if bytes.length < position + 4 then none
  else if leAt bytes position 4 = 0x0a then some (position + 4)
  else if leAt bytes position 4 = 0x0f0 then
    let stop := position + 16 + leAt bytes (position + 8) 8
    if stop ≤ bytes.length then some stop else none
  else (primitiveSize (bytes.drop position)).map (position + ·)

/-- A dictionary block among the flat entries that ends past what a `usize` holds. -/
def LegacyOverflow (bytes : List UInt8) (position : ℕ) : Prop :=
  position + 16 ≤ bytes.length ∧ leAt bytes position 4 = 0x0f0 ∧
    2 ^ 64 ≤ position + 16 + leAt bytes (position + 8) 8

/-- The end of the key and the value at a position. -/
def pairNext (bytes : List UInt8) (bodyEnd position : ℕ) : Option ℕ :=
  if bodyEnd ≤ position then none
  else
    (primitiveSize (bytes.drop position)).bind fun key =>
      (primitiveSize (bytes.drop (position + key))).map (position + key + ·)

/-- The length of the body of a dictionary block. -/
def bodyLen (bytes : List UInt8) : ℕ := leAt bytes 8 8

/-- The entries of the auxiliary bytes can be followed without overflow. -/
def AuxSound (bytes : List UInt8) : Prop :=
  16 ≤ bytes.length →
    if bytes.head? = some 0xF0 then 16 + bodyLen bytes < 2 ^ 64
    else ∀ position, Walk (legacyNext bytes) 16 position → ¬ LegacyOverflow bytes position

/-- The auxiliary bytes are whole entries up to their end. -/
def AuxWhole (bytes : List UInt8) : Prop :=
  bytes = [] ∨ 16 ≤ bytes.length ∧
    if bytes.head? = some 0xF0 then
      16 + bodyLen bytes ≤ bytes.length ∧ ∃ position,
        Walk (pairNext bytes (16 + bodyLen bytes)) 16 position ∧ 16 + bodyLen bytes ≤ position
    else ∃ position, Walk (legacyNext bytes) 16 position ∧ bytes.length < position + 4

/-- `aux_length` and `total_length` in the payload header. -/
def auxLength (packet : List UInt8) : ℕ := leAt packet 4 4

def totalLength (packet : List UInt8) : ℕ := leAt packet 8 4

def auxBytes (packet : List UInt8) : List UInt8 := (packet.drop 16).take (auxLength packet)

/-- The lengths in a packet fit each other and the packet. -/
structure PacketSound (packet : List UInt8) : Prop where
  header : 16 ≤ packet.length
  aux : 0 < auxLength packet → 16 + auxLength packet ≤ packet.length ∧ AuxSound (auxBytes packet)
  data : (0 < auxLength packet → AuxWhole (auxBytes packet)) →
    auxLength packet ≤ totalLength packet ∧ auxLength packet + 16 < 2 ^ 32 ∧
      16 + totalLength packet ≤ packet.length

/-- The fields of the fragment in front of a stream. -/
def fragmentId (stream : List UInt8) : ℕ := leAt stream 8 2

def fragmentCount (stream : List UInt8) : ℕ := leAt stream 10 2

def fragmentLength (stream : List UInt8) : ℕ := leAt stream 12 4

def fragmentPayload (stream : List UInt8) : List UInt8 :=
  (stream.drop 32).take (fragmentLength stream)

/-- The first of several fragments, which is a header alone. -/
def Announces (stream : List UInt8) : Prop := 1 < fragmentCount stream ∧ fragmentId stream = 0

instance (stream : List UInt8) : Decidable (Announces stream) :=
  inferInstanceAs (Decidable (_ ∧ _))

/-- From one fragment to the next, with the payloads in front of it. -/
def fragmentNext (place : List UInt8 × List UInt8) : Option (List UInt8 × List UInt8) :=
  let (packet, stream) := place
  if stream.length < 32 then none
  else if Announces stream then some (packet, stream.drop 32)
  else if stream.length < 32 + fragmentLength stream then none
  else if fragmentId stream + 1 = fragmentCount stream then none
  else some (packet ++ fragmentPayload stream, stream.drop (32 + fragmentLength stream))

/-- The header of a fragment can be computed with. -/
structure HeaderSound (packet stream : List UInt8) : Prop where
  channel : leAt stream 20 4 % 2 = 0 → wireChannel stream ≠ Int32.minValue
  count : ¬ Announces stream → 32 + fragmentLength stream ≤ stream.length → fragmentCount stream ≠ 0
  packet : ¬ Announces stream → 32 + fragmentLength stream ≤ stream.length →
    fragmentId stream + 1 = fragmentCount stream → PacketSound (packet ++ fragmentPayload stream)

/-- Every header that is reached in a stream can be computed with. -/
def StreamSound (stream : List UInt8) : Prop :=
  ∀ place, Walk fragmentNext ([], stream) place → 32 ≤ place.2.length → HeaderSound place.1 place.2

end Layout

section Primitive

theorem readExact_of_le {cursor : Cursor} {count : ℕ}
    (h : cursor.position + count ≤ cursor.bytes.length) :
    cursor.readExact count = .ok ((cursor.bytes.drop cursor.position).take count,
      ⟨cursor.bytes, cursor.position + count⟩) := by
  unfold Cursor.readExact
  rw [if_pos (by omega)]

theorem readWord_of_le {cursor : Cursor} {width : ℕ}
    (h : cursor.position + width ≤ cursor.bytes.length) :
    cursor.readWord width = .ok (leAt cursor.bytes cursor.position width,
      ⟨cursor.bytes, cursor.position + width⟩) := by
  unfold Cursor.readWord
  rw [readExact_of_le h]
  rfl

theorem readExact_of_lt {cursor : Cursor} {count : ℕ}
    (h : cursor.bytes.length < cursor.position + count) (hcount : 0 < count) :
    cursor.readExact count = .err .socket := by
  unfold Cursor.readExact
  rw [if_neg (by omega)]

theorem readWord_of_lt {cursor : Cursor} {width : ℕ}
    (h : cursor.bytes.length < cursor.position + width) (hwidth : 0 < width) :
    cursor.readWord width = .err .socket := by
  unfold Cursor.readWord
  rw [readExact_of_lt h hwidth]
  rfl

/-- A string or an array: its length, and then its bytes. -/
theorem readSized_eq {bytes : List UInt8} {position : ℕ} (h : position + 4 ≤ bytes.length) :
    (8 + leAt bytes (position + 4) 4 ≤ bytes.length - position →
      Cursor.readWord 4 ⟨bytes, position + 4⟩ =
          .ok (leAt bytes (position + 4) 4, ⟨bytes, position + 4 + 4⟩) ∧
        Cursor.readExact (leAt bytes (position + 4) 4) ⟨bytes, position + 4 + 4⟩ =
          .ok ((bytes.drop (position + 8)).take (leAt bytes (position + 4) 4),
            ⟨bytes, position + 4 + 4 + leAt bytes (position + 4) 4⟩)) ∧
    (¬ 8 + leAt bytes (position + 4) 4 ≤ bytes.length - position →
      Cursor.readWord 4 ⟨bytes, position + 4⟩ = .err .socket ∨
        Cursor.readWord 4 ⟨bytes, position + 4⟩ =
          .ok (leAt bytes (position + 4) 4, ⟨bytes, position + 4 + 4⟩) ∧
        Cursor.readExact (leAt bytes (position + 4) 4) ⟨bytes, position + 4 + 4⟩ =
          .err .socket) := by
  constructor
  · intro hwhole
    refine ⟨readWord_of_le (by dsimp only; omega), ?_⟩
    rw [readExact_of_le (by dsimp only; omega)]
  · intro hshort
    by_cases hlen : bytes.length < position + 4 + 4
    · exact Or.inl (readWord_of_lt (by dsimp only; omega) (by omega))
    · refine Or.inr ⟨readWord_of_le (by dsimp only; omega), ?_⟩
      exact readExact_of_lt (by dsimp only; omega) (by omega)

/-- A number of some bytes behind the type. -/
theorem readNumber_eq {bytes : List UInt8} {position width : ℕ} (h : position + 4 ≤ bytes.length)
    (hwidth : 0 < width) :
    (4 + width ≤ bytes.length - position →
      Cursor.readWord width ⟨bytes, position + 4⟩ =
        .ok (leAt bytes (position + 4) width, ⟨bytes, position + 4 + width⟩)) ∧
    (¬ 4 + width ≤ bytes.length - position →
      Cursor.readWord width ⟨bytes, position + 4⟩ = .err .socket) := by
  constructor
  · intro hwhole
    exact readWord_of_le (by dsimp only; omega)
  · intro hshort
    exact readWord_of_lt (by dsimp only; omega) hwidth

/-- A primitive is read if it is whole, and is an error if it is not. -/
theorem parsePrimitive_eq (bytes : List UInt8) (position : ℕ) :
    match primitiveSize (bytes.drop position) with
    | some size => ∃ value, parsePrimitive ⟨bytes, position⟩ = .ok (value, ⟨bytes, position + size⟩)
    | none => ∃ error, parsePrimitive ⟨bytes, position⟩ = .err error := by
  unfold primitiveSize
  simp only [leAt_drop, List.length_drop, List.drop_drop, Nat.add_zero]
  by_cases hshort : bytes.length - position < 4
  · rw [if_pos hshort]
    refine ⟨.socket, ?_⟩
    unfold parsePrimitive
    rw [readWord_of_lt (by dsimp only; omega) (by omega)]
    rfl
  rw [if_neg hshort]
  have hword := @readWord_of_le ⟨bytes, position⟩ 4 (by dsimp only; omega)
  dsimp only at hword
  obtain ⟨hwhole, htorn⟩ := @readSized_eq bytes position (by omega)
  unfold parsePrimitive
  simp only [hword, Eval.ok_bind]
  by_cases h1 : leAt bytes position 4 % 256 = 0x01
  · rw [if_pos (Or.inl h1)]
    simp only [h1, if_true, true_implies]
    by_cases hsize : 8 + leAt bytes (position + 4) 4 ≤ bytes.length - position
    · obtain ⟨hlen, htext⟩ := hwhole hsize
      simp only [hlen, htext, Eval.ok_bind, hsize, true_and]
      cases htext : String.fromUTF8? ⟨((bytes.drop (position + 8)).take
        (leAt bytes (position + 4) 4)).toArray⟩ with
      | none => exact ⟨.utf8, by simp⟩
      | some text => exact ⟨.string text, by simp [Nat.add_assoc]⟩
    · rw [if_neg (by simp [hsize])]
      rcases htorn hsize with hlen | ⟨hlen, htext⟩
      · exact ⟨.socket, by simp [hlen]⟩
      · exact ⟨.socket, by simp [hlen, htext]⟩
  by_cases h2 : leAt bytes position 4 % 256 = 0x02
  · rw [if_pos (Or.inr h2)]
    simp only [h1, if_false, false_implies, and_true]
    simp only [h2, if_true]
    by_cases hsize : 8 + leAt bytes (position + 4) 4 ≤ bytes.length - position
    · obtain ⟨hlen, htext⟩ := hwhole hsize
      rw [if_pos hsize, hlen]
      simp only [Eval.ok_bind, htext]
      refine ⟨.array ((bytes.drop (position + 8)).take (leAt bytes (position + 4) 4)), ?_⟩
      simp [Nat.add_assoc]
    · rw [if_neg hsize]
      rcases htorn hsize with hlen | ⟨hlen, htext⟩
      · exact ⟨.socket, by simp [hlen]⟩
      · exact ⟨.socket, by simp [hlen, htext]⟩
  rw [if_neg (by simp [h1, h2])]
  simp only [h1, h2, if_false]
  by_cases h3 : leAt bytes position 4 % 256 = 0x03
  · obtain ⟨hok, herr⟩ := @readNumber_eq bytes position 4 (by omega) (by omega)
    simp only [h3, if_true]
    by_cases hsize : 8 ≤ bytes.length - position
    · rw [if_pos hsize, hok (by omega)]
      exact ⟨.u32 _, rfl⟩
    · rw [if_neg hsize, herr (by omega)]
      exact ⟨.socket, rfl⟩
  simp only [h3, if_false]
  obtain ⟨hok, herr⟩ := @readNumber_eq bytes position 8 (by omega) (by omega)
  by_cases h6 : leAt bytes position 4 % 256 = 0x06
  · simp only [h6, if_true, true_or]
    by_cases hsize : 12 ≤ bytes.length - position
    · rw [if_pos hsize, hok (by omega)]
      exact ⟨.i64 _, rfl⟩
    · rw [if_neg hsize, herr (by omega)]
      exact ⟨.socket, rfl⟩
  by_cases h9 : leAt bytes position 4 % 256 = 0x09
  · simp only [h6, if_false, false_or]
    simp only [h9, if_true]
    by_cases hsize : 12 ≤ bytes.length - position
    · rw [if_pos hsize, hok (by omega)]
      exact ⟨.double _, rfl⟩
    · rw [if_neg hsize, herr (by omega)]
      exact ⟨.socket, rfl⟩
  simp only [h6, h9, if_false, or_self]
  by_cases h10 : leAt bytes position 4 % 256 = 0x0A
  · rw [if_pos h10, if_pos h10]
    exact ⟨.null, rfl⟩
  · rw [if_neg h10, if_neg h10]
    exact ⟨_, rfl⟩

end Primitive

section Aux

variable {bytes : List UInt8} {position : ℕ}

theorem primitiveSize_ge {rest : List UInt8} {size : ℕ} (h : primitiveSize rest = some size) :
    4 ≤ size ∧ size ≤ rest.length := by
  unfold primitiveSize at h
  simp only [] at h
  split at h
  · cases h
  · split at h
    · split at h
      · cases h
        omega
      · cases h
    · split at h
      · split at h
        · cases h
          omega
        · cases h
      · split at h
        · split at h
          · cases h
            omega
          · cases h
        · split at h
          · cases h
            omega
          · cases h

/-- One round of the loop over flat entries, at a block. -/
theorem legacyLoop_block (checks : Bool) (fuel : ℕ) (values : List AuxValue)
    (hlength : bytes.length < 2 ^ 32) (hposition : position + 4 ≤ bytes.length)
    (hblock : leAt bytes position 4 = 0x0f0) :
    legacyLoop checks (fuel + 1) values ⟨bytes, position⟩ =
      if bytes.length < position + 16 then .err .socket
      else
        (Eval.add 64 checks (position + 16) (leAt bytes (position + 8) 8)).bind fun stop =>
          if bytes.length < stop then .err (.notEnoughBytes bytes.length stop)
          else legacyLoop checks fuel values ⟨bytes, stop⟩ := by
  have hword := @readWord_of_le ⟨bytes, position⟩ 4 hposition
  dsimp only at hword
  rw [legacyLoop, Eval.add_of_lt (by dsimp only; omega)]
  simp only [Eval.ok_bind, hword, hblock]
  rw [if_neg (by omega), if_neg (by omega), if_pos trivial]
  by_cases hflags : bytes.length < position + 4 + 4
  · rw [readWord_of_lt hflags (by omega), if_pos (by omega)]
    rfl
  have hflags' := @readWord_of_le ⟨bytes, position + 4⟩ 4 (by dsimp only; omega)
  dsimp only at hflags'
  simp only [hflags', Eval.ok_bind]
  by_cases hbody : bytes.length < position + 16
  · rw [readWord_of_lt (by dsimp only; omega) (by omega), if_pos hbody]
    rfl
  · have hbody' := @readWord_of_le ⟨bytes, position + 4 + 4⟩ 8 (by dsimp only; omega)
    simp only [Nat.add_assoc, Nat.reduceAdd] at hbody' ⊢
    rw [hbody', if_neg hbody]
    rfl

/-- One round of the loop over flat entries, at what is no block. -/
theorem legacyLoop_flat (checks : Bool) (fuel : ℕ) (values : List AuxValue)
    (hlength : bytes.length < 2 ^ 32) (hposition : position + 4 ≤ bytes.length)
    (hblock : leAt bytes position 4 ≠ 0x0f0) :
    match legacyNext bytes position with
    | some next => ∃ values', legacyLoop checks (fuel + 1) values ⟨bytes, position⟩ =
        legacyLoop checks fuel values' ⟨bytes, next⟩
    | none => ∃ error, legacyLoop checks (fuel + 1) values ⟨bytes, position⟩ = .err error := by
  have hword := @readWord_of_le ⟨bytes, position⟩ 4 hposition
  dsimp only at hword
  unfold legacyNext
  rw [legacyLoop, if_neg (by omega), Eval.add_of_lt (by dsimp only; omega)]
  simp only [Eval.ok_bind, hword]
  rw [if_neg (show ¬ bytes.length < position + 4 by omega)]
  by_cases hnull : leAt bytes position 4 = 0x0a
  · rw [if_pos hnull, if_pos hnull]
    exact ⟨values, rfl⟩
  rw [if_neg hnull, if_neg hnull, if_neg hblock, if_neg hblock]
  have hslice : (slice bytes position bytes.length : Eval ReadError _) = .ok (bytes.drop position) := by
    unfold slice
    rw [if_pos (by omega), List.take_length]
  have hprimitive := parsePrimitive_eq (bytes.drop position) 0
  rw [List.drop_zero] at hprimitive
  rw [Eval.sub_of_le (by omega), Nat.add_sub_cancel]
  simp only [Eval.ok_bind, hslice]
  cases hsize : primitiveSize (bytes.drop position) with
  | none =>
    rw [hsize] at hprimitive
    obtain ⟨error, herror⟩ := hprimitive
    exact ⟨error, by simp [herror]⟩
  | some size =>
    rw [hsize] at hprimitive
    obtain ⟨value, hvalue⟩ := hprimitive
    have hbound := primitiveSize_ge hsize
    rw [List.length_drop] at hbound
    refine ⟨values ++ [value], ?_⟩
    simp only [hvalue, Eval.ok_bind, Nat.zero_add]
    rw [Eval.add_of_lt (by omega)]
    rfl

theorem legacyNext_bounds {next : ℕ} (h : legacyNext bytes position = some next) :
    position + 4 ≤ next ∧ next ≤ bytes.length := by
  unfold legacyNext at h
  simp only [] at h
  split at h
  · cases h
  · split at h
    · cases h
      omega
    · split at h
      · split at h
        · cases h
          omega
        · cases h
      · obtain ⟨size, hsize, rfl⟩ := Option.map_eq_some_iff.mp h
        have hbound := primitiveSize_ge hsize
        rw [List.length_drop] at hbound
        omega

/-- One round of the loop over flat entries. -/
theorem legacyLoop_step (checks : Bool) (fuel : ℕ) (values : List AuxValue)
    (hlength : bytes.length < 2 ^ 32) (hposition : position + 4 ≤ bytes.length)
    (hoverflow : ¬ LegacyOverflow bytes position) :
    match legacyNext bytes position with
    | some next => ∃ values', legacyLoop checks (fuel + 1) values ⟨bytes, position⟩ =
        legacyLoop checks fuel values' ⟨bytes, next⟩
    | none => ∃ error, legacyLoop checks (fuel + 1) values ⟨bytes, position⟩ = .err error := by
  by_cases hblock : leAt bytes position 4 = 0x0f0
  · rw [legacyLoop_block checks fuel values hlength hposition hblock]
    unfold legacyNext
    rw [if_neg (by omega), if_neg (by omega), if_pos hblock]
    by_cases hshort : bytes.length < position + 16
    · rw [if_pos hshort]
      dsimp only
      rw [if_neg (by omega)]
      exact ⟨.socket, rfl⟩
    have hfits : position + 16 + leAt bytes (position + 8) 8 < 2 ^ 64 := by
      by_contra hover
      exact hoverflow ⟨by omega, hblock, by omega⟩
    rw [if_neg hshort, Eval.add_of_lt hfits]
    simp only [Eval.bind]
    by_cases hstop : position + 16 + leAt bytes (position + 8) 8 ≤ bytes.length
    · rw [if_pos hstop]
      refine ⟨values, ?_⟩
      rw [if_neg (by omega)]
    · rw [if_neg hstop]
      refine ⟨.notEnoughBytes bytes.length (position + 16 + leAt bytes (position + 8) 8), ?_⟩
      rw [if_pos (by omega)]
  · exact legacyLoop_flat checks fuel values hlength hposition hblock

/-- The loop over flat entries panics where the walk comes upon an overflow. -/
theorem legacyLoop_panics_iff {fuel : ℕ} {values : List AuxValue} (hlength : bytes.length < 2 ^ 32)
    (hposition : position ≤ bytes.length) (hfuel : bytes.length < position + fuel) :
    legacyLoop true fuel values ⟨bytes, position⟩ ≠ .panic ↔
      ∀ there, Walk (legacyNext bytes) position there → ¬ LegacyOverflow bytes there := by
  induction fuel generalizing position values with
  | zero => omega
  | succ fuel ih =>
    rw [walk_forall_iff]
    by_cases hend : bytes.length < position + 4
    · have hnone : legacyNext bytes position = none := by
        unfold legacyNext
        rw [if_pos hend]
      have hloop : legacyLoop true (fuel + 1) values ⟨bytes, position⟩ = .ok values := by
        rw [legacyLoop, Eval.add_of_lt (by dsimp only; omega)]
        simp only [Eval.ok_bind]
        rw [if_pos hend]
        rfl
      rw [hnone, hloop]
      simp only [LegacyOverflow]
      constructor
      · intro _
        exact ⟨by omega, nofun⟩
      · nofun
    by_cases hoverflow : LegacyOverflow bytes position
    · have hpanic : legacyLoop true (fuel + 1) values ⟨bytes, position⟩ = .panic := by
        obtain ⟨hinside, hblock, hover⟩ := hoverflow
        rw [legacyLoop_block true fuel values hlength (by omega) hblock, if_neg (by omega),
          Eval.add_checked_of_le hover]
        rfl
      constructor
      · intro h
        exact absurd hpanic h
      · intro h
        exact absurd hoverflow h.1
    have hstep := legacyLoop_step true fuel values hlength (by omega) hoverflow
    cases hnext : legacyNext bytes position with
    | none =>
      rw [hnext] at hstep
      obtain ⟨error, herror⟩ := hstep
      rw [herror]
      constructor
      · intro _
        exact ⟨hoverflow, nofun⟩
      · nofun
    | some next =>
      rw [hnext] at hstep
      obtain ⟨values', hvalues⟩ := hstep
      have hbounds := legacyNext_bounds hnext
      rw [hvalues, ih hbounds.2 (by omega)]
      constructor
      · intro h
        refine ⟨hoverflow, ?_⟩
        intro here hhere
        cases hhere
        exact h
      · intro h
        exact h.2 next rfl

/-- The loop over flat entries returns where the walk comes to the end. -/
theorem legacyLoop_returns_iff {fuel : ℕ} {values : List AuxValue} (hlength : bytes.length < 2 ^ 32)
    (hposition : position ≤ bytes.length) (hfuel : bytes.length < position + fuel)
    (hsound : ∀ there, Walk (legacyNext bytes) position there → ¬ LegacyOverflow bytes there) :
    (∃ result, legacyLoop true fuel values ⟨bytes, position⟩ = .ok result) ↔
      ∃ there, Walk (legacyNext bytes) position there ∧ bytes.length < there + 4 := by
  induction fuel generalizing position values with
  | zero => omega
  | succ fuel ih =>
    rw [walk_exists_iff]
    rw [walk_forall_iff] at hsound
    by_cases hend : bytes.length < position + 4
    · have hloop : legacyLoop true (fuel + 1) values ⟨bytes, position⟩ = .ok values := by
        rw [legacyLoop, Eval.add_of_lt (by dsimp only; omega)]
        simp only [Eval.ok_bind]
        rw [if_pos hend]
        rfl
      exact iff_of_true ⟨values, hloop⟩ (Or.inl hend)
    have hstep := legacyLoop_step true fuel values hlength (by omega) hsound.1
    cases hnext : legacyNext bytes position with
    | none =>
      rw [hnext] at hstep
      obtain ⟨error, herror⟩ := hstep
      rw [herror]
      simp [hend]
    | some next =>
      rw [hnext] at hstep
      obtain ⟨values', hvalues⟩ := hstep
      have hbounds := legacyNext_bounds hnext
      rw [hvalues, ih hbounds.2 (by omega) (hsound.2 next hnext)]
      simp [hend]

/-- One round of the loop over the keys and values. -/
theorem pairLoop_step {bodyEnd : ℕ} (fuel : ℕ) (values : List AuxValue)
    (hposition : position < bodyEnd) :
    match pairNext bytes bodyEnd position with
    | some next => position + 8 ≤ next ∧ next ≤ bytes.length ∧
        ∃ values', pairLoop bodyEnd (fuel + 1) values ⟨bytes, position⟩ =
          pairLoop bodyEnd fuel values' ⟨bytes, next⟩
    | none => ∃ error, pairLoop bodyEnd (fuel + 1) values ⟨bytes, position⟩ = .err error := by
  have hkey := parsePrimitive_eq bytes position
  unfold pairNext
  rw [pairLoop, if_neg (by omega), if_pos hposition]
  cases hkeySize : primitiveSize (bytes.drop position) with
  | none =>
    rw [hkeySize] at hkey
    obtain ⟨error, herror⟩ := hkey
    exact ⟨error, by simp [herror]⟩
  | some keySize =>
    rw [hkeySize] at hkey
    obtain ⟨key, hkeyOk⟩ := hkey
    have hkeyBound := primitiveSize_ge hkeySize
    rw [List.length_drop] at hkeyBound
    have hvalue := parsePrimitive_eq bytes (position + keySize)
    rw [Option.bind_some]
    cases hsize : primitiveSize (bytes.drop (position + keySize)) with
    | none =>
      rw [hsize] at hvalue
      obtain ⟨error, herror⟩ := hvalue
      exact ⟨error, by simp [hkeyOk, herror]⟩
    | some size =>
      rw [hsize] at hvalue
      obtain ⟨value, hvalueOk⟩ := hvalue
      have hbound := primitiveSize_ge hsize
      rw [List.length_drop] at hbound
      refine ⟨?_, ?_, values ++ [value], ?_⟩
      · dsimp only
        omega
      · dsimp only
        omega
      · simp [hkeyOk, hvalueOk]

/-- The loop over keys and values never panics, and returns where the walk comes
to the end of the body. -/
theorem pairLoop_eq {bodyEnd fuel : ℕ} {values : List AuxValue}
    (hposition : position ≤ bytes.length) (hfuel : bytes.length < position + fuel) :
    pairLoop bodyEnd fuel values ⟨bytes, position⟩ ≠ .panic ∧
      ((∃ result, pairLoop bodyEnd fuel values ⟨bytes, position⟩ = .ok result) ↔
        ∃ there, Walk (pairNext bytes bodyEnd) position there ∧ bodyEnd ≤ there) := by
  induction fuel generalizing position values with
  | zero => omega
  | succ fuel ih =>
    rw [walk_exists_iff]
    by_cases hinside : position < bodyEnd
    · have hstep := @pairLoop_step bytes position bodyEnd fuel values hinside
      cases hnext : pairNext bytes bodyEnd position with
      | none =>
        rw [hnext] at hstep
        obtain ⟨error, herror⟩ := hstep
        rw [herror]
        simp [Nat.not_le.mpr hinside]
      | some next =>
        rw [hnext] at hstep
        obtain ⟨hlower, hupper, values', hvalues⟩ := hstep
        rw [hvalues]
        obtain ⟨hpanic, hreturns⟩ := @ih next values' hupper (by omega)
        refine ⟨hpanic, ?_⟩
        rw [hreturns]
        simp [Nat.not_le.mpr hinside]
    · have hloop : pairLoop bodyEnd (fuel + 1) values ⟨bytes, position⟩ = .ok values := by
        rw [pairLoop, if_neg hinside]
        rfl
      rw [hloop]
      exact ⟨nofun, iff_of_true ⟨values, rfl⟩ (Or.inl (by omega))⟩

/-- The four words in front of the flat entries. -/
theorem parseLegacyBytes_eq (checks : Bool) (hlength : 16 ≤ bytes.length) :
    ∃ header, parseLegacyBytes checks bytes =
      (legacyLoop checks (bytes.length + 1) [] ⟨bytes, 16⟩).bind fun values =>
        .ok ⟨header, values⟩ := by
  have hwords : ∀ position, position + 4 ≤ 16 → Cursor.readWord 4 ⟨bytes, position⟩ =
      .ok (leAt bytes position 4, ⟨bytes, position + 4⟩) := by
    intro position hposition
    exact readWord_of_le (by dsimp only; omega)
  refine ⟨⟨leAt bytes 0 4, leAt bytes 4 4, leAt bytes 8 4, leAt bytes 12 4⟩, ?_⟩
  unfold parseLegacyBytes
  rw [if_neg (by omega), hwords 0 (by omega)]
  simp only [Eval.ok_bind, Nat.zero_add]
  rw [hwords 4 (by omega)]
  simp only [Eval.ok_bind, Nat.reduceAdd]
  rw [hwords 8 (by omega)]
  simp only [Eval.ok_bind, Nat.reduceAdd]
  rw [hwords 12 (by omega)]
  rfl

theorem fromBytes_block (checks : Bool) {rest : List UInt8} (hbytes : bytes = 0xF0 :: rest)
    (hlength : 16 ≤ bytes.length) :
    Aux.fromBytes checks bytes =
      (Eval.add 64 checks 16 (bodyLen bytes)).bind fun bodyEnd =>
        if bytes.length < bodyEnd then .err (.notEnoughBytes bytes.length bodyEnd)
        else (pairLoop bodyEnd (bytes.length + 1) [] ⟨bytes, 16⟩).bind fun values =>
          .ok ⟨{}, values⟩ := by
  have hfirst := @readWord_of_le ⟨bytes, 0⟩ 4 (by dsimp only; omega)
  have hsecond := @readWord_of_le ⟨bytes, 4⟩ 4 (by dsimp only; omega)
  have hthird := @readWord_of_le ⟨bytes, 8⟩ 8 (by dsimp only; omega)
  unfold Aux.fromBytes
  subst hbytes
  dsimp only at hfirst hsecond hthird ⊢
  rw [if_neg (by decide), if_neg (by omega), hfirst]
  simp only [Eval.ok_bind, Nat.zero_add]
  rw [hsecond]
  simp only [Eval.ok_bind, Nat.reduceAdd]
  rw [hthird]
  rfl

theorem bind_ne_panic_iff {α β : Type} {first : Eval ReadError α} {next : α → β} :
    (first.bind fun value => .ok (next value)) ≠ .panic ↔ first ≠ .panic := by
  cases first with
  | ok value => simp [Eval.bind]
  | err error => simp [Eval.bind]
  | panic => simp [Eval.bind]

theorem bind_returns_iff {α β : Type} {first : Eval ReadError α} {next : α → β} :
    (∃ result, (first.bind fun value => .ok (next value)) = .ok result) ↔
      ∃ value, first = .ok value := by
  cases first with
  | ok value => simp [Eval.bind]
  | err error => simp [Eval.bind]
  | panic => simp [Eval.bind]

/-- `Aux::from_bytes` panics on overflow alone, and returns whole entries alone. -/
theorem fromBytes_eq (hlength : bytes.length < 2 ^ 32) :
    (Aux.fromBytes true bytes ≠ .panic ↔ AuxSound bytes) ∧
      (AuxSound bytes → ((∃ aux, Aux.fromBytes true bytes = .ok aux) ↔ AuxWhole bytes)) := by
  cases hbytes : bytes with
  | nil => simp [Aux.fromBytes, AuxSound, AuxWhole]
  | cons first rest =>
    rw [← hbytes]
    have hne : bytes ≠ [] := by simp [hbytes]
    by_cases hshort : bytes.length < 16
    · have herr : ∃ error, Aux.fromBytes true bytes = .err error := by
        rw [hbytes] at hshort ⊢
        unfold Aux.fromBytes parseLegacyBytes
        simp only [if_pos hshort]
        split
        · exact ⟨_, rfl⟩
        · exact ⟨_, rfl⟩
      obtain ⟨error, herr⟩ := herr
      rw [herr]
      simp [AuxSound, AuxWhole, hne, Nat.not_le.mpr hshort]
    have hlong : 16 ≤ bytes.length := by omega
    by_cases hblock : first = 0xF0
    · have hhead : bytes.head? = some 0xF0 := by simp [hbytes, hblock]
      simp only [AuxSound, AuxWhole, hlong, hhead, if_true, hne, true_implies, true_and, false_or]
      rw [fromBytes_block true (hblock ▸ hbytes) hlong]
      by_cases hover : 16 + bodyLen bytes < 2 ^ 64
      · rw [Eval.add_of_lt hover]
        simp only [Eval.bind, hover, true_implies]
        by_cases hbody : bytes.length < 16 + bodyLen bytes
        · simp [hbody, Nat.not_le.mpr hbody]
        · obtain ⟨hpanic, hreturns⟩ := @pairLoop_eq bytes 16 (16 + bodyLen bytes)
            (bytes.length + 1) [] hlong (by omega)
          rw [if_neg hbody]
          simp only [Nat.not_lt.mp hbody, true_and]
          refine ⟨iff_of_true (bind_ne_panic_iff.mpr hpanic) trivial, ?_⟩
          rw [← hreturns]
          exact bind_returns_iff
      · rw [Eval.add_checked_of_le (Nat.not_lt.mp hover)]
        exact ⟨iff_of_false (by simp [Eval.bind]) hover, fun h => absurd h hover⟩
    · have hhead : bytes.head? ≠ some 0xF0 := by simp [hbytes, hblock]
      have hlegacy : Aux.fromBytes true bytes = parseLegacyBytes true bytes := by
        have hfirst : first.toNat ≠ 0xF0 := by
          intro heq
          exact hblock (UInt8.toNat_inj.mp heq)
        rw [hbytes]
        unfold Aux.fromBytes
        simp only [hfirst, ne_eq, not_false_eq_true, if_true]
      obtain ⟨header, heq⟩ := parseLegacyBytes_eq true hlong
      simp only [AuxSound, AuxWhole, hlong, hhead, if_false, hne, true_implies, true_and, false_or]
      rw [hlegacy, heq]
      have hfuel : bytes.length < 16 + (bytes.length + 1) := by omega
      constructor
      · rw [← @legacyLoop_panics_iff bytes 16 (bytes.length + 1) [] hlength hlong hfuel]
        exact bind_ne_panic_iff
      · intro hsound
        rw [← @legacyLoop_returns_iff bytes 16 (bytes.length + 1) [] hlength hlong hfuel hsound]
        exact bind_returns_iff

end Aux

section Packet

variable {packet : List UInt8}

/-- A word of four bytes. -/
theorem leAt_four_lt (bytes : List UInt8) (start : ℕ) : leAt bytes start 4 < 2 ^ 32 := by
  have hlt := leAt_lt bytes start 4
  omega

theorem slice_eq (data : List UInt8) {start stop : ℕ} (h : start ≤ stop) (hstop : stop ≤ data.length) :
    (slice data start stop : Eval ReadError _) = .ok ((data.drop start).take (stop - start)) := by
  unfold slice
  rw [if_pos ⟨h, hstop⟩, List.drop_take]

theorem slice_panic {data : List UInt8} {start stop : ℕ} (h : data.length < stop) :
    (slice data start stop : Eval ReadError _) = .panic := by
  unfold slice
  rw [if_neg (by omega)]

theorem parseData_panics_iff (archive : Archive) (header : MessageHeader) (pheader : PayloadHeader)
    (aux : Option Aux) (haux : pheader.auxLength < 2 ^ 32) (htotal : pheader.totalLength < 2 ^ 32) :
    parseData true archive header packet pheader aux ≠ .panic ↔
      pheader.auxLength ≤ pheader.totalLength ∧ pheader.auxLength + 16 < 2 ^ 32 ∧
        16 + pheader.totalLength ≤ packet.length := by
  unfold parseData
  by_cases hsub : pheader.auxLength ≤ pheader.totalLength
  · rw [Eval.sub_of_le hsub, Eval.ok_bind]
    by_cases hadd : pheader.auxLength + 16 < 2 ^ 32
    · have hstop : pheader.auxLength + 16 + (pheader.totalLength - pheader.auxLength) =
          16 + pheader.totalLength := by omega
      rw [Eval.add_of_lt hadd, Eval.ok_bind, Eval.add_of_lt (by omega), Eval.ok_bind,
        Eval.add_of_lt (by omega), Eval.ok_bind, hstop]
      by_cases hinside : 16 + pheader.totalLength ≤ packet.length
      · rw [slice_eq packet (by omega) hinside, Eval.ok_bind]
        refine iff_of_true ?_ ⟨hsub, hadd, hinside⟩
        split
        · intro hpanic
          cases hpanic
        · split
          · intro hpanic
            cases hpanic
          · intro hpanic
            cases hpanic
      · rw [slice_panic (by omega)]
        exact iff_of_false (by simp) (fun h => hinside h.2.2)
    · rw [Eval.add_checked_of_le (Nat.not_lt.mp hadd)]
      exact iff_of_false (by simp) (fun h => hadd h.2.1)
  · rw [Eval.sub_checked_of_lt (Nat.not_le.mp hsub)]
    exact iff_of_false (by simp) (fun h => hsub h.1)

theorem parsePacket_eq (checks : Bool) (archive : Archive) (header : MessageHeader)
    (hlength : 16 ≤ packet.length) :
    ∃ pheader : PayloadHeader, pheader.auxLength = auxLength packet ∧
      pheader.totalLength = totalLength packet ∧
      parsePacket checks archive header packet =
        if 0 < pheader.auxLength then
          (slice packet 16 (16 + pheader.auxLength)).bind fun buf =>
            (Aux.fromBytes checks buf).bind fun aux =>
              parseData checks archive header packet pheader (some aux)
        else parseData checks archive header packet pheader none := by
  have haux : (PayloadHeader.parse (packet.take 16)).auxLength = auxLength packet :=
    leAt_take packet (by omega)
  have htotal : (PayloadHeader.parse (packet.take 16)).totalLength = totalLength packet :=
    leAt_take packet (by omega)
  refine ⟨PayloadHeader.parse (packet.take 16), haux, htotal, ?_⟩
  have hlt := leAt_four_lt packet 4
  change auxLength packet < 2 ^ 32 at hlt
  unfold parsePacket
  rw [slice_eq packet (Nat.zero_le 16) hlength, List.drop_zero]
  simp only [Eval.ok_bind, Nat.sub_zero]
  generalize PayloadHeader.parse (packet.take 16) = pheader at haux ⊢
  by_cases hpos : 0 < pheader.auxLength
  · rw [if_pos hpos, if_pos hpos, Eval.add_of_lt (by omega), Eval.ok_bind]
    cases (slice packet 16 (16 + pheader.auxLength) : Eval ReadError (List UInt8)) with
    | ok buf =>
      rw [Eval.ok_bind]
      cases hresult : Aux.fromBytes checks buf with
      | ok aux => simp [Eval.bind, hresult]
      | err error => simp [Eval.bind, hresult]
      | panic => simp [Eval.bind, hresult]
    | err error => rfl
    | panic => rfl
  · rw [if_neg hpos, if_neg hpos]
    rfl

/-- A packet is parsed without a panic if its lengths fit. -/
theorem parsePacket_panics_iff (archive : Archive) (header : MessageHeader) :
    parsePacket true archive header packet ≠ .panic ↔ PacketSound packet := by
  by_cases hlength : 16 ≤ packet.length
  · obtain ⟨pheader, haux, htotal, heq⟩ := parsePacket_eq true archive header hlength
    have hauxLt : auxLength packet < 2 ^ 32 := leAt_four_lt packet 4
    have htotalLt : totalLength packet < 2 ^ 32 := leAt_four_lt packet 8
    have hdata : ∀ aux, parseData true archive header packet pheader aux ≠ .panic ↔
        auxLength packet ≤ totalLength packet ∧ auxLength packet + 16 < 2 ^ 32 ∧
          16 + totalLength packet ≤ packet.length := by
      intro aux
      rw [← haux, ← htotal]
      exact parseData_panics_iff archive header pheader aux (by omega) (by omega)
    rw [heq, haux]
    by_cases hpos : 0 < auxLength packet
    · rw [if_pos hpos]
      by_cases hinside : 16 + auxLength packet ≤ packet.length
      · have hlt : (auxBytes packet).length < 2 ^ 32 :=
          Nat.lt_of_le_of_lt (List.length_take_le _ _) hauxLt
        obtain ⟨hpanic, hreturns⟩ := fromBytes_eq hlt
        have hslice : (slice packet 16 (16 + auxLength packet) : Eval ReadError _) =
            .ok (auxBytes packet) := by
          rw [slice_eq packet (by omega) hinside, Nat.add_sub_cancel_left]
          rfl
        rw [hslice]
        simp only [Eval.bind]
        cases hresult : Aux.fromBytes true (auxBytes packet) with
        | ok aux =>
          have hsound := hpanic.mp (by rw [hresult]; nofun)
          have hwhole := (hreturns hsound).mp ⟨aux, hresult⟩
          rw [hdata]
          constructor
          · intro hfits
            exact ⟨hlength, fun _ => ⟨hinside, hsound⟩, fun _ => hfits⟩
          · intro hpacket
            exact hpacket.data fun _ => hwhole
        | err error =>
          have hsound := hpanic.mp (by rw [hresult]; nofun)
          have htorn : ¬ AuxWhole (auxBytes packet) := by
            intro hwhole
            obtain ⟨aux, haux⟩ := (hreturns hsound).mpr hwhole
            rw [hresult] at haux
            cases haux
          refine iff_of_true nofun ⟨hlength, fun _ => ⟨hinside, hsound⟩, ?_⟩
          intro hwhole
          exact absurd (hwhole hpos) htorn
        | panic =>
          refine iff_of_false (by simp) ?_
          intro hpacket
          exact hpanic.mpr (hpacket.aux hpos).2 hresult
      · rw [slice_panic (by omega)]
        refine iff_of_false (by simp [Eval.bind]) ?_
        intro hpacket
        exact hinside (hpacket.aux hpos).1
    · rw [if_neg hpos, hdata]
      constructor
      · intro hfits
        exact ⟨hlength, fun h => absurd h hpos, fun _ => hfits⟩
      · intro hpacket
        exact hpacket.data fun h => absurd h hpos
  · refine iff_of_false ?_ ?_
    · unfold parsePacket
      rw [slice_panic (by omega)]
      simp
    · intro hpacket
      exact hlength hpacket.header

end Packet

section Fragments

variable {packet stream : List UInt8}

/-- The header in front of a stream, unless its channel has no negative. -/
theorem parseHeader_eq (checks : Bool)
    (h : leAt stream 20 4 % 2 = 0 → wireChannel stream ≠ Int32.minValue) :
    ∃ header, parseHeader checks (stream.take 32) = .ok header ∧
      header.fragmentId = fragmentId stream ∧ header.fragmentCount = fragmentCount stream ∧
      header.length = fragmentLength stream := by
  have hfield : ∀ start width, start + width ≤ 32 →
      leAt (stream.take 32) start width = leAt stream start width :=
    fun start width => leAt_take stream
  have hchannel : wireChannel (stream.take 32) = wireChannel stream := by
    unfold wireChannel
    rw [hfield 24 4 (by omega)]
  unfold parseHeader
  rw [hchannel, hfield 20 4 (by omega), hfield 8 2 (by omega), hfield 10 2 (by omega),
    hfield 12 4 (by omega)]
  by_cases heven : leAt stream 20 4 % 2 = 0
  · have hnegate : negate checks (wireChannel stream) = .ok (-wireChannel stream) := by
      unfold negate
      rw [if_neg (fun hmin => h heven hmin.2)]
    rw [if_pos heven, hnegate]
    exact ⟨_, rfl, rfl, rfl, rfl⟩
  · rw [if_neg heven]
    exact ⟨_, rfl, rfl, rfl, rfl⟩

theorem parseHeader_panic (heven : leAt stream 20 4 % 2 = 0)
    (hmin : wireChannel stream = Int32.minValue) :
    parseHeader true (stream.take 32) = .panic := by
  have hchannel : wireChannel (stream.take 32) = wireChannel stream := by
    unfold wireChannel
    rw [leAt_take stream (by omega)]
  unfold parseHeader
  rw [hchannel, leAt_take stream (by omega), if_pos heven]
  unfold negate
  rw [if_pos ⟨rfl, hmin⟩]
  rfl

theorem readStream_of_le {count : ℕ} (h : count ≤ stream.length) :
    readStream count stream = .ok (stream.take count, stream.drop count) := if_pos h

theorem readStream_of_lt {count : ℕ} (h : stream.length < count) :
    readStream count stream = .err .socket := if_neg (Nat.not_le.mpr h)

/-- One round of the loop over the fragments, where the header can be read. -/
theorem readFragments_eq (fuel : ℕ) (hlength : 32 ≤ stream.length)
    (hchannel : leAt stream 20 4 % 2 = 0 → wireChannel stream ≠ Int32.minValue) :
    ∃ header, readFragments true (fuel + 1) packet stream =
      if Announces stream then readFragments true fuel packet (stream.drop 32)
      else if stream.length < 32 + fragmentLength stream then .err .socket
      else if fragmentCount stream = 0 then .panic
      else if fragmentId stream + 1 = fragmentCount stream then
        .ok (header, packet ++ fragmentPayload stream, stream.drop (32 + fragmentLength stream))
      else readFragments true fuel (packet ++ fragmentPayload stream)
        (stream.drop (32 + fragmentLength stream)) := by
  obtain ⟨header, hheader, hid, hcount, hlen⟩ := parseHeader_eq true hchannel
  refine ⟨header, ?_⟩
  rw [readFragments, readStream_of_le hlength]
  simp only [Eval.ok_bind, hheader, hid, hcount, hlen]
  by_cases hannounces : Announces stream
  · have hboth : 1 < fragmentCount stream ∧ fragmentId stream = 0 := hannounces
    rw [if_pos hboth, if_pos hannounces]
  have hnot : ¬ (1 < fragmentCount stream ∧ fragmentId stream = 0) := hannounces
  rw [if_neg hnot, if_neg hannounces]
  by_cases hshort : stream.length < 32 + fragmentLength stream
  · rw [if_pos hshort, readStream_of_lt (by rw [List.length_drop]; omega)]
    rfl
  rw [if_neg hshort, readStream_of_le (by rw [List.length_drop]; omega), Eval.ok_bind,
    List.drop_drop]
  by_cases hzero : fragmentCount stream = 0
  · rw [if_pos hzero, Eval.sub_checked_of_lt (by omega)]
    rfl
  rw [if_neg hzero, Eval.sub_of_le (by omega), Eval.ok_bind]
  by_cases hlast : fragmentId stream + 1 = fragmentCount stream
  · rw [if_pos hlast, if_pos (by omega)]
    rfl
  · rw [if_neg hlast, if_neg (by omega)]
    rfl

/-- Reading on from a fragment, with the payloads in front of it. -/
def readOn (archive : Archive) (fuel : ℕ) (packet stream : List UInt8) :
    Eval ReadError (Message × List UInt8) :=
  (readFragments true fuel packet stream).bind fun (header, packet, rest) =>
    (parsePacket true archive header packet).bind fun message => .ok (message, rest)

/-- The step of the walk, once the header of the fragment is there. -/
theorem fragmentNext_eq (hlength : 32 ≤ stream.length) :
    fragmentNext (packet, stream) =
      if Announces stream then some (packet, stream.drop 32)
      else if stream.length < 32 + fragmentLength stream then none
      else if fragmentId stream + 1 = fragmentCount stream then none
      else some (packet ++ fragmentPayload stream, stream.drop (32 + fragmentLength stream)) := by
  unfold fragmentNext
  simp only []
  rw [if_neg (Nat.not_lt.mpr hlength)]

theorem readOn_panics_iff (archive : Archive) {fuel : ℕ} (hfuel : stream.length < fuel) :
    readOn archive fuel packet stream ≠ .panic ↔
      ∀ place, Walk fragmentNext (packet, stream) place → 32 ≤ place.2.length →
        HeaderSound place.1 place.2 := by
  induction fuel generalizing packet stream with
  | zero => omega
  | succ fuel ih =>
    rw [walk_forall_iff]
    by_cases hlength : 32 ≤ stream.length
    case neg =>
      have hnone : fragmentNext (packet, stream) = none := by
        unfold fragmentNext
        simp only []
        rw [if_pos (by omega)]
      have herr : readOn archive (fuel + 1) packet stream = .err .socket := by
        unfold readOn
        rw [readFragments, readStream_of_lt (by omega)]
        rfl
      rw [herr, hnone]
      exact iff_of_true nofun ⟨fun h => absurd h hlength, nofun⟩
    by_cases hchannel : leAt stream 20 4 % 2 = 0 → wireChannel stream ≠ Int32.minValue
    case neg =>
      rw [Classical.not_imp, not_not] at hchannel
      have hpanic : readOn archive (fuel + 1) packet stream = .panic := by
        unfold readOn
        rw [readFragments, readStream_of_le hlength]
        simp only [Eval.ok_bind, parseHeader_panic hchannel.1 hchannel.2]
        rfl
      rw [hpanic]
      refine iff_of_false (by simp) ?_
      intro h
      exact (h.1 hlength).channel hchannel.1 hchannel.2
    obtain ⟨header, heq⟩ := @readFragments_eq packet stream fuel hlength hchannel
    rw [fragmentNext_eq hlength]
    unfold readOn
    rw [heq]
    by_cases hannounces : Announces stream
    · have hsound : HeaderSound packet stream :=
        ⟨hchannel, fun h => absurd hannounces h, fun h => absurd hannounces h⟩
      rw [if_pos hannounces, if_pos hannounces]
      have hrest := @ih packet (stream.drop 32) (by rw [List.length_drop]; omega)
      unfold readOn at hrest
      rw [hrest]
      simp [hsound]
    rw [if_neg hannounces, if_neg hannounces]
    by_cases hshort : stream.length < 32 + fragmentLength stream
    · have hsound : HeaderSound packet stream :=
        ⟨hchannel, fun _ h => absurd h (by omega), fun _ h => absurd h (by omega)⟩
      rw [if_pos hshort, if_pos hshort]
      exact iff_of_true nofun ⟨fun _ => hsound, nofun⟩
    rw [if_neg hshort, if_neg hshort]
    by_cases hzero : fragmentCount stream = 0
    · rw [if_pos hzero]
      refine iff_of_false (by simp [Eval.bind]) ?_
      intro h
      exact (h.1 hlength).count hannounces (Nat.not_lt.mp hshort) hzero
    rw [if_neg hzero]
    by_cases hlast : fragmentId stream + 1 = fragmentCount stream
    · rw [if_pos hlast, if_pos hlast]
      simp only [Eval.bind]
      have hpacket := @parsePacket_panics_iff (packet ++ fragmentPayload stream) archive header
      constructor
      · intro h
        have hsound : PacketSound (packet ++ fragmentPayload stream) :=
          hpacket.mp (bind_ne_panic_iff.mp h)
        exact ⟨fun _ => ⟨hchannel, fun _ _ => hzero, fun _ _ _ => hsound⟩, nofun⟩
      · intro h
        exact bind_ne_panic_iff.mpr
          (hpacket.mpr ((h.1 hlength).packet hannounces (Nat.not_lt.mp hshort) hlast))
    · have hsound : HeaderSound packet stream :=
        ⟨hchannel, fun _ _ => hzero, fun _ _ h => absurd h hlast⟩
      rw [if_neg hlast, if_neg hlast]
      have hrest := @ih (packet ++ fragmentPayload stream)
        (stream.drop (32 + fragmentLength stream)) (by rw [List.length_drop]; omega)
      unfold readOn at hrest
      rw [hrest]
      simp [hsound]

end Fragments

section Builds

theorem legacyLoop_agrees (fuel : ℕ) (values : List AuxValue) (cursor : Cursor) :
    Eval.Agrees fun checks => legacyLoop checks fuel values cursor := by
  induction fuel generalizing values cursor with
  | zero => exact Eval.agrees_const _
  | succ fuel ih =>
    simp only [legacyLoop]
    refine (Eval.agrees_add 64 _ _).bind fun next => ?_
    refine (Eval.agrees_const _).ite ?_
    refine (Eval.agrees_const _).bind fun ⟨auxType, cursor⟩ => ?_
    refine (ih values cursor).ite (.ite ?_ ?_)
    · refine (Eval.agrees_const _).bind fun ⟨_, cursor⟩ => ?_
      refine (Eval.agrees_const _).bind fun ⟨bodyLen, cursor⟩ => ?_
      refine (Eval.agrees_add 64 _ _).bind fun stop => ?_
      exact (Eval.agrees_const _).ite (ih values _)
    · refine (Eval.agrees_sub 64 _ _).bind fun start => ?_
      refine (Eval.agrees_const _).bind fun rest => ?_
      refine (Eval.agrees_const _).bind fun ⟨value, sub⟩ => ?_
      refine (Eval.agrees_add 64 _ _).bind fun stop => ?_
      exact ih _ _

theorem parseLegacyBytes_agrees (bytes : List UInt8) :
    Eval.Agrees fun checks => parseLegacyBytes checks bytes := by
  unfold parseLegacyBytes
  refine (Eval.agrees_const _).ite ?_
  refine (Eval.agrees_const _).bind fun ⟨_, cursor⟩ => ?_
  refine (Eval.agrees_const _).bind fun ⟨_, cursor⟩ => ?_
  refine (Eval.agrees_const _).bind fun ⟨_, cursor⟩ => ?_
  refine (Eval.agrees_const _).bind fun ⟨_, cursor⟩ => ?_
  exact (legacyLoop_agrees _ _ _).bind fun values => Eval.agrees_const _

theorem fromBytes_agrees (bytes : List UInt8) :
    Eval.Agrees fun checks => Aux.fromBytes checks bytes := by
  unfold Aux.fromBytes
  cases bytes with
  | nil => exact Eval.agrees_const _
  | cons first rest =>
    refine (parseLegacyBytes_agrees _).ite ((Eval.agrees_const _).ite ?_)
    refine (Eval.agrees_const _).bind fun ⟨_, cursor⟩ => ?_
    refine (Eval.agrees_const _).bind fun ⟨_, cursor⟩ => ?_
    refine (Eval.agrees_const _).bind fun ⟨bodyLen, cursor⟩ => ?_
    refine (Eval.agrees_add 64 _ _).bind fun bodyEnd => ?_
    exact Eval.agrees_const _

theorem parseData_agrees (archive : Archive) (header : MessageHeader) (packet : List UInt8)
    (pheader : PayloadHeader) (aux : Option Aux) :
    Eval.Agrees fun checks => parseData checks archive header packet pheader aux := by
  unfold parseData
  refine (Eval.agrees_sub 32 _ _).bind fun needLen => ?_
  refine (Eval.agrees_add 32 _ _).bind fun start => ?_
  refine (Eval.agrees_add 64 _ _).bind fun stop => ?_
  refine (Eval.agrees_add 64 _ _).bind fun stop => ?_
  exact Eval.agrees_const _

theorem parsePacket_agrees (archive : Archive) (header : MessageHeader) (packet : List UInt8) :
    Eval.Agrees fun checks => parsePacket checks archive header packet := by
  unfold parsePacket
  refine (Eval.agrees_const _).bind fun buf => ?_
  dsimp only
  refine Eval.Agrees.ite ?_ ?_
  · refine (Eval.agrees_add 64 _ _).bind fun stop => ?_
    refine (Eval.agrees_const _).bind fun buf => ?_
    refine (fromBytes_agrees buf).bind fun aux => ?_
    exact (Eval.agrees_const _).bind fun aux => parseData_agrees archive header packet _ aux
  · exact (Eval.agrees_const _).bind fun aux => parseData_agrees archive header packet _ aux

theorem negate_agrees (channel : Int32) : Eval.Agrees fun checks => negate checks channel := by
  intro h
  dsimp only at h ⊢
  unfold negate at h ⊢
  by_cases hmin : channel = Int32.minValue
  · exact absurd (if_pos ⟨rfl, hmin⟩) h
  · rw [if_neg (by simp), if_neg (fun hboth => hmin hboth.2)]

theorem parseHeader_agrees (buf : List UInt8) : Eval.Agrees fun checks => parseHeader checks buf := by
  unfold parseHeader
  dsimp only
  refine Eval.Agrees.ite ?_ (Eval.agrees_const _)
  exact (negate_agrees _).bind fun channel => Eval.agrees_const _

theorem readFragments_agrees (fuel : ℕ) (packet stream : List UInt8) :
    Eval.Agrees fun checks => readFragments checks fuel packet stream := by
  induction fuel generalizing packet stream with
  | zero => exact Eval.agrees_const _
  | succ fuel ih =>
    simp only [readFragments]
    refine (Eval.agrees_const _).bind fun ⟨buf, stream⟩ => ?_
    refine (parseHeader_agrees buf).bind fun header => ?_
    refine (ih packet stream).ite ?_
    refine (Eval.agrees_const _).bind fun ⟨buf, stream⟩ => ?_
    refine (Eval.agrees_sub 16 _ _).bind fun last => ?_
    exact (Eval.agrees_const _).ite (ih _ _)

theorem fromReader_agrees (archive : Archive) (stream : List UInt8) :
    Eval.Agrees fun checks => Message.fromReader checks archive stream := by
  unfold Message.fromReader
  refine (readFragments_agrees _ _ _).bind fun ⟨header, packet, rest⟩ => ?_
  exact (parsePacket_agrees archive header packet).bind fun message => Eval.agrees_const _

end Builds

/-- Reading a message panics in no build if every header that is reached in the
stream, and the packet that the last one ends, can be computed with. -/
theorem fromReader_never_panics_iff (archive : Archive) (stream : List UInt8) :
    (∀ checks, Message.fromReader checks archive stream ≠ .panic) ↔ StreamSound stream := by
  rw [(fromReader_agrees archive stream).forall_ne_panic]
  exact readOn_panics_iff archive (Nat.lt_succ_self stream.length)

/-- A single fragment without a payload. -/
def emptyFragment : List UInt8 :=
  [0x79, 0x5b, 0x3d, 0x1f, 32, 0, 0, 0, 0, 0, 1, 0] ++ List.replicate 20 0

theorem emptyFragment_panics :
    ¬ ∀ archive stream checks, Message.fromReader checks archive stream ≠ .panic := by
  intro h
  exact h (fun _ => none) emptyFragment false rfl

end XitForge.Dvt
