import XitForge.RustEval
import Mathlib.Algebra.Order.Group.Nat
import Mathlib.Data.List.Basic

/-!
Slices of a text by offsets in its bytes. An offset inside of a character panics, as one past
the end does.
-/
namespace XitForge.StrSlice

open RustEval

variable {ε : Type}

/-- `str::len`. -/
def byteLength : List Char → ℕ
  | [] => 0
  | c :: rest => c.utf8Size + byteLength rest

/-- The text before an offset and the text behind it. -/
def splitAtByte : List Char → ℕ → Option (List Char × List Char)
  | text, 0 => some ([], text)
  | [], _ + 1 => none
  | c :: rest, n + 1 =>
    if c.utf8Size ≤ n + 1 then
      (splitAtByte rest (n + 1 - c.utf8Size)).map fun parts => (c :: parts.1, parts.2)
    else none

/-- `&text[start..stop]`. -/
def slice (text : List Char) (start stop : ℕ) : Eval ε (List Char) :=
  if start ≤ stop then
    match splitAtByte text start with
    | none => .panic
    | some (_, rest) =>
      match splitAtByte rest (stop - start) with
      | none => .panic
      | some (piece, _) => .ok piece
  else .panic

theorem byteLength_append (front rest : List Char) :
    byteLength (front ++ rest) = byteLength front + byteLength rest := by
  induction front with
  | nil => rw [List.nil_append, byteLength, Nat.zero_add]
  | cons c front ih => rw [List.cons_append, byteLength, ih, byteLength, Nat.add_assoc]

theorem byteLength_eq_zero {text : List Char} (h : byteLength text = 0) : text = [] := by
  cases text with
  | nil => rfl
  | cons c rest =>
    have hpos := c.utf8Size_pos
    rw [byteLength] at h
    omega

/-- A text is cut behind its front. -/
theorem splitAtByte_append (front rest : List Char) :
    splitAtByte (front ++ rest) (byteLength front) = some (front, rest) := by
  induction front with
  | nil =>
    rw [List.nil_append, byteLength]
    cases rest <;> rfl
  | cons c front ih =>
    have hpos := c.utf8Size_pos
    obtain ⟨n, hn⟩ := Nat.exists_eq_add_of_lt hpos
    have hlength : byteLength (c :: front) = (n + byteLength front) + 1 := by
      rw [byteLength]
      omega
    have hrest : n + byteLength front + 1 - c.utf8Size = byteLength front := by omega
    rw [List.cons_append, hlength, splitAtByte, if_pos (by omega), hrest, ih]
    rfl

/-- A slice behind a front is cut out of what is behind it. -/
theorem slice_behind (front rest : List Char) (count : ℕ) :
    (slice (front ++ rest) (byteLength front) (byteLength front + count) : Eval ε (List Char)) =
      match splitAtByte rest count with
      | none => .panic
      | some (piece, _) => .ok piece := by
  unfold slice
  rw [if_pos (Nat.le_add_right _ _), splitAtByte_append, Nat.add_sub_cancel_left]

theorem slice_append (front piece rest : List Char) :
    (slice (front ++ (piece ++ rest)) (byteLength front) (byteLength front + byteLength piece) :
      Eval ε (List Char)) = .ok piece := by
  rw [slice_behind, splitAtByte_append]

theorem utf8Size_eq_one {c : Char} (h : c.toNat < 0x80) : c.utf8Size = 1 := by
  apply Char.utf8Size_eq_one_iff.mpr
  change c.val.toNat ≤ 0x7F
  change c.val.toNat < 0x80 at h
  omega

end XitForge.StrSlice
