import XitForge.ByteStream
import XitForge.RustEval

/-!
Reads and writes of a slice of bytes at offsets that the reader computes. An index past
the end panics, and `get` of a range past the end is `None`.
-/
namespace XitForge.RustSlice

open ByteStream RustEval

variable {ε : Type}

/-- `data[i]`. -/
def index (data : Bytes) (i : ℕ) : Eval ε UInt8 :=
  match data[i]? with
  | some byte => .ok byte
  | none => .panic

/-- `[data[i], data[i + 1], ..]`. -/
def indices (data : Bytes) (i : ℕ) : ℕ → Eval ε Bytes
  | 0 => .ok []
  | count + 1 => do
    let byte ← index data i
    let rest ← indices data (i + 1) count
    .ok (byte :: rest)

/-- `data.get(start..stop)`. -/
def getRange (data : Bytes) (start stop : ℕ) : Option Bytes :=
  if start ≤ stop ∧ stop ≤ data.length then some ((data.take stop).drop start) else none

/-- `&data[start..stop]`. -/
def slice (data : Bytes) (start stop : ℕ) : Eval ε Bytes :=
  if start ≤ stop ∧ stop ≤ data.length then .ok ((data.take stop).drop start) else .panic

/-- `&data[start..]`. -/
def sliceFrom (data : Bytes) (start : ℕ) : Eval ε Bytes :=
  if start ≤ data.length then .ok (data.drop start) else .panic

/-- `data[i..i + piece.len()].copy_from_slice(piece)`. -/
def copyInto (data : Bytes) (i : ℕ) (piece : Bytes) : Eval ε Bytes :=
  if i + piece.length ≤ data.length then
    .ok (data.take i ++ piece ++ data.drop (i + piece.length))
  else .panic

/-- `data.get(start..stop)?` in a function that returns an `Option`. -/
def tryRange (data : Bytes) (start stop : ℕ) : Eval Unit Bytes :=
  match getRange data start stop with
  | some piece => .ok piece
  | none => .err ()

variable {data : Bytes}

theorem index_append (front : Bytes) (byte : UInt8) (rest : Bytes) :
    (index (front ++ byte :: rest) front.length : Eval ε UInt8) = .ok byte := by
  unfold index
  rw [List.getElem?_append_right (Nat.le_refl _), Nat.sub_self, List.getElem?_cons_zero]

/-- An index behind the front of a slice. -/
theorem index_append_right (front rest : Bytes) (i : ℕ) :
    (index (front ++ rest) (front.length + i) : Eval ε UInt8) = index rest i := by
  unfold index
  rw [List.getElem?_append_right (Nat.le_add_right _ _), Nat.add_sub_cancel_left]

/-- Indices in a piece of the slice return that piece. -/
theorem indices_append (front piece rest : Bytes) :
    (indices (front ++ piece ++ rest) front.length piece.length : Eval ε Bytes) = .ok piece := by
  induction piece generalizing front with
  | nil => rfl
  | cons byte piece ih =>
    have hmove : front ++ byte :: piece ++ rest = (front ++ [byte]) ++ piece ++ rest := by simp
    have hnext := ih (front ++ [byte])
    rw [← hmove, List.length_append, List.length_singleton] at hnext
    have hfirst : (index (front ++ byte :: piece ++ rest) front.length : Eval ε UInt8) =
        .ok byte := by
      rw [List.append_assoc]
      exact index_append front byte (piece ++ rest)
    rw [List.length_cons, indices, hfirst, Eval.ok_bind, hnext, Eval.ok_bind]

theorem indices_eq {i count : ℕ} (h : i + count ≤ data.length) :
    (indices data i count : Eval ε Bytes) = .ok ((data.drop i).take count) := by
  have hsplit : data = data.take i ++ (data.drop i).take count ++ (data.drop i).drop count := by
    rw [List.append_assoc, List.take_append_drop, List.take_append_drop]
  have hread := @indices_append ε (data.take i) ((data.drop i).take count)
    ((data.drop i).drop count)
  rw [← hsplit, List.length_take_of_le (by omega), List.length_take_of_le (by
    rw [List.length_drop]; omega)] at hread
  exact hread

theorem index_eq {i : ℕ} (h : i < data.length) :
    (index data i : Eval ε UInt8) = .ok data[i] := by
  unfold index
  rw [List.getElem?_eq_getElem h]

theorem getRange_append (front piece rest : Bytes) :
    getRange (front ++ piece ++ rest) front.length (front.length + piece.length) = some piece := by
  unfold getRange
  rw [if_pos (by simp only [List.length_append]; omega), ← List.length_append, List.take_left,
    List.drop_left]

theorem getRange_eq_drop {start stop : ℕ} (h : start ≤ stop) (hstop : stop ≤ data.length) :
    getRange data start stop = some ((data.drop start).take (stop - start)) := by
  unfold getRange
  rw [if_pos ⟨h, hstop⟩, List.drop_take]

theorem slice_eq {start stop : ℕ} (h : start ≤ stop) (hstop : stop ≤ data.length) :
    (slice data start stop : Eval ε Bytes) = .ok ((data.drop start).take (stop - start)) := by
  unfold slice
  rw [if_pos ⟨h, hstop⟩, List.drop_take]

theorem slice_of_not {start stop : ℕ} (h : ¬ (start ≤ stop ∧ stop ≤ data.length)) :
    (slice data start stop : Eval ε Bytes) = .panic := if_neg h

theorem sliceFrom_eq {start : ℕ} (h : start ≤ data.length) :
    (sliceFrom data start : Eval ε Bytes) = .ok (data.drop start) := if_pos h

theorem slice_append (front piece rest : Bytes) :
    (slice (front ++ (piece ++ rest)) front.length (front.length + piece.length) : Eval ε Bytes) =
      .ok piece := by
  rw [slice_eq (Nat.le_add_right _ _) (by simp only [List.length_append]; omega), List.drop_left,
    Nat.add_sub_cancel_left, List.take_left]

/-- A range of the front of a slice. -/
theorem getRange_append_left {start stop : ℕ} (h : stop ≤ data.length) (behind : Bytes) :
    getRange (data ++ behind) start stop = getRange data start stop := by
  unfold getRange
  have hlength : stop ≤ (data ++ behind).length := by
    rw [List.length_append]
    omega
  rw [List.take_append_of_le_length h]
  simp only [h, hlength]

/-- A piece in the place of one of its length. -/
theorem copyInto_append {piece piece' : Bytes} (front rest : Bytes)
    (h : piece.length = piece'.length) :
    (copyInto (front ++ piece ++ rest) front.length piece' : Eval ε Bytes) =
      .ok (front ++ piece' ++ rest) := by
  unfold copyInto
  have hle : front.length + piece'.length ≤ (front ++ piece ++ rest).length := by
    simp only [List.length_append]
    omega
  rw [if_pos hle, ← h, ← List.length_append, List.drop_left, List.append_assoc front piece,
    List.take_left]

theorem tryRange_eq {start stop : ℕ} (h : start ≤ stop) :
    tryRange data start stop =
      if stop ≤ data.length then .ok ((data.drop start).take (stop - start)) else .err () := by
  unfold tryRange getRange
  by_cases hstop : stop ≤ data.length
  · rw [if_pos ⟨h, hstop⟩, if_pos hstop, List.drop_take]
  · rw [if_neg (by tauto), if_neg hstop]

/-- What is behind an offset, cut at a later one. -/
theorem drop_cut {start stop : ℕ} (h : start ≤ stop) :
    (data.drop start).take (stop - start) ++ data.drop stop = data.drop start := by
  have hstop : data.drop stop = (data.drop start).drop (stop - start) := by
    rw [List.drop_drop, Nat.add_sub_cancel' h]
  rw [hstop, List.take_append_drop]

end XitForge.RustSlice
