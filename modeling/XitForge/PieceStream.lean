import XitForge.ByteStream

/-!
A byte stream in the pieces a socket has it in. A read returns the bytes that are there,
at most as many as the buffer holds, and leaves the others; it returns nothing only at
the end of the stream.
-/
namespace XitForge.PieceStream

open ByteStream

/-- Bytes that are there at once. -/
structure Piece where
  bytes : Bytes
  ne_nil : bytes ≠ []

/-- The stream, however it is cut. -/
def content (pieces : List Piece) : Bytes := pieces.flatMap Piece.bytes

/-- A read into a buffer of that many bytes. -/
def read (capacity : ℕ) : List Piece → Bytes × List Piece
  | [] => ([], [])
  | piece :: rest =>
    (piece.bytes.take capacity,
      if h : piece.bytes.drop capacity = [] then rest else ⟨piece.bytes.drop capacity, h⟩ :: rest)

variable {capacity : ℕ} {pieces : List Piece}

@[simp] theorem content_cons (piece : Piece) (rest : List Piece) :
    content (piece :: rest) = piece.bytes ++ content rest := List.flatMap_cons

theorem content_eq_nil : content pieces = [] ↔ pieces = [] := by
  cases pieces with
  | nil => simp [content]
  | cons piece rest =>
    rw [content_cons]
    simp [piece.ne_nil]

/-- A read takes its bytes off the front. -/
theorem read_append (capacity : ℕ) (pieces : List Piece) :
    (read capacity pieces).1 ++ content (read capacity pieces).2 = content pieces := by
  cases pieces with
  | nil => rfl
  | cons piece rest =>
    unfold read
    dsimp only
    by_cases h : piece.bytes.drop capacity = []
    · rw [dif_pos h, content_cons, List.take_of_length_le (List.drop_eq_nil_iff.mp h)]
    · rw [dif_neg h, content_cons, content_cons, ← List.append_assoc, List.take_append_drop]

theorem read_eq_nil (hcapacity : 0 < capacity) :
    (read capacity pieces).1 = [] ↔ pieces = [] := by
  cases pieces with
  | nil => simp [read]
  | cons piece rest =>
    simp only [read, List.take_eq_nil_iff, piece.ne_nil, reduceCtorEq, iff_false, or_false]
    omega

/-- A piece that fits into the buffer is read whole. -/
theorem read_whole {piece : Piece} {rest : List Piece} (h : piece.bytes.length ≤ capacity) :
    read capacity (piece :: rest) = (piece.bytes, rest) := by
  show (piece.bytes.take capacity, _) = _
  rw [List.take_of_length_le h, dif_pos (List.drop_of_length_le h)]

/-- A read that returns something leaves a shorter stream. -/
theorem length_content_read (h : (read capacity pieces).1 ≠ []) :
    (content (read capacity pieces).2).length < (content pieces).length := by
  have hlength := congrArg List.length (read_append capacity pieces)
  rw [List.length_append] at hlength
  have hpos := List.length_pos_iff.mpr h
  omega

end XitForge.PieceStream
