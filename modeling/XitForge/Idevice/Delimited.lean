import XitForge.Delimiters
import XitForge.PieceStream

/-!
`read_until_delim`, one call after the other on one buffer. A call that is dropped while
it waits for the socket has taken nothing off the stream that is not in the buffer.
-/
namespace XitForge.Idevice.Delimited

open ByteStream PieceStream Delimiters

/-- Why a call fails before it reads. -/
inductive IdeviceError where
  | noEstablishedConnection
  deriving DecidableEq, Repr

structure Delimiter where
  bytes : Bytes
  ne_nil : bytes ≠ []

/-- The connection and the caller's buffer. -/
structure Reader where
  buffer : Bytes
  socket : Option (List Piece)

/-- The bytes that `temp` holds. -/
def tempSize : ℕ := 1024

/-- The loop. The socket answers so many reads, and the call is dropped at the next one:
then it has no result. -/
def readLoop (delimiter : Delimiter) : ℕ → Bytes → List Piece →
    Option (Option Bytes) × Bytes × List Piece
  | reads, buffer, pieces =>
    match position delimiter.bytes buffer with
    | some pos =>
      let line := buffer.take (pos + delimiter.bytes.length)
      (some (some (line.take (line.length - delimiter.bytes.length))),
        buffer.drop (pos + delimiter.bytes.length), pieces)
    | none =>
      match reads with
      | 0 => (none, buffer, pieces)
      | reads + 1 =>
        let (temp, pieces) := read tempSize pieces
        if temp = [] then
          if buffer = [] then (some none, [], pieces) else (some (some buffer), [], pieces)
        else readLoop delimiter reads (buffer ++ temp) pieces

/-- A call that is dropped after so many reads, if it has not returned before. -/
def readUntilDelim (delimiter : Delimiter) (reads : ℕ) (reader : Reader) :
    Option (Except IdeviceError (Option Bytes)) × Reader :=
  match reader.socket with
  | some pieces =>
    let (result, buffer, pieces) := readLoop delimiter reads reader.buffer pieces
    (result.map .ok, ⟨buffer, some pieces⟩)
  | none => (some (.error .noEstablishedConnection), reader)

/-- Calls one after the other, and what those returned that were not dropped. -/
def calls (delimiter : Delimiter) : List ℕ → Reader → List (Except IdeviceError (Option Bytes))
  | [], _ => []
  | reads :: rest, reader =>
    (readUntilDelim delimiter reads reader).1.toList ++
      calls delimiter rest (readUntilDelim delimiter reads reader).2

/-- The lines of a stream: the segments and the remainder if there is one. -/
def linesOf (segments : List Bytes) (last : Bytes) : List Bytes :=
  segments ++ if last = [] then [] else [last]

section Calls

variable {delimiter : Delimiter} {reads : ℕ} {buffer : Bytes} {pieces : List Piece}

/-- What a call makes of the bytes that have not been returned. -/
def Cut (delimiter : Delimiter) (stream rest : Bytes) : Option (Option Bytes) → Prop
  | none => rest = stream
  | some none => stream = [] ∧ rest = []
  | some (some line) =>
    (∃ pos, Leftmost delimiter.bytes stream pos ∧ line = stream.take pos ∧
      rest = stream.drop (pos + delimiter.bytes.length)) ∨
    (∀ i, ¬ Occurs delimiter.bytes stream i) ∧ stream ≠ [] ∧ line = stream ∧ rest = []

/-- A line that is in the buffer is the first one of the stream. -/
theorem cut_line {pos : ℕ} (h : position delimiter.bytes buffer = some pos) (behind : Bytes) :
    Cut delimiter (buffer ++ behind) (buffer.drop (pos + delimiter.bytes.length) ++ behind)
      (some (some ((buffer.take (pos + delimiter.bytes.length)).take
        ((buffer.take (pos + delimiter.bytes.length)).length - delimiter.bytes.length)))) := by
  have hfirst := position_eq_some h
  have hle := hfirst.1.le_length delimiter.ne_nil
  refine Or.inl ⟨pos, hfirst.append delimiter.ne_nil behind, ?_, ?_⟩
  · rw [List.length_take_of_le hle, Nat.add_sub_cancel, List.take_take,
      Nat.min_eq_left (Nat.le_add_right _ _), List.take_append_of_le_length (by omega)]
  · rw [List.drop_append_of_le_length hle]

theorem cut_readLoop (delimiter : Delimiter) (reads : ℕ) (buffer : Bytes) (pieces : List Piece) :
    Cut delimiter (buffer ++ content pieces)
      ((readLoop delimiter reads buffer pieces).2.1 ++
        content (readLoop delimiter reads buffer pieces).2.2)
      (readLoop delimiter reads buffer pieces).1 := by
  induction reads generalizing buffer pieces with
  | zero =>
    unfold readLoop
    cases hpos : position delimiter.bytes buffer with
    | some pos => exact cut_line hpos _
    | none => exact rfl
  | succ reads ih =>
    unfold readLoop
    cases hpos : position delimiter.bytes buffer with
    | some pos => exact cut_line hpos _
    | none =>
      dsimp only
      split
      · rename_i hend
        have hpieces := (read_eq_nil (by decide)).mp hend
        subst hpieces
        split
        · rename_i hbuffer
          subst hbuffer
          exact ⟨rfl, rfl⟩
        · rename_i hbuffer
          have hcontent : buffer ++ content [] = buffer := List.append_nil _
          rw [hcontent]
          exact Or.inr ⟨fun i => position_eq_none hpos delimiter.ne_nil, hbuffer, rfl, rfl⟩
      · have hnext := ih (buffer ++ (read tempSize pieces).1) (read tempSize pieces).2
        rw [List.append_assoc, read_append] at hnext
        exact hnext

/-- A call that the socket answers to the end of the stream returns. -/
theorem readLoop_returns (h : (content pieces).length < reads) :
    (readLoop delimiter reads buffer pieces).1 ≠ none := by
  induction reads generalizing buffer pieces with
  | zero => omega
  | succ reads ih =>
    unfold readLoop
    cases hpos : position delimiter.bytes buffer with
    | some pos => simp
    | none =>
      dsimp only
      split
      · split <;> simp
      · rename_i hmore
        have hshorter := length_content_read hmore
        exact ih (by omega)

theorem length_content_readLoop (reads : ℕ) :
    (content (readLoop delimiter reads buffer pieces).2.2).length ≤ (content pieces).length := by
  induction reads generalizing buffer pieces with
  | zero =>
    unfold readLoop
    cases position delimiter.bytes buffer <;> exact Nat.le_refl _
  | succ reads ih =>
    have hread : (content (read tempSize pieces).2).length ≤ (content pieces).length := by
      rw [← read_append tempSize pieces, List.length_append]
      exact Nat.le_add_left _ _
    unfold readLoop
    cases position delimiter.bytes buffer with
    | some pos => exact Nat.le_refl _
    | none =>
      dsimp only
      split
      · split <;> exact hread
      · exact ih.trans hread

/-- The lines of what has not been returned. -/
def Lines (delimiter : Delimiter) (stream : Bytes) (lines : List Bytes) : Prop :=
  ∃ segments last, Segments delimiter.bytes stream segments last ∧ lines = linesOf segments last

/-- The end of the stream, also after the remainder was returned. -/
theorem segments_nil (delimiter : Delimiter) : Segments delimiter.bytes [] [] [] := by
  refine .last fun i hoccurs => ?_
  have hle := hoccurs.le_length delimiter.ne_nil
  have hpos := List.length_pos_iff.mpr delimiter.ne_nil
  rw [List.length_nil] at hle
  omega

/-- A call returns the first line and leaves the others. -/
theorem lines_cut {stream rest : Bytes} {value : Option Bytes} {lines : List Bytes}
    (h : Cut delimiter stream rest (some value)) (hlines : Lines delimiter stream lines) :
    value = lines.head? ∧ Lines delimiter rest lines.tail := by
  obtain ⟨segments, last, hsegments, rfl⟩ := hlines
  cases value with
  | none =>
    obtain ⟨rfl, rfl⟩ := h
    obtain ⟨rfl, rfl⟩ := hsegments.unique (segments_nil delimiter)
    exact ⟨rfl, [], [], segments_nil delimiter, rfl⟩
  | some line =>
    rcases h with ⟨pos, hfirst, rfl, rfl⟩ | ⟨hnone, hne, rfl, rfl⟩
    · cases hsegments with
      | last hnone => exact absurd hfirst.1 (hnone pos)
      | next hfirst' hrest =>
        obtain rfl := hfirst.unique hfirst'
        exact ⟨rfl, _, _, hrest, rfl⟩
    · obtain ⟨rfl, rfl⟩ := hsegments.unique (.last hnone)
      rw [linesOf, if_neg hne]
      exact ⟨rfl, [], [], segments_nil delimiter, rfl⟩

theorem range_map_getElem? (lines : List Bytes) (count : ℕ) :
    (List.range (count + 1)).map (fun n => (.ok lines[n]? : Except IdeviceError _)) =
      .ok lines.head? :: (List.range count).map fun n => .ok lines.tail[n]? := by
  rw [List.range_succ_eq_map, List.map_cons, List.map_map, List.head?_eq_getElem?]
  congr 1
  refine List.map_congr_left fun n _ => ?_
  rw [List.getElem?_tail]
  rfl

theorem calls_cons (delimiter : Delimiter) (reads : ℕ) (rest : List ℕ) (buffer : Bytes)
    (pieces : List Piece) :
    calls delimiter (reads :: rest) ⟨buffer, some pieces⟩ =
      ((readLoop delimiter reads buffer pieces).1.map Except.ok).toList ++
        calls delimiter rest ⟨(readLoop delimiter reads buffer pieces).2.1,
          some (readLoop delimiter reads buffer pieces).2.2⟩ := rfl

theorem calls_eq_range (calling : List ℕ) {lines : List Bytes}
    (h : Lines delimiter (buffer ++ content pieces) lines) :
    calls delimiter calling ⟨buffer, some pieces⟩ =
      (List.range (calls delimiter calling ⟨buffer, some pieces⟩).length).map
        fun n => .ok lines[n]? := by
  induction calling generalizing buffer pieces lines with
  | nil => rfl
  | cons reads rest ih =>
    have hcut := cut_readLoop delimiter reads buffer pieces
    rw [calls_cons]
    cases hresult : (readLoop delimiter reads buffer pieces).1 with
    | none =>
      rw [hresult] at hcut
      rw [← show _ = buffer ++ content pieces from hcut] at h
      exact ih h
    | some value =>
      rw [hresult] at hcut
      obtain ⟨hvalue, hlines⟩ := lines_cut hcut h
      rw [Option.map_some, Option.toList_some, List.singleton_append, List.length_cons,
        range_map_getElem?, ← hvalue, ← ih hlines]

/-- The calls that the socket answers long enough have all returned. -/
theorem countP_le_length_calls (calling : List ℕ) {length : ℕ}
    (h : (content pieces).length ≤ length) :
    calling.countP (fun reads => decide (length < reads)) ≤
      (calls delimiter calling ⟨buffer, some pieces⟩).length := by
  induction calling generalizing buffer pieces with
  | nil => exact Nat.le_refl _
  | cons reads rest ih =>
    have hshorter : (content (readLoop delimiter reads buffer pieces).2.2).length ≤ length :=
      (length_content_readLoop reads).trans h
    have hrest := @ih (readLoop delimiter reads buffer pieces).2.1 _ hshorter
    rw [calls_cons, List.countP_cons, List.length_append]
    by_cases henough : length < reads
    · obtain ⟨value, hvalue⟩ := Option.ne_none_iff_exists'.mp
        (@readLoop_returns delimiter reads buffer pieces (by omega))
      rw [if_pos (decide_eq_true henough), hvalue]
      simp only [Option.map_some, Option.toList_some, List.length_singleton]
      omega
    · rw [if_neg (by rw [decide_eq_false henough]; exact Bool.false_ne_true)]
      omega

end Calls

/-- The values of successive calls, however the stream comes in and whichever calls are
dropped, are the lines between the leftmost delimiters that do not overlap, the remainder
if there is one, and then `None`. Every call that is not dropped returns. -/
theorem calls_eq_lines (delimiter : Delimiter) (pieces : List Piece) :
    ∃ segments last, Segments delimiter.bytes (content pieces) segments last ∧
      ∀ calling : List ℕ,
        calls delimiter calling ⟨[], some pieces⟩ =
          (List.range (calls delimiter calling ⟨[], some pieces⟩).length).map
            (fun n => .ok (linesOf segments last)[n]?) ∧
        calling.countP (fun reads => decide ((content pieces).length < reads)) ≤
          (calls delimiter calling ⟨[], some pieces⟩).length := by
  obtain ⟨segments, last, hsegments⟩ := exists_segments delimiter.ne_nil (content pieces)
  refine ⟨segments, last, hsegments, fun calling => ⟨?_, ?_⟩⟩
  · exact calls_eq_range calling ⟨segments, last, hsegments, rfl⟩
  · exact countP_le_length_calls calling (Nat.le_refl _)

end XitForge.Idevice.Delimited
