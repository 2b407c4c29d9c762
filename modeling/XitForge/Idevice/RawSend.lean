import XitForge.ByteStream
import XitForge.RustEval

/-!
Raw sending on a socket that accepts some of the bytes it is offered. The vectored path
keeps a cursor into its buffers and offers a window of them; the plain path cuts the
message into parts and writes each part until the socket has it.
-/
namespace XitForge.Idevice.RawSend

open ByteStream RustEval

inductive IdeviceError where
  | noEstablishedConnection
  | writeZero
  deriving DecidableEq, Repr

/-- How many of the offered bytes each write is accepted with. -/
structure Schedule where
  accepts : ℕ → ℕ → ℕ
  le : ∀ write offered, accepts write offered ≤ offered
  pos : ∀ write offered, 0 < offered → 0 < accepts write offered

structure Socket where
  /-- The number of writes so far. -/
  writes : ℕ
  received : Bytes

section Code

variable (schedule : Schedule)

def Socket.write (offered : Bytes) (socket : Socket) : ℕ × Socket :=
  let n := schedule.accepts socket.writes offered.length
  (n, ⟨socket.writes + 1, socket.received ++ offered.take n⟩)

/-- The bytes of a window, and of a part. -/
def maxChunk : ℕ := 1024 * 64

/-- The slices behind the first one, while there is room in the window. -/
def gather : ℕ → List Bytes → List Bytes
  | _, [] => []
  | room, buf :: rest =>
    if 0 < room then buf.take (min buf.length room) :: gather (room - min buf.length room) rest
    else []

def window (first : Bytes) (offset : ℕ) (rest : List Bytes) : List Bytes :=
  let toTakeFirst := min (first.length - offset) maxChunk
  (first.drop offset).take toTakeFirst :: gather (maxChunk - toTakeFirst) rest

/-- The cursor, moved over the bytes that were accepted: the buffers from the current
one on, and the offset in that one. -/
def advance : List Bytes → ℕ → ℕ → List Bytes × ℕ
  | [], offset, _ => ([], offset)
  | buf :: rest, offset, advanced =>
    if advanced = 0 then (buf :: rest, offset)
    else if advanced < buf.length - offset then (buf :: rest, offset + advanced)
    else advance rest 0 (advanced - (buf.length - offset))

theorem length_advance_le (bufs : List Bytes) (offset n : ℕ) :
    (advance bufs offset n).1.length ≤ bufs.length := by
  induction bufs generalizing offset n with
  | nil => exact Nat.le_refl _
  | cons buf rest ih =>
    unfold advance
    split
    · exact Nat.le_refl _
    · split
      · exact Nat.le_refl _
      · exact (ih 0 _).trans (Nat.le_succ _)

/-- Bytes that were accepted move the cursor. -/
theorem advance_moves (buf : Bytes) (rest : List Bytes) (offset : ℕ) {n : ℕ} (h : n ≠ 0) :
    (advance (buf :: rest) offset n).1.length < (buf :: rest).length ∨
      (advance (buf :: rest) offset n).1 = buf :: rest ∧
        offset < (advance (buf :: rest) offset n).2 ∧
        (advance (buf :: rest) offset n).2 < buf.length := by
  unfold advance
  rw [if_neg h]
  split
  · refine Or.inr ⟨rfl, ?_, ?_⟩
    · exact Nat.lt_add_of_pos_right (Nat.pos_of_ne_zero h)
    · show offset + n < buf.length
      omega
  · exact Or.inl (Nat.lt_succ_of_le (length_advance_le rest 0 _))

/-- The loop of `send_raw_vectored`. -/
def sendLoop : List Bytes → ℕ → Socket → Eval IdeviceError Unit × Socket
  | [], _, socket => (.ok (), socket)
  | buf :: rest, offset, socket =>
    let written := socket.write schedule (window buf offset rest).flatten
    if _ : written.1 = 0 then (.err .writeZero, written.2)
    else
      sendLoop (advance (buf :: rest) offset written.1).1
        (advance (buf :: rest) offset written.1).2 written.2
termination_by bufs offset => (bufs.length, bufs.flatten.length - offset)
decreasing_by
  rename_i h
  have hwritten : (socket.write schedule (window buf offset rest).flatten).1 ≠ 0 := h
  rcases advance_moves buf rest offset hwritten with hshorter | ⟨hsame, hfurther, hinside⟩
  · exact Prod.Lex.left _ _ hshorter
  · have hlength : buf.length ≤ (buf :: rest).flatten.length := by
      rw [List.flatten_cons, List.length_append]
      exact Nat.le_add_right _ _
    rw [hsame]
    exact Prod.Lex.right _ (by omega)

def sendRawVectored (bufs : List Bytes) (socket : Option Socket) :
    Eval IdeviceError Unit × Option Socket :=
  match socket with
  | some socket => ((sendLoop schedule bufs 0 socket).1, some (sendLoop schedule bufs 0 socket).2)
  | none => (.err .noEstablishedConnection, none)

/-- `write_all`. -/
def writeAll (bytes : Bytes) (socket : Socket) : Eval IdeviceError Unit × Socket :=
  if _ : bytes = [] then (.ok (), socket)
  else
    let written := socket.write schedule bytes
    if _ : written.1 = 0 then (.err .writeZero, written.2)
    else writeAll (bytes.drop written.1) written.2
termination_by bytes.length
decreasing_by
  rename_i hbytes h
  have hwritten : (socket.write schedule bytes).1 ≠ 0 := h
  have hpos := List.length_pos_iff.mpr hbytes
  rw [List.length_drop]
  omega

/-- `message.chunks(size)`. -/
def chunksFrom (size : ℕ) : ℕ → Bytes → List Bytes
  | 0, _ => []
  | count + 1, bytes =>
    if bytes = [] then [] else bytes.take size :: chunksFrom size count (bytes.drop size)

def chunks (size : ℕ) (bytes : Bytes) : List Bytes := chunksFrom size bytes.length bytes

def writeParts : List Bytes → Socket → Eval IdeviceError Unit × Socket
  | [], socket => (.ok (), socket)
  | part :: rest, socket =>
    match writeAll schedule part socket with
    | (.ok (), socket) => writeParts rest socket
    | other => other

/-- `send_raw`, which is `send_raw_with_progress` with a callback that does nothing. The
number of the last part is for the callback only, but it is computed first. -/
def sendRaw (checks : Bool) (message : Bytes) (socket : Option Socket) :
    Eval IdeviceError Unit × Option Socket :=
  match socket with
  | some socket =>
    let messageParts := chunks maxChunk message
    match (Eval.sub 64 checks messageParts.length 1 : Eval IdeviceError ℕ) with
    | .ok _ =>
      ((writeParts schedule messageParts socket).1, some (writeParts schedule messageParts socket).2)
    | .err error => (.err error, some socket)
    | .panic => (.panic, some socket)
  | none => (.err .noEstablishedConnection, none)

end Code

section Window

theorem flatten_gather (room : ℕ) (bufs : List Bytes) :
    (gather room bufs).flatten = bufs.flatten.take room := by
  induction bufs generalizing room with
  | nil => simp [gather]
  | cons buf rest ih =>
    unfold gather
    split
    · rw [List.flatten_cons, ih, List.flatten_cons, List.take_append]
      congr 1
      · rcases Nat.le_total buf.length room with hle | hle
        · rw [Nat.min_eq_left hle, List.take_of_length_le hle, List.take_length]
        · rw [Nat.min_eq_right hle]
      · congr 1
        omega
    · rename_i hroom
      rw [Nat.eq_zero_of_not_pos hroom, List.take_zero]
      rfl

/-- A window is the next bytes, as many as fit. -/
theorem flatten_window {first : Bytes} {offset : ℕ} (rest : List Bytes)
    (h : offset ≤ first.length) :
    (window first offset rest).flatten = ((first :: rest).flatten.drop offset).take maxChunk := by
  unfold window
  rw [List.flatten_cons, flatten_gather, List.flatten_cons, List.drop_append_of_le_length h,
    List.take_append, List.length_drop]
  congr 1
  · rcases Nat.le_total (first.length - offset) maxChunk with hle | hle
    · rw [Nat.min_eq_left hle, List.take_of_length_le (by rw [List.length_drop]),
        List.take_of_length_le (by rw [List.length_drop]; exact hle)]
    · rw [Nat.min_eq_right hle]
  · congr 1
    omega

/-- The cursor is at a buffer's start or inside of it. -/
def Inside : List Bytes → ℕ → Prop
  | [], _ => True
  | buf :: _, offset => offset = 0 ∨ offset < buf.length

theorem inside_advance {bufs : List Bytes} {offset : ℕ} (n : ℕ) (h : Inside bufs offset) :
    Inside (advance bufs offset n).1 (advance bufs offset n).2 := by
  induction bufs generalizing offset n with
  | nil => exact h
  | cons buf rest ih =>
    unfold advance
    split
    · exact h
    · split
      · refine Or.inr ?_
        omega
      · refine ih _ ?_
        cases rest with
        | nil => exact True.intro
        | cons _ _ => exact Or.inl rfl

/-- The cursor moves by the bytes that were accepted. -/
theorem drop_advance {bufs : List Bytes} {offset : ℕ} (n : ℕ) (h : Inside bufs offset) :
    (advance bufs offset n).1.flatten.drop (advance bufs offset n).2 =
      (bufs.flatten.drop offset).drop n := by
  induction bufs generalizing offset n with
  | nil => simp [advance]
  | cons buf rest ih =>
    unfold advance
    split
    · rename_i hn
      rw [hn, List.drop_zero]
    · split
      · rw [List.drop_drop]
      · rename_i hlong
        have hrest : Inside rest 0 := by
          cases rest with
          | nil => exact True.intro
          | cons _ _ => exact Or.inl rfl
        have hoffset : offset ≤ buf.length := by
          rcases h with rfl | hlt
          · exact Nat.zero_le _
          · exact hlt.le
        have hgone : (buf.drop offset).drop n = [] := by
          refine List.drop_of_length_le ?_
          rw [List.length_drop]
          omega
        rw [ih _ hrest, List.drop_zero, List.flatten_cons, List.drop_append_of_le_length hoffset,
          List.drop_append, hgone, List.nil_append, List.length_drop]

/-- No empty buffer is the last one. -/
def EndsFull (bufs : List Bytes) : Prop := bufs.getLast? ≠ some []

theorem endsFull_cons {buf : Bytes} {rest : List Bytes} (h : rest ≠ []) :
    EndsFull (buf :: rest) ↔ EndsFull rest := by
  unfold EndsFull
  rw [List.getLast?_cons_of_ne_nil h]

/-- A write that was accepted does not reach past the last byte. -/
theorem endsFull_advance {bufs : List Bytes} {offset n : ℕ}
    (hn : n ≤ (bufs.flatten.drop offset).length) :
    EndsFull (advance bufs offset n).1 ↔ EndsFull bufs := by
  induction bufs generalizing offset n with
  | nil => exact Iff.rfl
  | cons buf rest ih =>
    unfold advance
    split
    · exact Iff.rfl
    · rename_i hpos
      split
      · exact Iff.rfl
      · rename_i hlong
        by_cases hrest : rest = []
        · subst hrest
          have hbuf : buf ≠ [] := by
            intro heq
            subst heq
            rw [List.flatten_singleton, List.drop_nil] at hn
            exact hpos (Nat.le_zero.mp hn)
          have hfull : EndsFull [buf] := fun hlast => hbuf (Option.some.inj hlast)
          exact iff_of_true (fun hlast => nomatch hlast) hfull
        · rw [endsFull_cons hrest]
          refine ih ?_
          rw [List.length_drop, List.flatten_cons, List.length_append] at hn
          rw [List.length_drop]
          omega

end Window

section Sending

variable {schedule : Schedule} {socket : Socket}

theorem write_eq_zero {offered : Bytes} : (socket.write schedule offered).1 = 0 ↔ offered = [] := by
  show schedule.accepts socket.writes offered.length = 0 ↔ _
  constructor
  · intro h
    by_contra hne
    have hpos := schedule.pos socket.writes offered.length (List.length_pos_iff.mpr hne)
    omega
  · intro heq
    subst heq
    exact Nat.le_zero.mp (schedule.le socket.writes 0)

theorem write_le (schedule : Schedule) (socket : Socket) (offered : Bytes) :
    (socket.write schedule offered).1 ≤ offered.length :=
  schedule.le socket.writes offered.length

theorem received_write (schedule : Schedule) (socket : Socket) (offered : Bytes) :
    (socket.write schedule offered).2.received =
      socket.received ++ offered.take (socket.write schedule offered).1 := rfl

theorem Inside.le_length {buf : Bytes} {rest : List Bytes} {offset : ℕ}
    (h : Inside (buf :: rest) offset) : offset ≤ buf.length := by
  rcases h with rfl | hlt
  · exact Nat.zero_le _
  · exact hlt.le

/-- A window is empty only if every byte was sent. -/
theorem window_eq_nil {buf : Bytes} {rest : List Bytes} {offset : ℕ}
    (h : Inside (buf :: rest) offset) :
    (window buf offset rest).flatten = [] ↔ (buf :: rest).flatten.drop offset = [] := by
  rw [flatten_window rest h.le_length, List.take_eq_nil_iff]
  exact or_iff_right (by decide)

/-- A write of a window sends the next bytes. -/
theorem received_write_window {buf : Bytes} {rest : List Bytes} {offset : ℕ}
    (h : Inside (buf :: rest) offset) :
    (socket.write schedule (window buf offset rest).flatten).2.received =
      socket.received ++ ((buf :: rest).flatten.drop offset).take
        (socket.write schedule (window buf offset rest).flatten).1 := by
  have hle := write_le schedule socket (window buf offset rest).flatten
  rw [received_write]
  congr 1
  rw [flatten_window rest h.le_length] at hle ⊢
  rw [List.length_take] at hle
  rw [List.take_take, Nat.min_eq_left (by omega)]

/-- Whatever the socket accepts at a time, it has received every byte in the end. -/
theorem received_sendLoop {bufs : List Bytes} {offset : ℕ} (h : Inside bufs offset) :
    (sendLoop schedule bufs offset socket).2.received =
      socket.received ++ bufs.flatten.drop offset := by
  fun_induction sendLoop schedule bufs offset socket with
  | case1 offset socket => simp
  | case2 buf rest offset socket written hzero =>
    have hremaining := (window_eq_nil h).mp (write_eq_zero.mp hzero)
    rw [received_write_window h, hremaining, List.take_nil]
  | case3 buf rest offset socket written hpos ih =>
    rw [ih (inside_advance _ h), drop_advance _ h, received_write_window h, List.append_assoc,
      List.take_append_drop]

/-- Buffers with nothing left in them are empty, the last one too. -/
theorem getLast?_of_drop {buf : Bytes} {rest : List Bytes} {offset : ℕ}
    (h : Inside (buf :: rest) offset) (hdrop : (buf :: rest).flatten.drop offset = []) :
    (buf :: rest).getLast? = some [] := by
  have hoffset : offset = 0 := by
    rcases h with hzero | hlt
    · exact hzero
    · have hlength := List.drop_eq_nil_iff.mp hdrop
      rw [List.flatten_cons, List.length_append] at hlength
      omega
  rw [hoffset, List.drop_zero, List.flatten_eq_nil_iff] at hdrop
  rw [List.getLast?_eq_some_getLast (List.cons_ne_nil buf rest)]
  exact congrArg some (hdrop _ (List.getLast_mem _))

/-- The loop ends well unless the last buffers are empty: the cursor is then left before
them, and a window of nothing is offered. -/
theorem sendLoop_ok_iff {bufs : List Bytes} {offset : ℕ} (h : Inside bufs offset) :
    (sendLoop schedule bufs offset socket).1 = .ok () ↔ EndsFull bufs := by
  fun_induction sendLoop schedule bufs offset socket with
  | case1 offset socket => exact iff_of_true rfl (fun hlast => nomatch hlast)
  | case2 buf rest offset socket written hzero =>
    have hremaining := (window_eq_nil h).mp (write_eq_zero.mp hzero)
    exact iff_of_false (fun herr => nomatch herr) fun hfull => hfull (getLast?_of_drop h hremaining)
  | case3 buf rest offset socket written hpos ih =>
    have hle := write_le schedule socket (window buf offset rest).flatten
    rw [ih (inside_advance _ h)]
    refine endsFull_advance (hle.trans ?_)
    rw [flatten_window rest h.le_length, List.length_take]
    exact Nat.min_le_right _ _

/-- What a call does that sends the bytes. -/
def Sends (result : Eval IdeviceError Unit × Option Socket) (socket : Socket) (bytes : Bytes) :
    Prop :=
  result.1 = .ok () ∧ result.2.map Socket.received = some (socket.received ++ bytes)

theorem sendRawVectored_sends_iff (schedule : Schedule) (socket : Socket) (bufs : List Bytes) :
    Sends (sendRawVectored schedule bufs (some socket)) socket bufs.flatten ↔ EndsFull bufs := by
  have hinside : Inside bufs 0 := by
    cases bufs with
    | nil => exact True.intro
    | cons _ _ => exact Or.inl rfl
  rw [← @sendLoop_ok_iff schedule socket bufs 0 hinside]
  refine and_iff_left ?_
  show some (sendLoop schedule bufs 0 socket).2.received = _
  rw [received_sendLoop hinside, List.drop_zero]

theorem writeAll_eq (schedule : Schedule) (socket : Socket) (bytes : Bytes) :
    (writeAll schedule bytes socket).1 = .ok () ∧
      (writeAll schedule bytes socket).2.received = socket.received ++ bytes := by
  fun_induction writeAll schedule bytes socket with
  | case1 socket => exact ⟨rfl, (List.append_nil _).symm⟩
  | case2 bytes socket hbytes written hzero => exact absurd (write_eq_zero.mp hzero) hbytes
  | case3 bytes socket hbytes written hpos ih =>
    refine ⟨ih.1, ?_⟩
    rw [ih.2, received_write, List.append_assoc, List.take_append_drop]

theorem writeParts_eq (parts : List Bytes) (socket : Socket) :
    (writeParts schedule parts socket).1 = .ok () ∧
      (writeParts schedule parts socket).2.received = socket.received ++ parts.flatten := by
  induction parts generalizing socket with
  | nil => exact ⟨rfl, (List.append_nil _).symm⟩
  | cons part rest ih =>
    obtain ⟨hok, hreceived⟩ := writeAll_eq schedule socket part
    have hwrite : writeAll schedule part socket =
        (.ok (), (writeAll schedule part socket).2) := Prod.ext hok rfl
    unfold writeParts
    rw [hwrite]
    refine ⟨(ih _).1, ?_⟩
    rw [(ih _).2, hreceived, List.append_assoc, List.flatten_cons]

theorem flatten_chunksFrom {size : ℕ} (hsize : 0 < size) {count : ℕ} {bytes : Bytes}
    (h : bytes.length ≤ count) : (chunksFrom size count bytes).flatten = bytes := by
  induction count generalizing bytes with
  | zero =>
    rw [List.length_eq_zero_iff.mp (Nat.le_zero.mp h)]
    rfl
  | succ count ih =>
    unfold chunksFrom
    split
    · rename_i hbytes
      rw [hbytes]
      rfl
    · have hrest : (bytes.drop size).length ≤ count := by
        rw [List.length_drop]
        omega
      rw [List.flatten_cons, ih hrest, List.take_append_drop]

theorem flatten_chunks (bytes : Bytes) : (chunks maxChunk bytes).flatten = bytes :=
  flatten_chunksFrom (by decide) (Nat.le_refl _)

/-- Without a message there is no last part to number. -/
theorem length_chunks_pos_iff {bytes : Bytes} :
    1 ≤ (chunks maxChunk bytes).length ↔ bytes ≠ [] := by
  constructor
  · intro hpos heq
    subst heq
    exact absurd hpos (by decide)
  · intro hne
    refine List.length_pos_iff.mpr fun hnil => hne ?_
    rw [← flatten_chunks bytes, hnil]
    rfl

theorem sendRaw_sends_iff (schedule : Schedule) (socket : Socket) (message : Bytes) :
    (∀ checks, Sends (sendRaw schedule checks message (some socket)) socket message) ↔
      message ≠ [] := by
  unfold sendRaw
  constructor
  · intro hsends heq
    subst heq
    exact nomatch (hsends true).1
  · intro hne checks
    have hcount : (Eval.sub 64 checks (chunks maxChunk message).length 1 : Eval IdeviceError ℕ) =
        .ok ((chunks maxChunk message).length - 1) :=
      Eval.sub_of_le (length_chunks_pos_iff.mpr hne)
    obtain ⟨hok, hreceived⟩ := @writeParts_eq schedule (chunks maxChunk message) socket
    rw [flatten_chunks] at hreceived
    dsimp only
    rw [hcount]
    exact ⟨hok, congrArg some hreceived⟩

end Sending

/-- Raw sending is complete on every schedule exactly if no empty buffer is the last one,
and exactly if there is a message. -/
theorem raw_sending_iff (bufs : List Bytes) (message : Bytes) (schedule : Schedule)
    (socket : Socket) :
    (Sends (sendRawVectored schedule bufs (some socket)) socket bufs.flatten ↔
      bufs.getLast? ≠ some []) ∧
    ((∀ checks, Sends (sendRaw schedule checks message (some socket)) socket message) ↔
      message ≠ []) :=
  ⟨sendRawVectored_sends_iff schedule socket bufs, sendRaw_sends_iff schedule socket message⟩

/-- A socket that takes all it is offered. -/
def Schedule.whole : Schedule where
  accepts _ offered := offered
  le _ _ := Nat.le_refl _
  pos _ _ h := h

/-- An empty buffer behind a sent one ends in an error, and no message in a panic. -/
theorem empty_sending_fails :
    ¬ Sends (sendRawVectored .whole [[1], []] (some ⟨0, []⟩)) ⟨0, []⟩ [1] ∧
    ¬ Sends (sendRaw .whole true [] (some ⟨0, []⟩)) ⟨0, []⟩ [] := by
  constructor
  · exact fun hsends => (sendRawVectored_sends_iff .whole ⟨0, []⟩ [[1], []]).mp hsends rfl
  · exact fun hsends => nomatch hsends.1

end XitForge.Idevice.RawSend
