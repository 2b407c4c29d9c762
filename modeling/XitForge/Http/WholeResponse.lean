import XitForge.Http.Response

/-!
What `read_response` returns depends on the bytes of the stream and on how the stream
ends, but not on the pieces; and which streams make it panic.
-/
namespace XitForge.Http

open ByteStream PieceStream Delimiters RustEval RustSlice

/-- What becomes of a result where the connection has to be closed first. -/
def atClose {α : Type} (failure : Option String) (result : Eval HttpError α) : Eval HttpError α :=
  match failure with
  | some text => .err (.socket text)
  | none => result

/-- The body in a stream that is known as a whole. -/
def bodyOf (checks : Bool) (failure : Option String) (headers : List Header) (bodyStart : ℕ)
    (stream : Bytes) : Eval HttpError Bytes :=
  if isChunked headers then
    atClose failure do
      let data ← slice stream bodyStart stream.length
      decodeChunked checks data
  else
    match contentLength headers with
    | some len => do
      let needed ← Eval.add 64 checks bodyStart len
      if stream.length < needed then atClose failure (slice stream bodyStart stream.length)
      else slice stream bodyStart needed
    | none => atClose failure (slice stream bodyStart stream.length)

def responseOf (checks : Bool) (failure : Option String) (stream : Bytes) :
    Eval HttpError HttpResponse :=
  match position headMark stream with
  | none =>
    atClose failure (.err (.http "connection closed before HTTP headers were complete"))
  | some headEnd =>
    match parseHead (stream.take headEnd) with
    | .error error => .err error
    | .ok (status, headers) => do
      let bodyStart ← Eval.add 64 checks headEnd 4
      let body ← bodyOf checks failure headers bodyStart stream
      .ok ⟨status, headers, body⟩

section Gathering

variable {needsMore : Bytes → Bool} {socket : Socket} {buf stream : Bytes}

/-- How a loop of reads ends, whatever the pieces of the stream are. -/
inductive Gathers (needsMore : Bytes → Bool) (failure : Option String) (stream : Bytes) :
    Eval HttpError (Socket × Bytes) → Prop
  | enough {socket : Socket} {buf : Bytes} (happend : buf ++ content socket.pieces = stream)
      (hfailure : socket.failure = failure) (h : needsMore buf = false) :
      Gathers needsMore failure stream (.ok (socket, buf))
  | closed {socket : Socket} (hfailure : failure = none) (h : needsMore stream = true) :
      Gathers needsMore failure stream (.ok (socket, stream))
  | failed {text : String} (hfailure : failure = some text) (h : needsMore stream = true) :
      Gathers needsMore failure stream (.err (.socket text))

/-- What a read can come to. -/
inductive ReadsMore (socket : Socket) (buf : Bytes) :
    Except HttpError (Option (Socket × Bytes)) → Prop
  | failed {text : String} (hfailure : socket.failure = some text)
      (hcontent : content socket.pieces = []) : ReadsMore socket buf (.error (.socket text))
  | closed (hfailure : socket.failure = none) (hcontent : content socket.pieces = []) :
      ReadsMore socket buf (.ok none)
  | more {next : Socket} {more : Bytes} (hfailure : next.failure = socket.failure)
      (happend : more ++ content next.pieces = buf ++ content socket.pieces) :
      ReadsMore socket buf (.ok (some (next, more)))

theorem readsMore (socket : Socket) (buf : Bytes) : ReadsMore socket buf (readMore socket buf) := by
  unfold readMore
  dsimp only
  split
  · rename_i hnil
    have hcontent := content_eq_nil.mpr ((read_eq_nil (by decide)).mp hnil)
    split
    · rename_i text hfailure
      exact .failed hfailure hcontent
    · rename_i hfailure
      exact .closed hfailure hcontent
  · refine .more rfl ?_
    rw [List.append_assoc, read_append]

theorem gathers_readWhile (needsMore : Bytes → Bool) (socket : Socket) (buf : Bytes) :
    Gathers needsMore socket.failure (buf ++ content socket.pieces)
      (readWhile needsMore socket buf) := by
  fun_induction readWhile needsMore socket buf with
  | case1 socket buf hneeds error hread =>
    have hmore := readsMore socket buf
    rw [hread] at hmore
    cases hmore with
    | failed hfailure hcontent =>
      rw [hcontent, List.append_nil]
      exact .failed hfailure hneeds
  | case2 socket buf hneeds hread =>
    have hmore := readsMore socket buf
    rw [hread] at hmore
    cases hmore with
    | closed hfailure hcontent =>
      rw [hcontent, List.append_nil]
      exact .closed hfailure hneeds
  | case3 socket buf hneeds next more hread ih =>
    have hmore := readsMore socket buf
    rw [hread] at hmore
    cases hmore with
    | more hfailure happend =>
      rw [← hfailure, ← happend]
      exact ih
  | case4 socket buf hneeds => exact .enough rfl rfl (Bool.eq_false_iff.mpr hneeds)

/-- The loops that read to the end. -/
theorem readWhile_true {α : Type} (next : Bytes → Eval HttpError α) (socket : Socket)
    (buf : Bytes) :
    (readWhile (fun _ => true) socket buf >>= fun parts => next parts.2) =
      atClose socket.failure (next (buf ++ content socket.pieces)) := by
  have h := gathers_readWhile (fun _ => true) socket buf
  cases hresult : readWhile (fun _ => true) socket buf with
  | ok parts =>
    rw [hresult] at h
    cases h with
    | enough _ _ h => cases h
    | closed hfailure _ =>
      rw [hfailure]
      rfl
  | err error =>
    rw [hresult] at h
    cases h with
    | failed hfailure _ =>
      rw [hfailure]
      rfl
  | panic =>
    rw [hresult] at h
    cases h

theorem slice_append_left {start stop : ℕ} (h : stop ≤ buf.length) (behind : Bytes) :
    slice (buf ++ behind) start stop = slice buf start stop := by
  unfold slice
  rw [getRange_append_left h]

/-- The loop for a body of a known length. -/
theorem readWhile_length {bodyStart needed : ℕ} (socket : Socket) (buf : Bytes) :
    (readWhile (fun buf => buf.length < needed) socket buf >>= fun parts =>
        slice parts.2 bodyStart (min needed parts.2.length)) =
      if (buf ++ content socket.pieces).length < needed then
        atClose socket.failure (slice (buf ++ content socket.pieces) bodyStart
          (buf ++ content socket.pieces).length)
      else slice (buf ++ content socket.pieces) bodyStart needed := by
  have h := gathers_readWhile (fun buf => buf.length < needed) socket buf
  cases hresult : readWhile (fun buf => decide (buf.length < needed)) socket buf with
  | ok parts =>
    rw [hresult] at h
    cases h with
    | @enough next buf' happend _ h =>
      have hle : needed ≤ buf'.length := Nat.not_lt.mp (of_decide_eq_false h)
      rw [← happend, if_neg (by rw [List.length_append]; omega), slice_append_left hle]
      show slice buf' bodyStart (min needed buf'.length) = _
      rw [Nat.min_eq_left hle]
    | closed hfailure h =>
      have hlt := of_decide_eq_true h
      rw [if_pos hlt, hfailure]
      show slice _ bodyStart (min needed _) = _
      rw [Nat.min_eq_right (Nat.le_of_lt hlt)]
      rfl
  | err error =>
    rw [hresult] at h
    cases h with
    | failed hfailure h =>
      rw [if_pos (of_decide_eq_true h), hfailure]
      rfl
  | panic =>
    rw [hresult] at h
    cases h

theorem readBody_eq (checks : Bool) (headers : List Header) (bodyStart : ℕ) (socket : Socket)
    (buf : Bytes) : readBody checks headers bodyStart socket buf =
      bodyOf checks socket.failure headers bodyStart (buf ++ content socket.pieces) := by
  unfold readBody bodyOf
  split
  · exact readWhile_true (fun buf => do
      let data ← slice buf bodyStart buf.length
      decodeChunked checks data) socket buf
  · cases contentLength headers with
    | none => exact readWhile_true (fun buf => slice buf bodyStart buf.length) socket buf
    | some len =>
      dsimp only
      cases Eval.add 64 checks bodyStart len with
      | ok needed => exact readWhile_length socket buf
      | err error => rfl
      | panic => rfl

theorem headMark_ne_nil : headMark ≠ [] := List.cons_ne_nil _ _

/-- The pieces of the stream do not matter. -/
theorem readResponse_eq (checks : Bool) (socket : Socket) :
    readResponse checks socket = responseOf checks socket.failure (content socket.pieces) := by
  have h := gathers_readWhile (fun buf => (position headMark buf).isNone) socket []
  rw [List.nil_append] at h
  unfold readResponse
  cases hresult : readWhile (fun buf => (position headMark buf).isNone) socket [] with
  | ok parts =>
    rw [hresult] at h
    cases h with
    | @enough next buf happend hfailure h =>
      cases hpos : position headMark buf with
      | none => simp [hpos] at h
      | some headEnd =>
        have hfirst := position_eq_some hpos
        have hle := hfirst.1.le_length headMark_ne_nil
        have hstream : position headMark (content socket.pieces) = some headEnd := by
          rw [← happend]
          exact position_of_leftmost (hfirst.append headMark_ne_nil _) headMark_ne_nil
        have htake : (content socket.pieces).take headEnd = buf.take headEnd := by
          rw [← happend, List.take_append_of_le_length (by omega)]
        unfold responseOf
        rw [hstream]
        dsimp only
        rw [htake, ← hfailure, ← happend]
        simp only [← readBody_eq]
        show (match position headMark buf with
          | none => _
          | some headEnd => _) = _
        generalize position headMark buf = found at hpos ⊢
        subst hpos
        rfl
    | closed hfailure h =>
      have hpos := Option.isNone_iff_eq_none.mp h
      unfold responseOf
      rw [hpos, hfailure]
      show (match position headMark (content socket.pieces) with
        | none => _
        | some headEnd => _) = _
      rw [hpos]
      rfl
  | err error =>
    rw [hresult] at h
    cases h with
    | failed hfailure h =>
      unfold responseOf
      rw [Option.isNone_iff_eq_none.mp h, hfailure]
      rfl
  | panic =>
    rw [hresult] at h
    cases h

end Gathering

section Panics

variable {checks : Bool} {rounds lineEnd size : ℕ} {data out stream : Bytes}

/-- A size that `decode_chunked` comes to in its data. -/
inductive ReachesSize : Bytes → ℕ → Prop
  | here {data : Bytes} {lineEnd size : ℕ} (h : sizeLine data = some (lineEnd, size)) :
      ReachesSize data size
  | behind {data rest : Bytes} {lineEnd size later : ℕ} (h : sizeLine data = some (lineEnd, size))
      (hrest : rest = data.drop (lineEnd + 2)) (hsize : size ≠ 0) (hlength : size + 2 ≤ rest.length)
      (hcrlf : (rest.drop size).take 2 = crlf) (hlater : ReachesSize (rest.drop (size + 2)) later) :
      ReachesSize data later

theorem reachesSize_iff {later : ℕ} {rest : Bytes} (h : sizeLine data = some (lineEnd, size))
    (hrest : rest = data.drop (lineEnd + 2)) : ReachesSize data later ↔ later = size ∨
      size ≠ 0 ∧ size + 2 ≤ rest.length ∧ (rest.drop size).take 2 = crlf ∧
        ReachesSize (rest.drop (size + 2)) later := by
  constructor
  · intro hreach
    cases hreach with
    | here h' =>
      rw [h] at h'
      cases h'
      exact Or.inl rfl
    | behind h' hrest' hsize hlength hcrlf hlater =>
      rw [h] at h'
      cases h'
      rw [← hrest] at hrest'
      subst hrest'
      exact Or.inr ⟨hsize, hlength, hcrlf, hlater⟩
  · intro hcase
    rcases hcase with rfl | ⟨hsize, hlength, hcrlf, hlater⟩
    · exact .here h
    · exact .behind h hrest hsize hlength hcrlf hlater

theorem sizeLine_le (h : sizeLine data = some (lineEnd, size)) : lineEnd + 2 ≤ data.length := by
  unfold sizeLine at h
  obtain ⟨pos, hpos, h⟩ := Option.bind_eq_some_iff.mp h
  obtain ⟨line, _, h⟩ := Option.bind_eq_some_iff.mp h
  obtain ⟨number, _, h⟩ := Option.bind_eq_some_iff.mp h
  cases h
  exact (position_eq_some hpos).1.le_length (List.cons_ne_nil _ _)

theorem slice_eq {start stop : ℕ} (h : start ≤ stop) (hstop : stop ≤ data.length) :
    slice data start stop = .ok ((data.drop start).take (stop - start)) := by
  unfold slice
  rw [getRange_eq_drop h hstop]

theorem slice_to_end {start : ℕ} (h : start ≤ data.length) :
    slice data start data.length = .ok (data.drop start) := by
  rw [slice_eq h (Nat.le_refl _), ← List.length_drop, List.take_length]

/-- A round, where the size does not make the sum overflow. -/
theorem decodeChunkedLoop_eq (h : sizeLine data = some (lineEnd, size))
    (hlt : size + 2 < 2 ^ 64) {rest : Bytes} (hrest : rest = data.drop (lineEnd + 2)) :
    decodeChunkedLoop checks (rounds + 1) data out =
      if size = 0 then .ok out
      else if rest.length < size + 2 then .err malformed
      else if (rest.drop size).take 2 ≠ crlf then .err malformed
      else decodeChunkedLoop checks rounds (rest.drop (size + 2)) (out ++ rest.take size) := by
  rw [decodeChunkedLoop, h]
  dsimp only
  rw [slice_to_end (sizeLine_le h), ← hrest, Eval.ok_bind, Eval.add_of_lt hlt]
  split
  · rfl
  · rw [Eval.ok_bind]
    split
    · rfl
    · rename_i hlength
      rw [slice_eq (Nat.zero_le _) (by omega), Eval.ok_bind, slice_eq (by omega) (by omega),
        Eval.ok_bind, Nat.add_sub_cancel_left, Nat.sub_zero, List.drop_zero]
      split
      · rfl
      · rw [slice_to_end (by omega), Eval.ok_bind]

theorem decodeChunkedLoop_overflow (h : sizeLine data = some (lineEnd, size))
    (hle : 2 ^ 64 ≤ size + 2) : decodeChunkedLoop true (rounds + 1) data out = .panic := by
  have hsize : size ≠ 0 := by
    intro heq
    subst heq
    omega
  rw [decodeChunkedLoop, h]
  dsimp only
  rw [slice_to_end (sizeLine_le h), Eval.ok_bind, if_neg hsize, Eval.add_checked_of_le hle]
  rfl

/-- A loop with enough rounds panics only where the sum of a size overflows. -/
theorem decodeChunkedLoop_ne_panic (hrounds : data.length < rounds) :
    decodeChunkedLoop true rounds data out ≠ .panic ↔
      ∀ size, ReachesSize data size → size + 2 < 2 ^ 64 := by
  induction rounds generalizing data out with
  | zero => omega
  | succ rounds ih =>
    cases hline : sizeLine data with
    | none =>
      rw [decodeChunkedLoop, hline]
      refine iff_of_true (by simp) fun size hreach => ?_
      cases hreach with
      | here h => simp [hline] at h
      | behind h _ _ _ _ _ => simp [hline] at h
    | some parts =>
      obtain ⟨lineEnd, size⟩ := parts
      have hle := sizeLine_le hline
      by_cases hlt : size + 2 < 2 ^ 64
      · obtain ⟨rest, hrest⟩ : ∃ rest, rest = data.drop (lineEnd + 2) := ⟨_, rfl⟩
        have hiff (later : ℕ) : ReachesSize data later ↔ _ := reachesSize_iff hline hrest
        rw [decodeChunkedLoop_eq hline hlt hrest]
        simp only [hiff]
        split
        · rename_i hsize
          refine iff_of_true (by simp) ?_
          intro later hcase
          rcases hcase with rfl | ⟨hne, _⟩
          · exact hlt
          · exact absurd hsize hne
        · rename_i hsize
          split
          · rename_i hlength
            refine iff_of_true (by simp) ?_
            intro later hcase
            rcases hcase with rfl | ⟨_, hle, _⟩
            · exact hlt
            · exact absurd hlength (Nat.not_lt.mpr hle)
          · rename_i hlength
            split
            · rename_i hcrlf
              refine iff_of_true (by simp) ?_
              intro later hcase
              rcases hcase with rfl | ⟨_, _, hcrlf', _⟩
              · exact hlt
              · exact absurd hcrlf' hcrlf
            · rename_i hcrlf
              have hshort : (rest.drop (size + 2)).length < rounds := by
                rw [List.length_drop, hrest, List.length_drop]
                omega
              rw [ih hshort]
              constructor
              · intro hall later hcase
                rcases hcase with rfl | ⟨_, _, _, hlater⟩
                · exact hlt
                · exact hall later hlater
              · intro hall later hlater
                exact hall later (Or.inr ⟨hsize, Nat.not_lt.mp hlength, not_not.mp hcrlf, hlater⟩)
      · rw [decodeChunkedLoop_overflow hline (Nat.not_lt.mp hlt)]
        exact iff_of_false (by simp) fun hall => hlt (hall size (.here hline))

theorem agrees_decodeChunkedLoop (rounds : ℕ) (data out : Bytes) :
    Eval.Agrees fun checks => decodeChunkedLoop checks rounds data out := by
  induction rounds generalizing data out with
  | zero => exact Eval.agrees_const _
  | succ rounds ih =>
    simp only [decodeChunkedLoop]
    cases sizeLine data with
    | none => exact Eval.agrees_const _
    | some parts =>
      refine (Eval.agrees_const _).bind fun data => (Eval.agrees_const _).ite ?_
      refine (Eval.agrees_add 64 _ 2).bind fun needed => (Eval.agrees_const _).ite ?_
      refine (Eval.agrees_const _).bind fun piece => (Eval.agrees_const _).bind fun tail => ?_
      exact (Eval.agrees_const _).ite ((Eval.agrees_const _).bind fun rest => ih _ _)

theorem agrees_atClose {α : Type} {result : Bool → Eval HttpError α} (failure : Option String)
    (h : Eval.Agrees result) : Eval.Agrees fun checks => atClose failure (result checks) := by
  cases failure with
  | none => exact h
  | some text => exact Eval.agrees_const _

theorem agrees_bodyOf (failure : Option String) (headers : List Header) (bodyStart : ℕ)
    (stream : Bytes) :
    Eval.Agrees fun checks => bodyOf checks failure headers bodyStart stream := by
  unfold bodyOf
  refine Eval.Agrees.ite ?_ ?_
  · exact agrees_atClose failure ((Eval.agrees_const _).bind fun data =>
      agrees_decodeChunkedLoop _ data [])
  · cases contentLength headers with
    | none => exact Eval.agrees_const _
    | some len => exact (Eval.agrees_add 64 bodyStart len).bind fun needed => Eval.agrees_const _

theorem agrees_responseOf (failure : Option String) (stream : Bytes) :
    Eval.Agrees fun checks => responseOf checks failure stream := by
  unfold responseOf
  cases position headMark stream with
  | none => exact Eval.agrees_const _
  | some headEnd =>
    dsimp only
    cases parseHead (stream.take headEnd) with
    | error error => exact Eval.agrees_const _
    | ok parts =>
      exact (Eval.agrees_add 64 headEnd 4).bind fun bodyStart =>
        (agrees_bodyOf failure parts.2 bodyStart stream).bind fun body => Eval.agrees_const _

/-- The sums of the sizes that the peer names fit into a machine word. -/
def BodyFits (failure : Option String) (headers : List Header) (bodyStart : ℕ) (stream : Bytes) :
    Prop :=
  if isChunked headers then
    failure = none → ∀ size, ReachesSize (stream.drop bodyStart) size → size + 2 < 2 ^ 64
  else ∀ len, contentLength headers = some len → bodyStart + len < 2 ^ 64

def Fits (failure : Option String) (stream : Bytes) : Prop :=
  ∀ headEnd status headers, position headMark stream = some headEnd →
    parseHead (stream.take headEnd) = .ok (status, headers) →
      BodyFits failure headers (headEnd + 4) stream

theorem bodyOf_ne_panic {failure : Option String} {headers : List Header} {bodyStart : ℕ}
    (h : bodyStart ≤ stream.length) :
    bodyOf true failure headers bodyStart stream ≠ .panic ↔
      BodyFits failure headers bodyStart stream := by
  have hslice := slice_to_end h
  unfold bodyOf BodyFits
  split
  · cases failure with
    | some text => exact iff_of_true (by simp [atClose]) (by simp)
    | none =>
      have hloop : decodeChunked true (stream.drop bodyStart) ≠ .panic ↔ _ :=
        decodeChunkedLoop_ne_panic (Nat.lt_succ_self _)
      rw [hslice]
      exact hloop.trans ⟨fun hall _ => hall, fun hall => hall rfl⟩
  · cases contentLength headers with
    | none => cases failure <;> simp [atClose, hslice]
    | some len =>
      dsimp only
      by_cases hlt : bodyStart + len < 2 ^ 64
      · rw [Eval.add_of_lt hlt, Eval.ok_bind]
        refine iff_of_true ?_ (by rintro _ ⟨⟩; exact hlt)
        split
        · cases failure <;> simp [atClose, hslice]
        · rw [slice_eq (Nat.le_add_right _ _) (by omega)]
          simp
      · rw [Eval.add_checked_of_le (Nat.not_lt.mp hlt)]
        exact iff_of_false (by simp) fun hall => hlt (hall len rfl)

/-- A build that checks sums or one that does not: neither panics if and only if the
sums fit. -/
theorem responseOf_ne_panic {failure : Option String} (hlen : stream.length < 2 ^ 64) :
    (∀ checks, responseOf checks failure stream ≠ .panic) ↔ Fits failure stream := by
  rw [(agrees_responseOf failure stream).forall_ne_panic]
  unfold responseOf Fits
  cases hpos : position headMark stream with
  | none => cases failure <;> simp [atClose]
  | some headEnd =>
    dsimp only
    have hle := (position_eq_some hpos).1.le_length headMark_ne_nil
    have hle4 : headEnd + 4 ≤ stream.length := hle
    cases hparse : parseHead (stream.take headEnd) with
    | error error =>
      refine iff_of_true (by simp) ?_
      rintro _ _ _ ⟨⟩ h
      rw [hparse] at h
      cases h
    | ok parts =>
      obtain ⟨status, headers⟩ := parts
      dsimp only
      rw [Eval.add_of_lt (by omega), Eval.ok_bind]
      have hbody : bodyOf true failure headers (headEnd + 4) stream ≠ .panic ↔ _ :=
        bodyOf_ne_panic hle4
      have hresponse : (bodyOf true failure headers (headEnd + 4) stream >>= fun body =>
          (.ok ⟨status, headers, body⟩ : Eval HttpError HttpResponse)) ≠ .panic ↔
          bodyOf true failure headers (headEnd + 4) stream ≠ .panic := by
        cases bodyOf true failure headers (headEnd + 4) stream <;> simp
      rw [hresponse, hbody]
      constructor
      · rintro hfits _ _ _ ⟨⟩ h
        rw [hparse] at h
        cases h
        exact hfits
      · intro hall
        exact hall headEnd status headers rfl hparse

end Panics

end XitForge.Http
