import XitForge.Http.WholeResponse

/-!
The bytes of a response: the header block, and the body as the headers frame it. What is
read from them is the response.
-/
namespace XitForge.Http

open ByteStream PieceStream Delimiters Separators RustEval RustText Numerals
open UriReference (Text)

/-- A text without what ends a line. -/
def OneLine (text : Text) : Prop := ∀ i, ¬ Occurs ['\r', '\n'] text i

structure StatusLine where
  version : Text
  status : ℕ
  digits : Text
  reason : Text
  version_ne_nil : version ≠ []
  version_solid : ∀ c ∈ version, isWhitespace c = false
  numeral : Numeral 10 digits status
  status_lt : status < 2 ^ 16
  one_line : OneLine (version ++ ' ' :: (digits ++ ' ' :: reason))

def StatusLine.text (line : StatusLine) : Text :=
  line.version ++ ' ' :: (line.digits ++ ' ' :: line.reason)

/-- A header, with whitespace before its value. -/
structure HeaderLine where
  name : Text
  padding : Text
  value : Text
  name_colon : ':' ∉ name
  name_trim : trimText name = name
  padding_blank : ∀ c ∈ padding, isWhitespace c = true
  value_trim : trimText value = value
  one_line : OneLine (name ++ ':' :: (padding ++ value))

def HeaderLine.text (line : HeaderLine) : Text := line.name ++ ':' :: (line.padding ++ line.value)

def HeaderLine.header (line : HeaderLine) : Header := (line.name, line.value)

def headText (status : StatusLine) (headers : List HeaderLine) : Text :=
  joined '\r' '\n' (status.text :: headers.map HeaderLine.text)

/-- The size of a chunk, and its extensions. -/
structure SizeLine (size : ℕ) where
  digits : Text
  extension : Text
  numeral : Numeral 16 digits size
  blank : ∀ c ∈ extension.takeWhile (· ≠ ';'), isWhitespace c = true
  one_line : OneLine (digits ++ extension)

def SizeLine.bytes {size : ℕ} (line : SizeLine size) : Bytes :=
  utf8 (line.digits ++ line.extension) ++ crlf

structure Chunk where
  data : Bytes
  ne_nil : data ≠ []
  line : SizeLine data.length

def Chunk.bytes (chunk : Chunk) : Bytes := chunk.line.bytes ++ chunk.data ++ crlf

/-- The bytes of a body behind the header block, and how the connection ends. Nobody reads
the trailers behind the last chunk. -/
inductive Framed (headers : List Header) : Option String → Bytes → Bytes → Prop
  | contentLength {failure : Option String} {body : Bytes} {digits : Text}
      (hchunked : isChunked headers = false)
      (hlength : headerNamed headers "content-length" = some digits)
      (hdigits : Numeral 10 digits body.length) : Framed headers failure body body
  | chunked (hchunked : isChunked headers = true) (chunks : List Chunk) (last : SizeLine 0)
      (trailers : Bytes) :
      Framed headers none (chunks.flatMap Chunk.data)
        (chunks.flatMap Chunk.bytes ++ (last.bytes ++ trailers))
  | close {body : Bytes} (hchunked : isChunked headers = false)
      (hlength : headerNamed headers "content-length" = none) : Framed headers none body body

section Texts

theorem utf8_joined (lines : List Text) :
    utf8 (joined '\r' '\n' lines) = joined 13 10 (lines.map utf8) := by
  induction lines with
  | nil => rfl
  | cons line lines ih =>
    cases lines with
    | nil => rfl
    | cons next lines =>
      have hmap : joined 13 10 ((line :: next :: lines).map utf8) =
          utf8 line ++ 13 :: 10 :: joined 13 10 ((next :: lines).map utf8) :=
        joined_cons _ (List.cons_ne_nil _ _)
      rw [joined_cons line (List.cons_ne_nil next lines), utf8_append, hmap, ← ih]
      rfl

theorem OneLine.bytes {text : Text} (h : OneLine text) (i : ℕ) : ¬ Occurs crlf (utf8 text) i := by
  intro hgiven
  obtain ⟨rest, hrest⟩ := hgiven
  have hsplit : utf8 text = (utf8 text).take i ++ 13 :: (10 :: rest) := by
    conv_lhs => rw [← List.take_append_drop i (utf8 text), ← hrest]
    rfl
  obtain ⟨before, behind, rfl, _, hbehind⟩ := exists_of_utf8_append (by decide) hsplit
  have hnext : utf8 behind = [] ++ 10 :: rest := hbehind
  obtain ⟨middle, behind, rfl, hmiddle, _⟩ := exists_of_utf8_append (by decide) hnext
  obtain rfl := utf8_eq_nil hmiddle
  refine h before.length ?_
  unfold Occurs
  rw [List.drop_left]
  exact ⟨behind, rfl⟩

theorem solid_of_toDigit {radix : ℕ} {c : Char} (h : (toDigit radix c).isSome = true) :
    isWhitespace c = false ∧ c ≠ ';' := by
  have hcode : (48 ≤ c.toNat ∧ c.toNat ≤ 57) ∨ (97 ≤ c.toNat ∧ c.toNat ≤ 122) ∨
      (65 ≤ c.toNat ∧ c.toNat ≤ 90) := by
    unfold toDigit at h
    have hle (a b : Char) : a ≤ b ↔ a.toNat ≤ b.toNat := UInt32.le_iff_toNat_le
    simp only [hle] at h
    split_ifs at h with h0 ha hA
    · exact Or.inl h0
    · exact Or.inr (Or.inl ha)
    · exact Or.inr (Or.inr hA)
    · cases h
  constructor
  · simp [isWhitespace]
    omega
  · intro heq
    subst heq
    revert hcode
    decide

end Texts

section Head

variable (status : StatusLine) (headers : List HeaderLine)

theorem parseStatus_text : parseStatus status.text = .ok status.status := by
  have hdigits : ∀ c ∈ status.digits, isWhitespace c = false := fun c hc =>
    (solid_of_toDigit (status.numeral.isDigit hc)).1
  unfold parseStatus StatusLine.text
  rw [words_append status.version_solid status.version_ne_nil,
    words_append hdigits status.numeral.ne_nil]
  rw [List.getElem?_cons_succ, List.getElem?_cons_zero, Option.bind_some,
    status.numeral.fromStrRadix_eq status.status_lt]

theorem parseHeader_text (line : HeaderLine) : parseHeader line.text = some line.header := by
  have hne : line.text ≠ [] := List.append_ne_nil_of_right_ne_nil _ (List.cons_ne_nil _ _)
  unfold parseHeader
  rw [if_neg hne, HeaderLine.text, splitOnce_append line.name_colon, Option.map_some,
    line.name_trim, trimText_append_left line.padding_blank, line.value_trim]
  rfl

theorem headText_lines : ∀ line ∈ status.text :: headers.map HeaderLine.text,
    line ≠ [] ∧ OneLine line := by
  intro line hmem
  rcases List.mem_cons.mp hmem with rfl | hmem
  · exact ⟨List.append_ne_nil_of_left_ne_nil status.version_ne_nil _, status.one_line⟩
  · obtain ⟨header, _, rfl⟩ := List.mem_map.mp hmem
    exact ⟨List.append_ne_nil_of_right_ne_nil _ (List.cons_ne_nil _ _), header.one_line⟩

theorem parseHead_text : parseHead (utf8 (headText status headers)) =
    .ok (status.status, headers.map HeaderLine.header) := by
  have hsplit : split ['\r', '\n'] crlf_ne_nil (headText status headers) =
      status.text :: headers.map HeaderLine.text :=
    split_joined (by decide) (List.cons_ne_nil _ _)
      (fun line hmem => (headText_lines status headers line hmem).2) crlf_ne_nil
  have hheaders : (headers.map HeaderLine.text).filterMap parseHeader =
      headers.map HeaderLine.header := by
    rw [List.filterMap_map, ← List.filterMap_eq_map]
    exact congrArg (fun f => headers.filterMap f) (funext parseHeader_text)
  unfold parseHead
  rw [fromUtf8_utf8]
  dsimp only
  rw [hsplit]
  dsimp only
  rw [parseStatus_text, hheaders]
  rfl

theorem position_headMark (wire : Bytes) :
    position headMark (utf8 (headText status headers) ++ headMark ++ wire) =
      some (utf8 (headText status headers)).length := by
  have hlines : ∀ line ∈ (status.text :: headers.map HeaderLine.text).map utf8,
      line ≠ [] ∧ ∀ i, ¬ Occurs [13, 10] line i := by
    intro line hmem
    obtain ⟨text, htext, rfl⟩ := List.mem_map.mp hmem
    obtain ⟨hne, hone⟩ := headText_lines status headers text htext
    exact ⟨fun hnil => hne (utf8_eq_nil hnil), hone.bytes⟩
  have hfirst := leftmost_empty_line (by decide) hlines wire
  rw [headText, utf8_joined, List.append_assoc]
  exact position_of_leftmost hfirst headMark_ne_nil

end Head

section Body

variable {checks : Bool}

theorem sizeLine_bytes {size : ℕ} (line : SizeLine size) (hlt : size < 2 ^ 64) (rest : Bytes) :
    sizeLine (line.bytes ++ rest) =
      some ((utf8 (line.digits ++ line.extension)).length, size) := by
  have hpos : position crlf (line.bytes ++ rest) =
      some (utf8 (line.digits ++ line.extension)).length := by
    have hfirst : Leftmost [13, 10] (_ ++ 13 :: 10 :: rest) _ :=
      leftmost_line (by decide) line.one_line.bytes rest
    rw [SizeLine.bytes, List.append_assoc]
    exact position_of_leftmost hfirst (List.cons_ne_nil _ _)
  have hsolid : ∀ c ∈ line.digits, isWhitespace c = false ∧ c ≠ ';' := fun c hc =>
    solid_of_toDigit (line.numeral.isDigit hc)
  have htrim : trimText ((line.digits ++ line.extension).takeWhile (· ≠ ';')) = line.digits := by
    rw [List.takeWhile_append_of_pos fun c hc => by simpa using (hsolid c hc).2]
    exact trimText_solid (fun c hc => (hsolid c hc).1) line.blank line.numeral.ne_nil
  unfold sizeLine
  rw [hpos, SizeLine.bytes, List.append_assoc]
  show (fromUtf8 (List.take _ _)).bind _ = _
  rw [List.take_left, fromUtf8_utf8]
  show (fromStrRadix 64 16 (trimText _)).bind _ = _
  rw [htrim, line.numeral.fromStrRadix_eq hlt]
  rfl

/-- The chunks of a body are put together, up to the last one. -/
theorem decodeChunkedLoop_chunks (chunks : List Chunk) (last : SizeLine 0) (trailers out : Bytes)
    {rounds : ℕ}
    (hlen : (chunks.flatMap Chunk.bytes ++ (last.bytes ++ trailers)).length < 2 ^ 64)
    (hrounds : (chunks.flatMap Chunk.bytes ++ (last.bytes ++ trailers)).length < rounds) :
    decodeChunkedLoop checks rounds (chunks.flatMap Chunk.bytes ++ (last.bytes ++ trailers)) out =
      .ok (out ++ chunks.flatMap Chunk.data) := by
  induction chunks generalizing rounds out with
  | nil =>
    obtain ⟨rounds, rfl⟩ := Nat.exists_eq_add_of_lt (Nat.zero_lt_of_lt hrounds)
    have hline := sizeLine_bytes last (by decide) trailers
    rw [List.flatMap_nil, List.nil_append, Nat.zero_add, decodeChunkedLoop_eq hline (by decide) rfl,
      if_pos rfl, List.flatMap_nil, List.append_nil]
  | cons chunk chunks ih =>
    obtain ⟨rounds, rfl⟩ := Nat.exists_eq_add_of_lt (Nat.zero_lt_of_lt hrounds)
    rw [Nat.zero_add] at hrounds ⊢
    obtain ⟨wire, hwire⟩ : ∃ wire, wire = chunks.flatMap Chunk.bytes ++ (last.bytes ++ trailers) :=
      ⟨_, rfl⟩
    have hall : (chunk :: chunks).flatMap Chunk.bytes ++ (last.bytes ++ trailers) =
        chunk.line.bytes ++ (chunk.data ++ (crlf ++ wire)) := by
      rw [hwire, List.flatMap_cons, Chunk.bytes]
      simp only [List.append_assoc]
    rw [← hwire] at ih
    rw [hall] at hlen hrounds ⊢
    have hcrlf : crlf.length = 2 := rfl
    have hbytes : chunk.line.bytes.length =
        (utf8 (chunk.line.digits ++ chunk.line.extension)).length + 2 := List.length_append
    have hpos := List.length_pos_iff.mpr chunk.ne_nil
    simp only [List.length_append] at hlen hrounds
    have hline := sizeLine_bytes chunk.line (by omega) (chunk.data ++ (crlf ++ wire))
    have hrest : chunk.data ++ (crlf ++ wire) =
        (chunk.line.bytes ++ (chunk.data ++ (crlf ++ wire))).drop
          ((utf8 (chunk.line.digits ++ chunk.line.extension)).length + 2) := by
      rw [← hbytes, List.drop_left]
    have hnext : (chunk.data ++ (crlf ++ wire)).drop (chunk.data.length + 2) = wire := by
      rw [List.drop_length_add_append]
      rfl
    have htake : (crlf ++ wire).take 2 = crlf := rfl
    rw [decodeChunkedLoop_eq hline (by omega) hrest, if_neg (Nat.ne_of_gt hpos),
      if_neg (by simp only [List.length_append]; omega), List.drop_left, List.take_left, hnext,
      if_neg (not_not.mpr htake), ih (out ++ chunk.data) (by omega) (by omega), List.flatMap_cons,
      List.append_assoc]

theorem contentLength_eq {headers : List Header} {digits : Text} {len : ℕ}
    (hlength : headerNamed headers "content-length" = some digits)
    (hdigits : Numeral 10 digits len) (hlt : len < 2 ^ 64) : contentLength headers = some len := by
  have htrim : trimText (digits ++ []) = digits :=
    trimText_solid (fun c hc => (solid_of_toDigit (hdigits.isDigit hc)).1) (by simp) hdigits.ne_nil
  rw [List.append_nil] at htrim
  unfold contentLength
  rw [hlength, Option.bind_some, htrim, hdigits.fromStrRadix_eq hlt]

theorem bodyOf_framed {headers : List Header} {failure : Option String} {body wire : Bytes}
    (h : Framed headers failure body wire) (head : Bytes)
    (hlen : (head ++ wire).length < 2 ^ 64) :
    bodyOf checks failure headers head.length (head ++ wire) = .ok body := by
  have hle : head.length ≤ (head ++ wire).length := by simp
  have hslice := slice_to_end hle
  rw [List.drop_left] at hslice
  unfold bodyOf
  cases h with
  | contentLength hchunked hlength hdigits =>
    rw [List.length_append] at hlen
    have hnot : ¬ head.length + body.length > (head ++ body).length := by simp
    rw [if_neg (by simp [hchunked]), contentLength_eq hlength hdigits (by omega)]
    dsimp only
    rw [Eval.add_of_lt (by omega), Eval.ok_bind, if_neg hnot, ← List.length_append, hslice]
  | chunked hchunked chunks last trailers =>
    rw [if_pos hchunked]
    show (slice _ _ _ >>= fun data => decodeChunked checks data) = _
    rw [List.length_append] at hlen
    rw [hslice]
    exact decodeChunkedLoop_chunks chunks last trailers [] (by omega) (Nat.lt_succ_self _)
  | close hchunked hlength =>
    have hnone : contentLength headers = none := by
      unfold contentLength
      rw [hlength]
      rfl
    rw [if_neg (by simp [hchunked]), hnone]
    exact hslice

/-- What is read from the bytes of a response is that response. -/
theorem responseOf_wire (status : StatusLine) (headers : List HeaderLine)
    {failure : Option String} {body wire : Bytes}
    (h : Framed (headers.map HeaderLine.header) failure body wire)
    (hlen : (utf8 (headText status headers) ++ headMark ++ wire).length < 2 ^ 64) :
    responseOf checks failure (utf8 (headText status headers) ++ headMark ++ wire) =
      .ok ⟨status.status, headers.map HeaderLine.header, body⟩ := by
  have hbody : bodyOf checks failure _ _ _ = .ok body :=
    bodyOf_framed h (utf8 (headText status headers) ++ headMark) hlen
  have hstart : (utf8 (headText status headers) ++ headMark).length =
      (utf8 (headText status headers)).length + 4 := List.length_append
  have htake : (utf8 (headText status headers) ++ headMark ++ wire).take
      (utf8 (headText status headers)).length = utf8 (headText status headers) := by
    rw [List.append_assoc, List.take_left]
  rw [hstart] at hbody
  rw [List.length_append, hstart] at hlen
  unfold responseOf
  rw [position_headMark]
  dsimp only
  rw [htake, parseHead_text]
  dsimp only
  rw [Eval.add_of_lt (by omega), Eval.ok_bind, hbody]
  rfl

end Body

/-- A response is read from any pieces of its bytes, in whichever way its body is framed;
and what a peer sends makes no build panic if and only if the sums of its sizes fit. -/
theorem responses_read (socket : Socket) (hlen : (content socket.pieces).length < 2 ^ 64) :
    (∀ (checks : Bool) (status : StatusLine) (headers : List HeaderLine) (body wire : Bytes),
      Framed (headers.map HeaderLine.header) socket.failure body wire →
      content socket.pieces = utf8 (headText status headers) ++ headMark ++ wire →
      readResponse checks socket =
        .ok ⟨status.status, headers.map HeaderLine.header, body⟩) ∧
    ((∀ checks, readResponse checks socket ≠ .panic) ↔
      Fits socket.failure (content socket.pieces)) := by
  constructor
  · intro checks status headers body wire hframed hcontent
    rw [readResponse_eq, hcontent]
    rw [hcontent] at hlen
    exact responseOf_wire status headers hframed hlen
  · simp only [readResponse_eq]
    exact responseOf_ne_panic hlen

section Examples

theorem oneLine_of_position {text : Text} (h : position ['\r', '\n'] text = none) :
    OneLine text := fun _ => position_eq_none h (by decide +kernel)

theorem solid_of_all {text : Text} (h : text.all (! isWhitespace ·) = true) :
    ∀ c ∈ text, isWhitespace c = false := by simpa using h

def okStatus : StatusLine where
  version := "HTTP/1.1".toList
  status := 200
  digits := "200".toList
  reason := "OK".toList
  version_ne_nil := by decide +kernel
  version_solid := solid_of_all (by decide +kernel)
  numeral := numeral_iff.mpr (by decide +kernel)
  status_lt := by decide +kernel
  one_line := oneLine_of_position (by decide +kernel)

def chunkedHeader : HeaderLine where
  name := "Transfer-Encoding".toList
  padding := " ".toList
  value := "chunked".toList
  name_colon := by decide +kernel
  name_trim := by decide +kernel
  padding_blank := List.all_eq_true.mp (by decide +kernel)
  value_trim := by decide +kernel
  one_line := oneLine_of_position (by decide +kernel)

def abcChunk : Chunk where
  data := [97, 98, 99]
  ne_nil := by decide +kernel
  line := ⟨['3'], ";name=value".toList, .digit rfl, List.all_eq_true.mp (by decide +kernel),
    oneLine_of_position (by decide +kernel)⟩

def lastLine : SizeLine 0 :=
  ⟨['0'], [], .digit rfl, List.all_eq_true.mp (by decide +kernel),
    oneLine_of_position (by decide +kernel)⟩

def abcStream : Bytes :=
  utf8 (headText okStatus [chunkedHeader]) ++ headMark ++
    ([abcChunk].flatMap Chunk.bytes ++ (lastLine.bytes ++ crlf))

/-- The stream cut in the middle of its first line. -/
def abcSocket : Socket where
  pieces := [⟨abcStream.take 10, by decide +kernel⟩, ⟨abcStream.drop 10, by decide +kernel⟩]
  failure := none

theorem responses_read_abc :
    (∀ checks, readResponse checks abcSocket =
      .ok ⟨200, [("Transfer-Encoding".toList, "chunked".toList)], [97, 98, 99]⟩) ∧
    Fits none (content abcSocket.pieces) := by
  have hcontent : content abcSocket.pieces = abcStream := by
    simp [abcSocket, content]
  have hlen : (content abcSocket.pieces).length < 2 ^ 64 := by
    rw [hcontent]
    decide +kernel
  obtain ⟨hwire, hpanic⟩ := responses_read abcSocket hlen
  have hread (checks : Bool) : readResponse checks abcSocket =
      .ok ⟨200, [("Transfer-Encoding".toList, "chunked".toList)], [97, 98, 99]⟩ :=
    hwire checks okStatus [chunkedHeader] [97, 98, 99] _
      (.chunked (by decide +kernel) [abcChunk] lastLine crlf) hcontent
  refine ⟨hread, hpanic.mp fun checks => ?_⟩
  rw [hread checks]
  simp

/-- The greatest number that is parsed. -/
def hugeHeader : HeaderLine where
  name := "Content-Length".toList
  padding := " ".toList
  value := "18446744073709551615".toList
  name_colon := by decide +kernel
  name_trim := by decide +kernel
  padding_blank := List.all_eq_true.mp (by decide +kernel)
  value_trim := by decide +kernel
  one_line := oneLine_of_position (by decide +kernel)

def hugeStream : Bytes := utf8 (headText okStatus [hugeHeader]) ++ headMark ++ []

theorem hugeStream_overflows : ¬ ∀ (checks : Bool) (socket : Socket),
    (content socket.pieces).length < 2 ^ 64 → readResponse checks socket ≠ .panic := by
  intro hall
  have hcontent : content [⟨hugeStream, by decide +kernel⟩] = hugeStream := List.append_nil _
  have hlen : hugeStream.length < 2 ^ 64 := by decide +kernel
  have hnever (checks : Bool) : responseOf checks none hugeStream ≠ .panic := by
    have h := hall checks ⟨[⟨hugeStream, by decide +kernel⟩], none⟩ (by rw [hcontent]; exact hlen)
    rwa [readResponse_eq, hcontent] at h
  have htake : hugeStream.take (utf8 (headText okStatus [hugeHeader])).length =
      utf8 (headText okStatus [hugeHeader]) := by
    rw [hugeStream, List.append_assoc, List.take_left]
  have hfits := (responseOf_ne_panic hlen).mp hnever _ okStatus.status [hugeHeader.header]
    (position_headMark okStatus [hugeHeader] []) (by rw [htake]; exact parseHead_text _ _)
  have hchunked : isChunked [hugeHeader.header] = false := by decide +kernel
  have hlength : contentLength [hugeHeader.header] = some 18446744073709551615 := by decide +kernel
  unfold BodyFits at hfits
  rw [if_neg (by simp [hchunked])] at hfits
  have hsum := hfits _ hlength
  omega

end Examples

end XitForge.Http
