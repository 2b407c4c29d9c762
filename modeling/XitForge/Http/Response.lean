import XitForge.Delimiters
import XitForge.Http.Redirect
import XitForge.PieceStream
import XitForge.RustSlice
import XitForge.RustText

/-!
`read_response`. What comes from the socket is gathered in a buffer until the header
block is in it, and then, as the headers say, until the body is.
-/
namespace XitForge.Http

open ByteStream PieceStream Delimiters Separators RustEval RustSlice RustText Numerals
open UriReference (Text)

abbrev Header := Text × Text

structure HttpResponse where
  status : ℕ
  headers : List Header
  body : Bytes
  deriving DecidableEq

section Reading

/-- A connection. Behind the last piece it is closed, or a read fails. -/
structure Socket where
  pieces : List Piece
  failure : Option String

/-- The bytes that `tmp` holds. -/
def tmpSize : ℕ := 16384

def readMore (socket : Socket) (buf : Bytes) : Except HttpError (Option (Socket × Bytes)) :=
  let tmp := (read tmpSize socket.pieces).1
  if tmp = [] then
    match socket.failure with
    | some text => .error (.socket text)
    | none => .ok none
  else .ok (some ({ socket with pieces := (read tmpSize socket.pieces).2 }, buf ++ tmp))

theorem readMore_shorter {socket next : Socket} {buf more : Bytes}
    (h : readMore socket buf = .ok (some (next, more))) :
    (content next.pieces).length < (content socket.pieces).length := by
  unfold readMore at h
  dsimp only at h
  split at h
  · split at h <;> cases h
  · rename_i hne
    cases h
    exact length_content_read hne

/-- The loops around `read_more`: they end where the buffer needs no more, and at the end
of the connection. -/
def readWhile (needsMore : Bytes → Bool) (socket : Socket) (buf : Bytes) :
    Eval HttpError (Socket × Bytes) :=
  if needsMore buf then
    match _h : readMore socket buf with
    | .error error => .err error
    | .ok none => .ok (socket, buf)
    | .ok (some (next, more)) => readWhile needsMore next more
  else .ok (socket, buf)
termination_by (content socket.pieces).length
decreasing_by exact readMore_shorter _h

end Reading

section Parsing

def crlf : Bytes := [13, 10]

theorem crlf_ne_nil : ['\r', '\n'] ≠ [] := List.cons_ne_nil _ _

def eqIgnoreAsciiCase (a b : Text) : Bool := a.map Char.toLower = b.map Char.toLower

/-- The value of the first header of a name. -/
def headerNamed (headers : List Header) (name : String) : Option Text :=
  (headers.find? fun header => eqIgnoreAsciiCase header.1 name.toList).map Prod.snd

/-- `contains` -/
def containsText (piece text : Text) : Bool := (position piece text).isSome

def parseStatus (statusLine : Text) : Except HttpError ℕ :=
  match (words statusLine)[1]?.bind (fromStrRadix 16 10) with
  | some status => .ok status
  | none => .error (.http ("malformed HTTP status line: " ++ String.ofList statusLine))

/-- A line of the header block; one without a colon is passed over. -/
def parseHeader (line : Text) : Option Header :=
  if line = [] then none
  else (splitOnce ':' line).map fun parts => (trimText parts.1, trimText parts.2)

def parseHead (head : Bytes) : Except HttpError (ℕ × List Header) :=
  match fromUtf8 head with
  | none => .error (.http "non-UTF-8 HTTP header block")
  | some text =>
    match split ['\r', '\n'] crlf_ne_nil text with
    | [] => .error (.http "empty HTTP response")
    | statusLine :: lines => do
      let status ← parseStatus statusLine
      .ok (status, lines.filterMap parseHeader)

end Parsing

section Chunks

variable (checks : Bool)

def malformed : HttpError := .http "malformed chunked HTTP body"

/-- The line of a chunk's size, up to where it ends. -/
def sizeLine (data : Bytes) : Option (ℕ × ℕ) := do
  let lineEnd ← position crlf data
  let line ← fromUtf8 (data.take lineEnd)
  let size ← fromStrRadix 64 16 (trimText (line.takeWhile (· ≠ ';')))
  some (lineEnd, size)

/-- `&data[start..stop]` -/
def slice (data : Bytes) (start stop : ℕ) : Eval HttpError Bytes :=
  match getRange data start stop with
  | some piece => .ok piece
  | none => .panic

/-- The loop of `decode_chunked`, which takes two bytes of the data at least in a round. -/
def decodeChunkedLoop : ℕ → Bytes → Bytes → Eval HttpError Bytes
  | 0, _, _ => .panic
  | rounds + 1, data, out =>
    match sizeLine data with
    | none => .err malformed
    | some (lineEnd, size) => do
      let data ← slice data (lineEnd + 2) data.length
      if size = 0 then .ok out
      else do
        let needed ← Eval.add 64 checks size 2
        if data.length < needed then .err malformed
        else do
          let piece ← slice data 0 size
          let tail ← slice data size needed
          if tail ≠ crlf then .err malformed
          else do
            let rest ← slice data needed data.length
            decodeChunkedLoop rounds rest (out ++ piece)

def decodeChunked (data : Bytes) : Eval HttpError Bytes :=
  decodeChunkedLoop checks (data.length + 1) data []

end Chunks

section Responding

variable (checks : Bool)

def headMark : Bytes := crlf ++ crlf

def isChunked (headers : List Header) : Bool :=
  (headerNamed headers "transfer-encoding").any fun value =>
    containsText "chunked".toList (value.map Char.toLower)

def contentLength (headers : List Header) : Option ℕ :=
  (headerNamed headers "content-length").bind fun value => fromStrRadix 64 10 (trimText value)

/-- The body, where the headers have been read. -/
def readBody (headers : List Header) (bodyStart : ℕ) (socket : Socket) (buf : Bytes) :
    Eval HttpError Bytes :=
  if isChunked headers then do
    let (_, buf) ← readWhile (fun _ => true) socket buf
    let data ← slice buf bodyStart buf.length
    decodeChunked checks data
  else
    match contentLength headers with
    | some len => do
      let needed ← Eval.add 64 checks bodyStart len
      let (_, buf) ← readWhile (fun buf => buf.length < needed) socket buf
      slice buf bodyStart (min needed buf.length)
    | none => do
      let (_, buf) ← readWhile (fun _ => true) socket buf
      slice buf bodyStart buf.length

def readResponse (socket : Socket) : Eval HttpError HttpResponse := do
  let (socket, buf) ← readWhile (fun buf => (position headMark buf).isNone) socket []
  match position headMark buf with
  | none => .err (.http "connection closed before HTTP headers were complete")
  | some headEnd =>
    match parseHead (buf.take headEnd) with
    | .error error => .err error
    | .ok (status, headers) => do
      let bodyStart ← Eval.add 64 checks headEnd 4
      let body ← readBody checks headers bodyStart socket buf
      .ok ⟨status, headers, body⟩

end Responding

end XitForge.Http
