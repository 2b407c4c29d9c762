import XitForge.PieceStream
import XitForge.RustText

/-!
The proxy of the FDR channel. The request of the device says where to connect, and from
then on the bytes of the device are copied to the host that was connected to.
-/
namespace XitForge.Restore.FdrProxy

open ByteStream PieceStream RustText

inductive FdrError where
  | noEstablishedConnection
  /-- `TcpStream::connect` failed. -/
  | connect
  deriving DecidableEq, Repr

/-- What the proxy did. -/
structure Proxied where
  result : Except FdrError Unit
  /-- What it wrote to the device before the bridge. -/
  echoed : Bytes
  /-- The host and the port that it connected to. -/
  connected : Option (String × ℕ)
  /-- What it forwarded to the host. -/
  forwarded : Bytes

def chunkSize : ℕ := 2 ^ 20

/-- The buffer of `tokio::io::copy`. -/
def copySize : ℕ := 8 * 1024

/-- `read_any`. -/
def readAny (maxSize : ℕ) : Option (List Piece) → Except FdrError (Bytes × Option (List Piece))
  | some pieces => .ok ((read maxSize pieces).1, some (read maxSize pieces).2)
  | none => .error .noEstablishedConnection

/-- The copy to the host, which makes so many reads before the other one ends. -/
def copy : ℕ → List Piece → Bytes
  | 0, _ => []
  | reads + 1, pieces =>
    if (read copySize pieces).1 = [] then []
    else (read copySize pieces).1 ++ copy reads (read copySize pieces).2

/-- The two copies until one of them ends. -/
def bridge (reads : ℕ) (device : Option (List Piece)) (connected : String × ℕ) (echoed : Bytes) :
    Proxied :=
  match device with
  | some pieces => ⟨.ok (), echoed, some connected, copy reads pieces⟩
  | none => ⟨.error .noEstablishedConnection, echoed, some connected, []⟩

/-- What becomes of a read, for what connecting to a host and a port comes to. -/
def handleRequest (connects : String → ℕ → Bool) (reads : ℕ) (buf : Bytes)
    (device : Option (List Piece)) : Proxied :=
  let acknowledged := leBytes 2 5
  if hshort : buf.length < 3 then ⟨.ok (), acknowledged, none, []⟩
  else
    let echoed := acknowledged ++ buf
    if buf[0] ≠ 0 ∨ buf[1] ≠ 3 then ⟨.ok (), echoed, none, []⟩
    else
      let hostlen := buf[2].toNat
      if buf.length < 3 + hostlen + 2 then ⟨.ok (), echoed, none, []⟩
      else
        let host := fromUtf8Lossy ((buf.take (3 + hostlen)).drop 3)
        let port := beValue [buf[buf.length - 2], buf[buf.length - 1]]
        if connects host port then bridge reads device (host, port) echoed
        else ⟨.error .connect, echoed, some (host, port), []⟩

def handleProxy (connects : String → ℕ → Bool) (reads : ℕ) (device : Option (List Piece)) :
    Proxied :=
  match readAny chunkSize device with
  | .error error => ⟨.error error, [], none, []⟩
  | .ok (buf, device) => handleRequest connects reads buf device

/-- A connect request: the length of the host, the host and the port. -/
structure ConnectRequest where
  host : Bytes
  port : ℕ
  host_length : host.length < 256
  port_lt : port < 2 ^ 16

namespace ConnectRequest

variable (request : ConnectRequest)

def bytes : Bytes :=
  [0, 3, UInt8.ofNat request.host.length] ++ request.host ++ beBytes 2 request.port

/-- Every run of the proxy connects to that host and port, and forwards what is behind
the request: its beginning, and all of it if the copy lasts to the end of the stream. -/
def ProxiedWith (pieces : List Piece) (payload : Bytes) : Prop :=
  ∀ connects reads, ∃ name : String,
    name.toList.flatMap String.utf8EncodeChar = request.host ∧
    (handleProxy connects reads (some pieces)).connected = some (name, request.port) ∧
    (connects name request.port = true →
      (handleProxy connects reads (some pieces)).forwarded <+: payload ∧
      (payload.length < reads → (handleProxy connects reads (some pieces)).forwarded = payload))

end ConnectRequest

section Copy

variable {reads : ℕ} {pieces : List Piece}

theorem copy_isPrefix (reads : ℕ) (pieces : List Piece) : copy reads pieces <+: content pieces := by
  induction reads generalizing pieces with
  | zero => exact List.nil_prefix
  | succ reads ih =>
    unfold copy
    split
    · exact List.nil_prefix
    · rw [← read_append copySize pieces]
      exact List.prefix_append_right_inj _ |>.mpr (ih _)

theorem copy_whole (h : (content pieces).length < reads) : copy reads pieces = content pieces := by
  induction reads generalizing pieces with
  | zero => omega
  | succ reads ih =>
    unfold copy
    split
    · rename_i hend
      rw [(read_eq_nil (by decide)).mp hend]
      rfl
    · rename_i hmore
      have hshorter := length_content_read hmore
      rw [ih (by omega), read_append]

end Copy

theorem lastTwo_eq {buf : Bytes} (h : 2 ≤ buf.length) :
    [buf[buf.length - 2], buf[buf.length - 1]] = buf.drop (buf.length - 2) := by
  have hlast : buf.length - 2 + 1 = buf.length - 1 := by omega
  have hend : buf.length - 1 + 1 = buf.length := by omega
  rw [List.drop_eq_getElem_cons (by omega : buf.length - 2 < buf.length), hlast,
    List.drop_eq_getElem_cons (by omega : buf.length - 1 < buf.length), hend, List.drop_length]

section Request

variable {connects : String → ℕ → Bool} {reads : ℕ} {rest : List Piece}

/-- A read that is too short for a request connects to nothing. -/
theorem connected_of_few {buf : Bytes} (h : buf.length < 3) :
    (handleRequest connects reads buf (some rest)).connected = none := by
  unfold handleRequest
  rw [dif_pos h]

theorem connected_of_truncated {hostlen : UInt8} {tail : Bytes}
    (h : tail.length < hostlen.toNat + 2) :
    (handleRequest connects reads (0 :: 3 :: hostlen :: tail) (some rest)).connected = none := by
  have hfew : ¬ (0 :: 3 :: hostlen :: tail).length < 3 := by
    simp only [List.length_cons]
    omega
  have htruncated : (0 :: 3 :: hostlen :: tail).length < 3 + hostlen.toNat + 2 := by
    simp only [List.length_cons]
    omega
  have hthird : (0 :: 3 :: hostlen :: tail)[2] = hostlen := rfl
  unfold handleRequest
  rw [dif_neg hfew]
  dsimp only
  rw [if_neg (by simp), hthird, if_pos htruncated]

/-- The host is where the request has it, and the port at the end of the read. -/
theorem handleRequest_eq {hostlen : UInt8} {tail : Bytes} (h : hostlen.toNat + 2 ≤ tail.length) :
    handleRequest connects reads (0 :: 3 :: hostlen :: tail) (some rest) =
      let host := fromUtf8Lossy (tail.take hostlen.toNat)
      let port := beValue (tail.drop (tail.length - 2))
      let echoed := leBytes 2 5 ++ 0 :: 3 :: hostlen :: tail
      if connects host port then bridge reads (some rest) (host, port) echoed
      else ⟨.error .connect, echoed, some (host, port), []⟩ := by
  have hfew : ¬ (0 :: 3 :: hostlen :: tail).length < 3 := by
    simp only [List.length_cons]
    omega
  have hwhole : ¬ (0 :: 3 :: hostlen :: tail).length < 3 + hostlen.toNat + 2 := by
    simp only [List.length_cons]
    omega
  have hhost : ((0 :: 3 :: hostlen :: tail).take (3 + hostlen.toNat)).drop 3 =
      tail.take hostlen.toNat := by
    rw [List.drop_take, Nat.add_sub_cancel_left]
    rfl
  have hport : (0 :: 3 :: hostlen :: tail).drop ((0 :: 3 :: hostlen :: tail).length - 2) =
      tail.drop (tail.length - 2) := by
    have hlength : (0 :: 3 :: hostlen :: tail).length - 2 = tail.length - 2 + 1 + 1 + 1 := by
      simp only [List.length_cons]
      omega
    rw [hlength]
    rfl
  have hthird : (0 :: 3 :: hostlen :: tail)[2] = hostlen := rfl
  unfold handleRequest
  rw [dif_neg hfew]
  dsimp only
  rw [if_neg (by simp), hthird, if_neg hwhole, lastTwo_eq (by omega), hhost, hport]

end Request

namespace ConnectRequest

variable {request : ConnectRequest}

theorem length_bytes : request.bytes.length = 5 + request.host.length := by
  simp only [bytes, List.length_append, List.length_cons, List.length_nil, length_beBytes]
  omega

theorem length_bytes_lt : request.bytes.length < chunkSize := by
  have hlt := request.host_length
  rw [length_bytes, chunkSize]
  omega

theorem toNat_hostlen : (UInt8.ofNat request.host.length).toNat = request.host.length := by
  rw [UInt8.toNat_ofNat']
  exact Nat.mod_eq_of_lt request.host_length

theorem bytes_eq : request.bytes =
    0 :: 3 :: UInt8.ofNat request.host.length :: (request.host ++ beBytes 2 request.port) := rfl

/-- A read that ends within the request connects to nothing. -/
theorem connected_of_short {connects : String → ℕ → Bool} {reads : ℕ} {rest : List Piece}
    {buf : Bytes} (hbuf : buf <+: request.bytes) (h : buf.length < request.bytes.length) :
    (handleRequest connects reads buf (some rest)).connected = none := by
  by_cases hfew : buf.length < 3
  · exact connected_of_few hfew
  · have hthree : buf = 0 :: 3 :: UInt8.ofNat request.host.length :: buf.drop 3 := by
      have hfront : request.bytes.take 3 <+: buf :=
        List.prefix_of_prefix_length_le (List.take_prefix 3 _) hbuf (by
          rw [List.length_take]
          omega)
      have htake := List.prefix_iff_eq_take.mp hfront
      rw [List.length_take, length_bytes, Nat.min_eq_left (by omega)] at htake
      exact (List.take_append_drop 3 buf).symm.trans (congrArg (· ++ buf.drop 3) htake.symm)
    rw [hthree]
    refine connected_of_truncated ?_
    rw [toNat_hostlen, List.length_drop]
    rw [length_bytes] at h
    omega

/-- What a read makes of the proxy that has the request and perhaps more. -/
theorem handleRequest_bytes {connects : String → ℕ → Bool} {reads : ℕ} {rest : List Piece}
    (extra : Bytes) :
    handleRequest connects reads (request.bytes ++ extra) (some rest) =
      let host := fromUtf8Lossy request.host
      let port := beValue ((beBytes 2 request.port ++ extra).drop extra.length)
      let echoed := leBytes 2 5 ++ (request.bytes ++ extra)
      if connects host port then bridge reads (some rest) (host, port) echoed
      else ⟨.error .connect, echoed, some (host, port), []⟩ := by
  have hbytes : request.bytes ++ extra = 0 :: 3 :: UInt8.ofNat request.host.length ::
      (request.host ++ (beBytes 2 request.port ++ extra)) := by
    rw [bytes_eq]
    simp
  have hlength : (request.host ++ (beBytes 2 request.port ++ extra)).length =
      request.host.length + (2 + extra.length) := by
    rw [List.length_append, List.length_append, length_beBytes]
  have hport : (request.host ++ (beBytes 2 request.port ++ extra)).drop
      (request.host.length + (2 + extra.length) - 2) =
      (beBytes 2 request.port ++ extra).drop extra.length := by
    have hoffset : request.host.length + (2 + extra.length) - 2 =
        request.host.length + extra.length := by omega
    rw [hoffset, ← List.drop_drop, List.drop_left]
  rw [hbytes, handleRequest_eq (by rw [hlength, toNat_hostlen]; omega), toNat_hostlen,
    List.take_left, hlength, hport]

/-- The first piece is the request if the first read is. -/
theorem head?_eq_of_read {pieces : List Piece} (h : (read chunkSize pieces).1 = request.bytes) :
    pieces.head?.map Piece.bytes = some request.bytes := by
  have hlt := @length_bytes_lt request
  cases pieces with
  | nil =>
    have hlength := congrArg List.length h
    rw [length_bytes] at hlength
    change 0 = _ at hlength
    omega
  | cons piece rest =>
    have hpiece : piece.bytes.take chunkSize = request.bytes := h
    rw [← hpiece, List.length_take] at hlt
    rw [List.take_of_length_le (by omega)] at hpiece
    exact congrArg some hpiece

theorem read_of_head? {pieces : List Piece}
    (h : pieces.head?.map Piece.bytes = some request.bytes) :
    (read chunkSize pieces).1 = request.bytes := by
  cases pieces with
  | nil => exact nomatch h
  | cons piece rest =>
    have hpiece : piece.bytes = request.bytes := Option.some.inj h
    have hle : piece.bytes.length ≤ chunkSize := by
      rw [hpiece]
      exact length_bytes_lt.le
    rw [read_whole hle]
    exact hpiece

theorem proxiedWith_of_read {pieces : List Piece} {payload : Bytes} {name : String}
    (hname : name.toList.flatMap String.utf8EncodeChar = request.host)
    (hread : (read chunkSize pieces).1 = request.bytes)
    (h : content pieces = request.bytes ++ payload) : request.ProxiedWith pieces payload := by
  intro connects reads
  have hpayload : content (read chunkSize pieces).2 = payload := by
    rw [← read_append chunkSize pieces, hread] at h
    exact List.append_cancel_left h
  have hhost : fromUtf8Lossy request.host = name := by rw [← hname, fromUtf8Lossy_encode]
  have hport :
      beValue ((beBytes 2 request.port ++ []).drop ([] : Bytes).length) = request.port := by
    rw [List.append_nil]
    exact beValue_beBytes request.port_lt
  have hrun : handleProxy connects reads (some pieces) =
      handleRequest connects reads (request.bytes ++ []) (some (read chunkSize pieces).2) := by
    rw [List.append_nil, ← hread]
    rfl
  rw [hrun, handleRequest_bytes, hport, hhost]
  refine ⟨name, hname, ?_, fun hconnects => ?_⟩
  · dsimp only
    split <;> rfl
  · dsimp only
    rw [if_pos hconnects, ← hpayload]
    exact ⟨copy_isPrefix reads _, copy_whole⟩

/-- What comes with the request in one read is not forwarded. -/
theorem not_proxiedWith_of_extra {pieces : List Piece} {payload extra : Bytes}
    (hread : (read chunkSize pieces).1 = request.bytes ++ extra) (hextra : extra ≠ [])
    (h : content pieces = request.bytes ++ payload) : ¬ request.ProxiedWith pieces payload := by
  intro hproxied
  obtain ⟨name, _, hconnected, hforwarded⟩ := hproxied (fun _ _ => true) (payload.length + 1)
  have hrun : handleProxy (fun _ _ => true) (payload.length + 1) (some pieces) =
      handleRequest (fun _ _ => true) (payload.length + 1) (request.bytes ++ extra)
        (some (read chunkSize pieces).2) := by
    rw [← hread]
    rfl
  have hpayload := (hforwarded rfl).2 (Nat.lt_succ_self _)
  rw [hrun, handleRequest_bytes] at hpayload
  have hcopy : copy (payload.length + 1) (read chunkSize pieces).2 = payload := hpayload
  have hlength := (copy_isPrefix (payload.length + 1) (read chunkSize pieces).2).length_le
  rw [hcopy] at hlength
  have htotal := congrArg List.length (read_append chunkSize pieces)
  have hpos := List.length_pos_iff.mpr hextra
  rw [hread, h] at htotal
  simp only [List.length_append] at htotal
  omega

end ConnectRequest

/-- The proxy does what the request asks for exactly if the host is a text and the request
comes in one read of its own. -/
theorem proxiedWith_iff (request : ConnectRequest) (payload : Bytes) (pieces : List Piece)
    (h : content pieces = request.bytes ++ payload) :
    request.ProxiedWith pieces payload ↔
      (∃ name : String, name.toList.flatMap String.utf8EncodeChar = request.host) ∧
      pieces.head?.map Piece.bytes = some request.bytes := by
  constructor
  · intro hproxied
    have hfront : (read chunkSize pieces).1 <+: request.bytes ++ payload := by
      rw [← h, ← read_append chunkSize pieces]
      exact List.prefix_append _ _
    obtain ⟨name, hname, hconnected, _⟩ := hproxied (fun _ _ => true) 0
    refine ⟨⟨name, hname⟩, ?_⟩
    rcases Nat.lt_or_ge (read chunkSize pieces).1.length request.bytes.length with hlt | hge
    · have hshort := List.prefix_of_prefix_length_le hfront (List.prefix_append _ _) hlt.le
      have hnone := @ConnectRequest.connected_of_short request (fun _ _ => true) 0
        (read chunkSize pieces).2 _ hshort hlt
      exact absurd (hnone.symm.trans hconnected) (nofun)
    · obtain ⟨extra, hextra⟩ := List.prefix_of_prefix_length_le (List.prefix_append _ _) hfront hge
      by_cases hnil : extra = []
      · rw [hnil, List.append_nil] at hextra
        exact ConnectRequest.head?_eq_of_read hextra.symm
      · exact absurd hproxied (ConnectRequest.not_proxiedWith_of_extra hextra.symm hnil h)
  · intro hgiven
    obtain ⟨⟨name, hname⟩, hhead⟩ := hgiven
    exact ConnectRequest.proxiedWith_of_read hname (ConnectRequest.read_of_head? hhead) h

/-- Port 443 of a host with a name of one letter. -/
def ConnectRequest.sample : ConnectRequest where
  host := [97]
  port := 443
  host_length := by decide
  port_lt := by decide

/-- With the request in a read of its own the payload is forwarded. -/
theorem proxiedWith_two_reads :
    ConnectRequest.sample.ProxiedWith
      [⟨[0, 3, 1, 97, 1, 187], by decide⟩, ⟨[22, 3], by decide⟩] [22, 3] := by
  refine (proxiedWith_iff ConnectRequest.sample [22, 3] _ (by decide)).mpr ⟨⟨"a", ?_⟩, by decide⟩
  decide

/-- With payload in the same read, or a part of the request only, it is not. -/
theorem not_proxiedWith_one_read :
    ¬ ConnectRequest.sample.ProxiedWith [⟨[0, 3, 1, 97, 1, 187, 22, 3], by decide⟩] [22, 3] ∧
    ¬ ConnectRequest.sample.ProxiedWith
      [⟨[0, 3, 1, 97], by decide⟩, ⟨[1, 187, 22, 3], by decide⟩] [22, 3] := by
  constructor
  · have hread : (read chunkSize [⟨[0, 3, 1, 97, 1, 187, 22, 3], by decide⟩]).1 =
        ConnectRequest.sample.bytes ++ [22, 3] := rfl
    exact ConnectRequest.not_proxiedWith_of_extra hread (nofun) (by decide)
  · intro hproxied
    obtain ⟨name, _, hconnected, _⟩ := hproxied (fun _ _ => true) 0
    exact nomatch hconnected

end XitForge.Restore.FdrProxy
