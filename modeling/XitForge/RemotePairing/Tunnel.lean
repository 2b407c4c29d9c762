import XitForge.RemotePairing.Framing
import XitForge.TlsPsk.ReadPaths

/-!
The two CDTunnel handshakes. `CdTunnel::handshake` reads the response off a byte stream, as
many bytes as it declares; `connect_tls_psk_tunnel_native` takes one record for the response,
slices it by the length that the peer declares in it, and drops what is left of the record.
-/
namespace XitForge.RemotePairing

open RustEval ByteStream JsonValue TlsPsk

section Model

/-- b"CDTunnel" -/
def CDTUNNEL_MAGIC : List UInt8 := [0x43, 0x44, 0x54, 0x75, 0x6e, 0x6e, 0x65, 0x6c]

structure TunnelInfo where
  clientAddress : String
  netmask : String
  serverAddress : String
  mtu : UInt16
  serverRsdPort : UInt16
  deriving DecidableEq, Repr

/-- The texts in which the two handshakes name what a response lacks. -/
structure ResponseTexts where
  clientParameters : String
  clientAddress : String
  serverAddress : String

def readResponse (texts : ResponseTexts) (response : Value) : Eval ReadError TunnelInfo :=
  match response.get "clientParameters" with
  | none => .err (.unexpectedResponse texts.clientParameters)
  | some clientParams =>
    match (clientParams.get "address").bind Value.asStr with
    | none => .err (.unexpectedResponse texts.clientAddress)
    | some clientAddress =>
      match (response.get "serverAddress").bind Value.asStr with
      | none => .err (.unexpectedResponse texts.serverAddress)
      | some serverAddress =>
        .ok
          { clientAddress := clientAddress
            netmask := ((clientParams.get "netmask").bind Value.asStr).getD ""
            serverAddress := serverAddress
            mtu := (((clientParams.get "mtu").bind Value.asU64).getD 1500).toUInt16
            serverRsdPort :=
              (((response.get "serverRSDPort").bind Value.asU64).getD 0).toUInt16 }

namespace CdTunnel

def responseTexts : ResponseTexts where
  clientParameters := "missing clientParameters in CDTunnel handshake response"
  clientAddress := "missing client address in CDTunnel handshake response"
  serverAddress := "missing serverAddress in CDTunnel handshake response"

/-- `CdTunnel::handshake` over a stream that gives these bytes and then ends. `requestSent`
tells whether the request can be written. Returned with the information is what the tunnel
has not read yet. -/
def handshake (parse : Parse) (requestSent : Bool) (unread : List UInt8) :
    Eval ReadError (TunnelInfo × List UInt8) :=
  if requestSent then do
    let (magic, unread) ← AsyncReadExt.readExact CDTUNNEL_MAGIC.length unread
    if magic ≠ CDTUNNEL_MAGIC then
      .err (.unexpectedResponse "invalid CDTunnel magic in handshake response")
    else do
      let (len, unread) ← AsyncReadExt.readExact 2 unread
      let (body, unread) ← AsyncReadExt.readExact (beValue len) unread
      let response ← fromSlice parse ReadError.json body
      let info ← readResponse responseTexts response
      pure (info, unread)
  else .err .socket

/-- `recv_packet`: an IPv6 header and the payload that it declares. -/
def recvPacket (unread : List UInt8) : Eval ReadError (List UInt8 × List UInt8) := do
  let (header, unread) ← AsyncReadExt.readExact 40 unread
  let (payload, unread) ← AsyncReadExt.readExact (beValue ((header.drop 4).take 2)) unread
  pure (header ++ payload, unread)

end CdTunnel

def nativeTexts : ResponseTexts where
  clientParameters := "missing clientParameters in CDTunnel response"
  clientAddress := "missing client address in CDTunnel response"
  serverAddress := "missing server address in CDTunnel response"

/-- The response in what one record gives. The slice of the body panics if it is too long. -/
def nativeResponse (parse : Parse) (responseData : List UInt8) : Eval ReadError TunnelInfo :=
  if responseData.length < CDTUNNEL_MAGIC.length + 2 then
    .err (.unexpectedResponse "CDTunnel handshake response too short")
  else if responseData.take CDTUNNEL_MAGIC.length ≠ CDTUNNEL_MAGIC then
    .err (.unexpectedResponse "CDTunnel handshake response missing magic header")
  else
    let bodyLen := beValue ((responseData.drop CDTUNNEL_MAGIC.length).take 2)
    let bodyStart := CDTUNNEL_MAGIC.length + 2
    if responseData.length < bodyStart + bodyLen then .panic
    else do
      let response ← fromSlice parse ReadError.internalError
        ((responseData.drop bodyStart).take bodyLen)
      readResponse nativeTexts response

/-- `connect_tls_psk_tunnel_native` from the stream on that the TLS handshake returns, with
what the inner stream still has to give. -/
def connectTlsPskTunnelNative (P : Primitives) (parse : Parse) (requestSent : Bool)
    (s : TlsPskStream) (unread : List UInt8) :
    Eval ReadError (TunnelInfo × TlsPskStream × List UInt8) :=
  if requestSent then
    match s.readAppData P unread with
    | (.ok responseData, s, unread) =>
      match nativeResponse parse responseData with
      | .ok info => .ok (info, s, unread)
      | .err error => .err error
      | .panic => .panic
    | (.err (.internalError message), _) => .err (.internalError message)
    | (.err .socket, _) => .err .socket
    | (.panic, _) => .panic
  else .err .socket

end Model

section Response

variable {parse : Parse} {bytes data tail following leftover : List UInt8} {info : TunnelInfo}

/-- A response that both accept, with what follows it: the magic, two bytes that declare the
length of the body, and a body with everything that is needed. -/
def Response (parse : Parse) (bytes : List UInt8) (info : TunnelInfo) (following : List UInt8) :
    Prop :=
  ∃ len body response, bytes = CDTUNNEL_MAGIC ++ (len ++ (body ++ following)) ∧ len.length = 2 ∧
    body.length = beValue len ∧ parse body = .ok response ∧
    readResponse CdTunnel.responseTexts response = .ok info

/-- A record that begins like a response and declares more than it holds. -/
def Overdeclares (data : List UInt8) : Prop :=
  10 ≤ data.length ∧ data.take 8 = CDTUNNEL_MAGIC ∧
    data.length < 10 + beValue ((data.drop 8).take 2)

/-- The texts of the errors make no difference to what is accepted. -/
theorem readResponse_cases (texts texts' : ResponseTexts) (response : Value) :
    (∃ info, readResponse texts response = .ok info ∧ readResponse texts' response = .ok info) ∨
      (∃ error, readResponse texts response = .err error) ∧
        ∃ error, readResponse texts' response = .err error := by
  unfold readResponse
  cases response.get "clientParameters" with
  | none => exact Or.inr ⟨⟨_, rfl⟩, ⟨_, rfl⟩⟩
  | some clientParams =>
    dsimp only
    cases (clientParams.get "address").bind Value.asStr with
    | none => exact Or.inr ⟨⟨_, rfl⟩, ⟨_, rfl⟩⟩
    | some clientAddress =>
      dsimp only
      cases (response.get "serverAddress").bind Value.asStr with
      | none => exact Or.inr ⟨⟨_, rfl⟩, ⟨_, rfl⟩⟩
      | some serverAddress => exact Or.inl ⟨_, rfl, rfl⟩

theorem readResponse_texts {texts : ResponseTexts} (texts' : ResponseTexts) {response : Value}
    (h : readResponse texts response = .ok info) : readResponse texts' response = .ok info := by
  rcases readResponse_cases texts texts' response with ⟨info', hinfo, hinfo'⟩ | ⟨⟨error, herror⟩, -⟩
  · rw [hinfo] at h
    cases h
    exact hinfo'
  · rw [herror] at h
    cases h

theorem handshake_eq_ok_iff :
    CdTunnel.handshake parse true bytes = .ok (info, following) ↔
      Response parse bytes info following := by
  unfold CdTunnel.handshake
  rw [if_pos rfl]
  constructor
  · intro h
    obtain ⟨⟨magic, rest⟩, hmagic, hnext⟩ := Eval.bind_eq_ok.mp h
    dsimp only at hnext
    by_cases heq : magic ≠ CDTUNNEL_MAGIC
    · rw [if_pos heq] at hnext
      cases hnext
    · rw [if_neg heq] at hnext
      obtain ⟨⟨len, rest'⟩, hlen, hnext⟩ := Eval.bind_eq_ok.mp hnext
      obtain ⟨⟨body, rest''⟩, hbody, hnext⟩ := Eval.bind_eq_ok.mp hnext
      obtain ⟨response, hparse, hnext⟩ := Eval.bind_eq_ok.mp hnext
      obtain ⟨info', hinfo, hnext⟩ := Eval.bind_eq_ok.mp hnext
      cases hnext
      obtain ⟨rfl, -⟩ := AsyncReadExt.readExact_eq_ok_iff.mp hmagic
      obtain ⟨rfl, hlength⟩ := AsyncReadExt.readExact_eq_ok_iff.mp hlen
      obtain ⟨rfl, hlength'⟩ := AsyncReadExt.readExact_eq_ok_iff.mp hbody
      rw [not_not.mp heq]
      exact ⟨len, body, response, rfl, hlength, hlength', fromSlice_eq_ok_iff.mp hparse, hinfo⟩
  · intro hgiven
    obtain ⟨len, body, response, rfl, hlen, hbody, hparse, hinfo⟩ := hgiven
    rw [AsyncReadExt.readExact_eq_ok_iff.mpr ⟨rfl, rfl⟩, Eval.ok_bind]
    dsimp only
    rw [if_neg (not_not.mpr rfl), AsyncReadExt.readExact_eq_ok_iff.mpr ⟨rfl, hlen⟩, Eval.ok_bind]
    dsimp only
    rw [AsyncReadExt.readExact_eq_ok_iff.mpr ⟨rfl, hbody⟩, Eval.ok_bind]
    dsimp only
    rw [fromSlice_eq_ok_iff.mpr hparse, Eval.ok_bind, hinfo, Eval.ok_bind, Eval.pure_eq]

theorem readResponse_returns (texts : ResponseTexts) (response : Value) :
    (readResponse texts response).Returns fun _ => True := by
  rcases readResponse_cases texts texts response with ⟨info, hinfo, -⟩ | ⟨⟨error, herror⟩, -⟩
  · rw [hinfo]
    trivial
  · rw [herror]
    trivial

/-- Reading off a stream nothing is sliced. -/
theorem handshake_ne_panic (parse : Parse) (requestSent : Bool) (bytes : List UInt8) :
    CdTunnel.handshake parse requestSent bytes ≠ .panic := by
  suffices hreturns : (CdTunnel.handshake parse requestSent bytes).Returns fun _ => True from
    hreturns.ne_panic
  unfold CdTunnel.handshake
  refine Eval.Returns.ite ?_ trivial
  refine Eval.Returns.bind (AsyncReadExt.readExact_returns _ _) fun magic _ => ?_
  refine Eval.Returns.ite trivial ?_
  refine Eval.Returns.bind (AsyncReadExt.readExact_returns _ _) fun len _ => ?_
  refine Eval.Returns.bind (AsyncReadExt.readExact_returns _ _) fun body _ => ?_
  refine Eval.Returns.bind (fromSlice_returns _ _ _) fun response _ => ?_
  exact Eval.Returns.bind (readResponse_returns _ _) fun info _ => trivial

theorem Response.unique {info' : TunnelInfo} {following' : List UInt8}
    (h : Response parse bytes info following) (h' : Response parse bytes info' following') :
    info = info' ∧ following = following' := by
  have heq := (handshake_eq_ok_iff.mpr h).symm.trans (handshake_eq_ok_iff.mpr h')
  exact Prod.mk.inj (Eval.ok.inj heq)

theorem Response.append (h : Response parse data info leftover) (tail : List UInt8) :
    Response parse (data ++ tail) info (leftover ++ tail) := by
  obtain ⟨len, body, response, rfl, hlen, hbody, hparse, hinfo⟩ := h
  refine ⟨len, body, response, ?_, hlen, hbody, hparse, hinfo⟩
  simp only [List.append_assoc]

/-- The front of a record that begins like a response. -/
theorem front_of_magic {len : List UInt8} (hlen : len.length = 2) (rest : List UInt8) :
    (CDTUNNEL_MAGIC ++ (len ++ rest)).take 8 = CDTUNNEL_MAGIC ∧
      ((CDTUNNEL_MAGIC ++ (len ++ rest)).drop 8).take 2 = len ∧
      (CDTUNNEL_MAGIC ++ (len ++ rest)).drop 10 = rest ∧
      (CDTUNNEL_MAGIC ++ (len ++ rest)).length = 10 + rest.length := by
  have hmagic : CDTUNNEL_MAGIC.length = 8 := rfl
  refine ⟨List.take_left' hmagic, ?_, ?_, ?_⟩
  · rw [List.drop_left' hmagic, List.take_left' hlen]
  · have hsplit : (10 : ℕ) = 8 + 2 := rfl
    rw [hsplit, ← List.drop_drop, List.drop_left' hmagic, List.drop_left' hlen]
  · rw [List.length_append, List.length_append, hmagic, hlen]
    omega

/-- A record with a whole header in it, cut behind the header. -/
theorem eq_of_magic (hlength : 10 ≤ data.length) (hmagic : data.take 8 = CDTUNNEL_MAGIC) :
    data = CDTUNNEL_MAGIC ++ ((data.drop 8).take 2 ++ data.drop 10) ∧
      ((data.drop 8).take 2).length = 2 := by
  constructor
  · have hlast : data.drop 10 = (data.drop 8).drop 2 := by rw [List.drop_drop]
    rw [hlast, List.take_append_drop, ← hmagic, List.take_append_drop]
  · rw [List.length_take, List.length_drop]
    omega

theorem nativeResponse_of_header (hlength : 10 ≤ data.length)
    (hmagic : data.take 8 = CDTUNNEL_MAGIC) :
    nativeResponse parse data =
      if data.length < 10 + beValue ((data.drop 8).take 2) then .panic
      else fromSlice parse ReadError.internalError
        ((data.drop 10).take (beValue ((data.drop 8).take 2))) >>= readResponse nativeTexts := by
  unfold nativeResponse
  have hnot : ¬ data.length < CDTUNNEL_MAGIC.length + 2 := Nat.not_lt.mpr hlength
  have hsame : ¬ data.take CDTUNNEL_MAGIC.length ≠ CDTUNNEL_MAGIC := not_not.mpr hmagic
  rw [if_neg hnot, if_neg hsame]
  rfl

/-- A record without a whole header, or with another magic in it, is an error. -/
theorem nativeResponse_of_no_header (parse : Parse)
    (h : ¬ (10 ≤ data.length ∧ data.take 8 = CDTUNNEL_MAGIC)) :
    ∃ error, nativeResponse parse data = .err error := by
  unfold nativeResponse
  by_cases hlength : data.length < CDTUNNEL_MAGIC.length + 2
  · exact ⟨_, if_pos hlength⟩
  · have hmagic : data.take CDTUNNEL_MAGIC.length ≠ CDTUNNEL_MAGIC := fun hmagic =>
      h ⟨Nat.not_lt.mp hlength, hmagic⟩
    rw [if_neg hlength]
    exact ⟨_, if_pos hmagic⟩

theorem nativeResponse_eq_panic_iff : nativeResponse parse data = .panic ↔ Overdeclares data := by
  constructor
  · intro h
    by_cases hheader : 10 ≤ data.length ∧ data.take 8 = CDTUNNEL_MAGIC
    · rw [nativeResponse_of_header hheader.1 hheader.2] at h
      split at h
      · rename_i hlong
        exact ⟨hheader.1, hheader.2, hlong⟩
      · have hreturns := Eval.Returns.bind (fromSlice_returns parse ReadError.internalError
          ((data.drop 10).take (beValue ((data.drop 8).take 2)))) fun response _ =>
            readResponse_returns nativeTexts response
        exact absurd h hreturns.ne_panic
    · obtain ⟨error, herror⟩ := nativeResponse_of_no_header parse hheader
      rw [herror] at h
      cases h
  · intro hgiven
    obtain ⟨hlength, hmagic, hlong⟩ := hgiven
    rw [nativeResponse_of_header hlength hmagic, if_pos hlong]

theorem nativeResponse_eq_ok_iff :
    nativeResponse parse data = .ok info ↔ ∃ leftover, Response parse data info leftover := by
  constructor
  · intro h
    by_cases hheader : 10 ≤ data.length ∧ data.take 8 = CDTUNNEL_MAGIC
    · obtain ⟨heq, hlen⟩ := eq_of_magic hheader.1 hheader.2
      rw [nativeResponse_of_header hheader.1 hheader.2] at h
      split at h
      · cases h
      · rename_i hfits
        obtain ⟨response, hparse, hinfo⟩ := Eval.bind_eq_ok.mp h
        refine ⟨(data.drop 10).drop (beValue ((data.drop 8).take 2)), (data.drop 8).take 2,
          (data.drop 10).take (beValue ((data.drop 8).take 2)), response, ?_, hlen, ?_,
          fromSlice_eq_ok_iff.mp hparse, readResponse_texts _ hinfo⟩
        · rw [List.take_append_drop]
          exact heq
        · rw [List.length_take, List.length_drop]
          omega
    · obtain ⟨error, herror⟩ := nativeResponse_of_no_header parse hheader
      rw [herror] at h
      cases h
  · intro hgiven
    obtain ⟨leftover, len, body, response, rfl, hlen, hbody, hparse, hinfo⟩ := hgiven
    obtain ⟨hmagic, hdeclared, hdrop, hlength⟩ :=
      front_of_magic hlen (body ++ leftover)
    rw [nativeResponse_of_header (by omega) hmagic, hdeclared, hdrop, hlength, List.length_append,
      if_neg (by omega), List.take_left' hbody, fromSlice_eq_ok_iff.mpr hparse, Eval.ok_bind]
    exact readResponse_texts _ hinfo

end Response

section Agreement

variable {P : Primitives} {parse : Parse}

/-- Both return the same information, and the bytes behind the response are the first that the
tunnels read; or both return an error. Nothing panics. -/
def TunnelsAgree (P : Primitives) (native : Eval ReadError (TunnelInfo × TlsPskStream × List UInt8))
    (generic : Eval ReadError (TunnelInfo × List UInt8)) : Prop :=
  match native, generic with
  | .ok (info, s, unread), .ok (info', following) =>
    info = info' ∧ Gives P ⟨s, unread, []⟩ following
  | .err _, .err _ => True
  | _, _ => False

/-- `recv_packet` takes a packet off the front. -/
theorem recvPacket_append {header payload : List UInt8} (hheader : header.length = 40)
    (hpayload : payload.length = beValue ((header.drop 4).take 2)) (rest : List UInt8) :
    CdTunnel.recvPacket (header ++ (payload ++ rest)) = .ok (header ++ payload, rest) := by
  unfold CdTunnel.recvPacket
  rw [AsyncReadExt.readExact_eq_ok_iff.mpr ⟨rfl, hheader⟩, Eval.ok_bind]
  dsimp only
  rw [AsyncReadExt.readExact_eq_ok_iff.mpr ⟨rfl, hpayload⟩, Eval.ok_bind, Eval.pure_eq]

/-- A packet that is read off a stream by itself is the one `recv_packet` takes off the bytes
that the stream gives. -/
theorem recvPacket_of_gives {r : Reader} {following header payload : List UInt8}
    {calls : List ReadCall} (hgives : Gives P r following) (hstart : r.delivered = [])
    (hfed : Fed P r calls) (hdelivered : (r.run P calls).delivered = header ++ payload)
    (hheader : header.length = 40)
    (hpayload : payload.length = beValue ((header.drop 4).take 2)) :
    ∃ rest, CdTunnel.recvPacket following = .ok (header ++ payload, rest) := by
  obtain ⟨rest, hrest⟩ := (hgives calls hfed).1
  rw [hdelivered, hstart, List.nil_append, List.append_assoc] at hrest
  refine ⟨rest, ?_⟩
  rw [← hrest]
  exact recvPacket_append hheader hpayload rest

theorem upToEmpty_length_le (records : List ServerRecord) :
    (upToEmpty records).length ≤ (plaintexts records).length :=
  ((List.takeWhile_sublist _).flatMap ServerRecord.plaintext).length_le

/-- What the native handshake comes to over records of application data. -/
theorem connect_eq (parse : Parse) {keys : KeyBlock} {first : UInt64} {record : ServerRecord}
    {rest : List ServerRecord} (hcbc : P.InvertsCbc)
    (hnumbered : Numbered P keys first (record :: rest))
    (hdata : record.ct = ctApplicationData) :
    ∃ s, Reads P (first + 1) [] rest ⟨s, wires rest, []⟩ ∧ s.readBuf = [] ∧
      connectTlsPskTunnelNative P parse true (Reader.start keys first []).stream
        (wires (record :: rest)) =
          match nativeResponse parse record.plaintext with
          | .ok info => .ok (info, s, wires rest)
          | .err error => .err error
          | .panic => .panic := by
  obtain ⟨⟨hprotects, hshort⟩, hrest⟩ := hnumbered
  refine ⟨{ (Reader.start keys first []).stream with readSeq := first + 1 }, ?_, rfl, ?_⟩
  · exact ⟨hrest, (UInt64.add_zero _).symm, rfl, ⟨rfl, Or.inl rfl⟩⟩
  · have hread := readAppData_data (s := (Reader.start keys first []).stream) hcbc hprotects hshort
      hdata (wires rest)
    unfold connectTlsPskTunnelNative
    rw [if_pos rfl, wires_cons, hread]
    rfl

/-- The two handshakes agree on a stream that is cut into records exactly if its response, if
both accept one, is the first record and no record without data stands in front of data; and if
they accept none, the first record does not declare more than it holds. -/
theorem tunnel_handshakes_agree_iff (P : Primitives) (parse : Parse) (keys : KeyBlock)
    (first : UInt64) (records : List ServerRecord) (requestSent : Bool) (hcbc : P.InvertsCbc)
    (hnumbered : Numbered P keys first records)
    (hdata : ∀ record ∈ records, record.ct = ctApplicationData) :
    TunnelsAgree P
        (connectTlsPskTunnelNative P parse requestSent (Reader.start keys first []).stream
          (wires records))
        (CdTunnel.handshake parse requestSent (plaintexts records)) ↔
      (requestSent →
        (∀ info following, Response parse (plaintexts records) info following →
          ∃ record rest, records = record :: rest ∧ Response parse record.plaintext info [] ∧
            upToEmpty rest = plaintexts rest) ∧
        ((¬ ∃ info following, Response parse (plaintexts records) info following) →
          ∀ record rest, records = record :: rest → ¬ Overdeclares record.plaintext)) := by
  cases requestSent with
  | false => exact iff_of_true trivial nofun
  | true =>
    rw [forall_prop_of_true rfl]
    cases records with
    | nil =>
      refine iff_of_true trivial ⟨?_, fun _ _ _ heq => nomatch heq⟩
      intro info following h
      obtain ⟨len, body, response, heq, -⟩ := h
      cases heq
    | cons record rest =>
      obtain ⟨s, hreads, hempty, hnative⟩ := connect_eq parse hcbc hnumbered
        (hdata record List.mem_cons_self)
      rw [hnative, plaintexts_cons]
      cases hresponse : nativeResponse parse record.plaintext with
      | ok info =>
        obtain ⟨leftover, hrecord⟩ := nativeResponse_eq_ok_iff.mp hresponse
        have hwhole := hrecord.append (plaintexts rest)
        rw [handshake_eq_ok_iff.mpr hwhole]
        have hlength := upToEmpty_length_le rest
        constructor
        · intro h
          obtain ⟨-, hgives⟩ := h
          have hrest := (hreads.gives_iff hcbc hempty).mp hgives
          have hlengths := congrArg List.length hrest
          rw [List.length_append] at hlengths
          have hnil : leftover = [] := List.length_eq_zero_iff.mp (by omega)
          subst hnil
          rw [List.nil_append] at hrest hwhole
          refine ⟨?_, fun hnone => absurd ⟨_, _, hwhole⟩ hnone⟩
          intro info' following' hresponse'
          obtain ⟨rfl, -⟩ := hwhole.unique hresponse'
          exact ⟨record, rest, rfl, hrecord, hrest.symm⟩
        · intro h
          obtain ⟨hexact, -⟩ := h
          obtain ⟨_, _, heq, hexact, hrest⟩ := hexact _ _ hwhole
          cases heq
          obtain ⟨-, rfl⟩ := hrecord.unique hexact
          refine ⟨rfl, (hreads.gives_iff hcbc hempty).mpr ?_⟩
          rw [List.nil_append, hrest]
      | err error =>
        have hnot : ∀ info leftover, ¬ Response parse record.plaintext info leftover := by
          intro info leftover hrecord
          have hok := nativeResponse_eq_ok_iff.mpr ⟨leftover, hrecord⟩
          rw [hresponse] at hok
          cases hok
        cases hgeneric : CdTunnel.handshake parse true (record.plaintext ++ plaintexts rest) with
        | ok result =>
          obtain ⟨info, following⟩ := result
          refine iff_of_false id ?_
          intro h
          obtain ⟨hexact, -⟩ := h
          obtain ⟨_, _, heq, hexact, -⟩ := hexact _ _ (handshake_eq_ok_iff.mp hgeneric)
          cases heq
          exact hnot _ _ hexact
        | err error' =>
          refine iff_of_true trivial ⟨?_, ?_⟩
          · intro info following hresponse'
            rw [handshake_eq_ok_iff.mpr hresponse'] at hgeneric
            cases hgeneric
          · intro _ record' rest' heq hover
            cases heq
            rw [nativeResponse_eq_panic_iff.mpr hover] at hresponse
            cases hresponse
        | panic => exact absurd hgeneric (handshake_ne_panic parse true _)
      | panic =>
        have hover := nativeResponse_eq_panic_iff.mp hresponse
        refine iff_of_false id ?_
        intro h
        obtain ⟨hexact, hnone⟩ := h
        refine hnone ?_ record rest rfl hover
        intro h
        obtain ⟨info, following, hresponse'⟩ := h
        obtain ⟨_, _, heq, hexact, -⟩ := hexact info following hresponse'
        cases heq
        rw [nativeResponse_eq_ok_iff.mpr ⟨[], hexact⟩] at hresponse
        cases hresponse

/-- A response with two empty addresses, and a parser that reads its body and nothing else. -/
def plainBody : List UInt8 :=
  label "\x7b\"clientParameters\":\x7b\"address\":\"\"\x7d,\"serverAddress\":\"\"\x7d"

def plainParse : Parse := fun bytes =>
  if bytes = plainBody then
    .ok (.object [("clientParameters", .object [("address", .string "")]),
      ("serverAddress", .string "")])
  else .error "expected value"

/-- The record of a server whose encryption is the identity. -/
def plainRecord (plaintext : List UInt8) (pad : UInt8) : ServerRecord where
  ct := ctApplicationData
  plaintext := plaintext
  body := List.replicate 16 0 ++
    (plaintext ++ List.replicate 20 0 ++ List.replicate (pad.toNat + 1) pad)

theorem tunnel_handshakes_agree_iff_whole :
    TunnelsAgree plainPrimitives
        (connectTlsPskTunnelNative plainPrimitives plainParse true
          (Reader.start plainKeys 1 []).stream
          (wires [plainRecord (CDTUNNEL_MAGIC ++ [0, 54] ++ plainBody) 11]))
        (CdTunnel.handshake plainParse true
          (plaintexts [plainRecord (CDTUNNEL_MAGIC ++ [0, 54] ++ plainBody) 11])) ↔
      (true →
        (∀ info following, Response plainParse
            (plaintexts [plainRecord (CDTUNNEL_MAGIC ++ [0, 54] ++ plainBody) 11]) info following →
          ∃ record rest, [plainRecord (CDTUNNEL_MAGIC ++ [0, 54] ++ plainBody) 11] = record :: rest ∧
            Response plainParse record.plaintext info [] ∧ upToEmpty rest = plaintexts rest) ∧
        ((¬ ∃ info following, Response plainParse
            (plaintexts [plainRecord (CDTUNNEL_MAGIC ++ [0, 54] ++ plainBody) 11]) info following) →
          ∀ record rest, [plainRecord (CDTUNNEL_MAGIC ++ [0, 54] ++ plainBody) 11] = record :: rest →
            ¬ Overdeclares record.plaintext)) :=
  tunnel_handshakes_agree_iff plainPrimitives plainParse plainKeys 1 _ true (fun _ _ _ _ _ => rfl)
    ⟨⟨⟨List.replicate 16 0, 11, rfl, by decide, rfl⟩, by decide⟩, trivial⟩ (by decide)

/-- The response in two records: its header, and its body. -/
def splitResponse : List ServerRecord :=
  [plainRecord (CDTUNNEL_MAGIC ++ [0, 54]) 1, plainRecord plainBody 5]

/-- The stream has a response, and the slice of its first record panics. -/
theorem splitResponse_disagrees :
    Numbered plainPrimitives plainKeys 1 splitResponse ∧
      ¬ TunnelsAgree plainPrimitives
        (connectTlsPskTunnelNative plainPrimitives plainParse true
          (Reader.start plainKeys 1 []).stream (wires splitResponse))
        (CdTunnel.handshake plainParse true (plaintexts splitResponse)) := by
  have hnumbered : Numbered plainPrimitives plainKeys 1 splitResponse :=
    ⟨⟨⟨List.replicate 16 0, 1, rfl, by decide, rfl⟩, by decide⟩,
      ⟨⟨List.replicate 16 0, 5, rfl, by decide, rfl⟩, by decide⟩, trivial⟩
  refine ⟨hnumbered, ?_⟩
  obtain ⟨s, -, -, hnative⟩ :=
    connect_eq plainParse (P := plainPrimitives) (fun _ _ _ _ _ => rfl) hnumbered rfl
  have hpanic : nativeResponse plainParse (CDTUNNEL_MAGIC ++ [0, 54]) = .panic :=
    nativeResponse_eq_panic_iff.mpr ⟨by decide, by decide, by decide⟩
  change connectTlsPskTunnelNative plainPrimitives plainParse true
    (Reader.start plainKeys 1 []).stream (wires splitResponse) =
      match nativeResponse plainParse (CDTUNNEL_MAGIC ++ [0, 54]) with
      | .ok info => .ok (info, s, wires [plainRecord plainBody 5])
      | .err error => .err error
      | .panic => .panic at hnative
  rw [hpanic] at hnative
  rw [hnative]
  exact id

end Agreement

end XitForge.RemotePairing
