import XitForge.Xpc.Channel
import XitForge.Xpc.RoundTrip

/-!
What a channel delivers. The bytes that are there, with those still to come, are
the encodings of the messages not yet taken; a whole message is taken off the
front, and every strict prefix of one is told apart by its length alone.
-/
namespace XitForge.Xpc

open RustEval

/-- A message and the id it is sent with. -/
abbrev Sent := XPCMessage × UInt64

/-- The bytes of a message that can be read back. A `Vec` is shorter than `2 ^ 63`. -/
structure Wire (checks : Bool) (sent : Sent) (bytes : List UInt8) : Prop where
  encoded : sent.1.encode checks sent.2 = .ok bytes
  representable : ∀ object, sent.1.message = some object → Representable object
  bounded : bytes.length < 2 ^ 63

/-- What a message delivers: keep-alives and messages without a body nothing. -/
def delivered (sent : Sent) : Option PlistValue :=
  sent.1.message.bind fun object =>
    if object.isEmptyDictionary then none else some object.toPlist

section Messages

variable {checks : Bool} {sent : Sent} {bytes : List UInt8}

/-- The header of a message, field by field. -/
def header (word flags bodyLen id : ℕ) : List UInt8 :=
  toLEBytes 4 word ++ (toLEBytes 4 flags ++ (toLEBytes 8 bodyLen ++ toLEBytes 8 id))

theorem header_length (word flags bodyLen id : ℕ) : (header word flags bodyLen id).length = 24 := by
  simp [header]

theorem header_fields (word flags bodyLen id : ℕ) (rest : List UInt8) (hword : word < 256 ^ 4)
    (hflags : flags < 256 ^ 4) (hbody : bodyLen < 256 ^ 8) (hid : id < 256 ^ 8) :
    leAt (header word flags bodyLen id ++ rest) 0 4 = word ∧
      leAt (header word flags bodyLen id ++ rest) 4 4 = flags ∧
      leAt (header word flags bodyLen id ++ rest) 8 8 = bodyLen ∧
      leAt (header word flags bodyLen id ++ rest) 16 8 = id := by
  have hwordAt := leAt_behind [] (toLEBytes 4 flags ++
    (toLEBytes 8 bodyLen ++ (toLEBytes 8 id ++ rest))) 4 word 0 rfl hword
  have hflagsAt := leAt_behind (toLEBytes 4 word)
    (toLEBytes 8 bodyLen ++ (toLEBytes 8 id ++ rest)) 4 flags 4 (by simp) hflags
  have hbodyAt := leAt_behind (toLEBytes 4 word ++ toLEBytes 4 flags)
    (toLEBytes 8 id ++ rest) 8 bodyLen 8 (by simp) hbody
  have hidAt := leAt_behind (toLEBytes 4 word ++ toLEBytes 4 flags ++ toLEBytes 8 bodyLen)
    rest 8 id 16 (by simp) hid
  simp only [header, List.append_assoc, List.nil_append] at hwordAt hflagsAt hbodyAt hidAt ⊢
  exact ⟨hwordAt, hflagsAt, hbodyAt, hidAt⟩

theorem magic_lt : XPCMessage.magic < 256 ^ 4 := by decide

/-- The header of a message whose body has a length. -/
def Sent.header (sent : Sent) (bodyLen : ℕ) : List UInt8 :=
  Xpc.header XPCMessage.magic sent.1.flags.toNat bodyLen sent.2.toNat

theorem Sent.header_length (sent : Sent) (bodyLen : ℕ) : (sent.header bodyLen).length = 24 :=
  Xpc.header_length _ _ _ _

theorem Sent.header_fields (sent : Sent) (bodyLen : ℕ) (rest : List UInt8) (h : bodyLen < 2 ^ 64) :
    leAt (sent.header bodyLen ++ rest) 0 4 = XPCMessage.magic ∧
      leAt (sent.header bodyLen ++ rest) 4 4 = sent.1.flags.toNat ∧
      leAt (sent.header bodyLen ++ rest) 8 8 = bodyLen ∧
      leAt (sent.header bodyLen ++ rest) 16 8 = sent.2.toNat :=
  Xpc.header_fields _ _ _ _ rest magic_lt sent.1.flags.toNat_lt h sent.2.toNat_lt

theorem encode_some {message : XPCMessage} {object : XPCObject} {body : List UInt8} (id : UInt64)
    (hobject : message.message = some object) (hbody : object.encode checks = .ok body) :
    message.encode checks id = .ok (Sent.header (message, id) body.length ++ body) := by
  unfold XPCMessage.encode
  rw [hobject]
  simp only [hbody, Eval.ok_bind, Eval.pure_eq, Sent.header, header, List.append_assoc]

theorem encode_none {message : XPCMessage} (id : UInt64) (hnone : message.message = none) :
    message.encode checks id = .ok (Sent.header (message, id) 0) := by
  unfold XPCMessage.encode
  rw [hnone]
  simp only [Eval.pure_eq, Sent.header, header, List.append_assoc]

/-- A message is its header and the body that the header counts. -/
theorem Wire.split (h : Wire checks sent bytes) :
    ∃ body, bytes = sent.header body.length ++ body ∧
      ((sent.1.message = none ∧ body = []) ∨
        ∃ object, sent.1.message = some object ∧ 0 < body.length ∧
          XPCObject.decode checks body = .ok object) := by
  have hencoded := h.encoded
  cases hmessage : sent.1.message with
  | none =>
    rw [encode_none sent.2 hmessage, Eval.ok.injEq] at hencoded
    exact ⟨[], by rw [← hencoded, List.append_nil]; rfl, Or.inl ⟨rfl, rfl⟩⟩
  | some object =>
    obtain ⟨inner, hinner⟩ := (h.representable object hmessage).roundTrips checks
    obtain ⟨hencode, hdecode⟩ := decode_of_roundTrips hinner
    rw [encode_some sent.2 hmessage hencode, Eval.ok.injEq] at hencoded
    refine ⟨_, hencoded.symm, Or.inr ⟨object, rfl, ?_, hdecode⟩⟩
    simp only [List.length_append, toLEBytes_length]
    omega

/-- A header with a whole body behind it. -/
theorem decode_whole {body : List UInt8} (rest : List UInt8) (hlength : body.length + 24 < 2 ^ 63)
    (hbody : (sent.1.message = none ∧ body = []) ∨ ∃ object, sent.1.message = some object ∧
      0 < body.length ∧ XPCObject.decode checks body = .ok object) :
    XPCMessage.decode checks (sent.header body.length ++ (body ++ rest)) =
      .ok ⟨sent.1.flags, sent.1.message, some sent.2⟩ := by
  have hheader := sent.header_length body.length
  obtain ⟨hmagic, hflags, hlen, hid⟩ := sent.header_fields body.length (body ++ rest) (by omega)
  have hneeded : (add64 checks body.length 24 : Eval IdeviceError ℕ) = .ok (body.length + 24) :=
    add64_of_lt (by omega)
  have hstop : (add64 checks 24 body.length : Eval IdeviceError ℕ) = .ok (24 + body.length) :=
    add64_of_lt (by omega)
  have hslice : (slice (sent.header body.length ++ (body ++ rest)) 24 (24 + body.length) :
      Eval IdeviceError (List UInt8)) = .ok body := by
    unfold slice
    rw [if_pos (by simp only [List.length_append, hheader]; omega), ← List.append_assoc,
      List.take_left' (by rw [List.length_append, hheader]), List.drop_left' hheader]
  unfold XPCMessage.decode
  rw [if_neg (by simp only [List.length_append, hheader]; omega), if_neg (not_not.mpr hmagic), hlen]
  simp only [hneeded, Eval.ok_bind]
  rw [if_neg (by simp only [List.length_append, hheader]; omega), hflags, hid, UInt32.ofNat_toNat,
    UInt64.ofNat_toNat]
  rcases hbody with ⟨hnone, rfl⟩ | ⟨object, hobject, hpos, hobjectBytes⟩
  · rw [hnone]
    rfl
  · rw [if_pos hpos]
    simp only [hstop, hslice, hobjectBytes, Eval.ok_bind, Eval.pure_eq]
    rw [hobject]

/-- A whole message is taken off the front and nothing behind it is touched. -/
theorem takeBuffered_whole (h : Wire checks sent bytes) (rest : List UInt8) :
    takeBuffered checks (bytes ++ rest) =
      .ok (some ⟨sent.1.flags, sent.1.message, some sent.2⟩, rest) := by
  obtain ⟨body, hbytes, hbody⟩ := h.split
  have hheader := sent.header_length body.length
  have hlength := h.bounded
  rw [hbytes, List.length_append, hheader] at hlength
  obtain ⟨-, -, hlen, -⟩ := sent.header_fields body.length (body ++ rest) (by omega)
  have hstop : (add64 checks 24 body.length : Eval IdeviceError ℕ) = .ok (24 + body.length) :=
    add64_of_lt (by omega)
  rw [hbytes, List.append_assoc]
  unfold takeBuffered xpcBodyLen
  rw [decode_whole rest (by omega) hbody, hlen]
  simp only [hstop, Eval.ok_bind]
  rw [Nat.min_eq_left (by simp only [List.length_append, hheader]; omega), ← List.append_assoc,
    List.drop_left' (by rw [List.length_append, hheader])]
  rfl

/-- A strict prefix of a message is told apart by its length. -/
theorem takeBuffered_part {rest part : List UInt8} (h : Wire checks sent bytes)
    (hpart : part <+: bytes ++ rest) (hlength : part.length < bytes.length) :
    takeBuffered checks part = .ok (none, part) := by
  obtain ⟨body, hbytes, -⟩ := h.split
  have hheader := sent.header_length body.length
  have hbounded := h.bounded
  rw [hbytes, List.length_append, hheader] at hbounded hlength
  unfold takeBuffered
  by_cases hshort : part.length < 24
  · unfold XPCMessage.decode
    rw [if_pos hshort]
  · rw [hbytes, List.append_assoc] at hpart
    obtain ⟨more, rfl⟩ : sent.header body.length <+: part :=
      List.prefix_of_prefix_length_le (List.prefix_append _ _) hpart (by omega)
    obtain ⟨hmagic, -, hlen, -⟩ := sent.header_fields body.length more (by omega)
    have hneeded : (add64 checks body.length 24 : Eval IdeviceError ℕ) = .ok (body.length + 24) :=
      add64_of_lt (by omega)
    unfold XPCMessage.decode
    rw [if_neg hshort, if_neg (not_not.mpr hmagic), hlen]
    simp only [hneeded, Eval.ok_bind]
    rw [if_pos (by omega)]

end Messages

section Streams

variable {checks : Bool}

/-- The bytes of the messages, one after the other. -/
inductive Stream (checks : Bool) : List Sent → List UInt8 → Prop where
  | nil : Stream checks [] []
  | cons {sent : Sent} {sents : List Sent} {bytes rest : List UInt8} (hwire : Wire checks sent bytes)
      (hrest : Stream checks sents rest) : Stream checks (sent :: sents) (bytes ++ rest)

/-- A message behind the others. -/
theorem Stream.push {sents : List Sent} {sent : Sent} {bytes more : List UInt8}
    (h : Stream checks sents bytes) (hwire : Wire checks sent more) :
    Stream checks (sents ++ [sent]) (bytes ++ more) := by
  induction h with
  | nil =>
    have hlast := Stream.cons hwire Stream.nil
    rwa [List.append_nil] at hlast
  | cons hfirst _ ih =>
    rw [List.append_assoc]
    exact .cons hfirst ih

/-- Fewer bytes than the first message has. -/
def Incomplete (checks : Bool) (sents : List Sent) (buffered : List UInt8) : Prop :=
  ∀ sent rest bytes, sents = sent :: rest → Wire checks sent bytes →
    buffered.length < bytes.length

theorem Wire.unique {sent : Sent} {bytes bytes' : List UInt8} (h : Wire checks sent bytes)
    (h' : Wire checks sent bytes') : bytes = bytes' := by
  have heq := h.encoded.symm.trans h'.encoded
  cases heq
  rfl

theorem Wire.length_pos {sent : Sent} {bytes : List UInt8} (h : Wire checks sent bytes) :
    0 < bytes.length := by
  obtain ⟨body, hbytes, -⟩ := h.split
  rw [hbytes, List.length_append, sent.header_length]
  omega

/-- Either a whole message stands in front, or the front is an incomplete one. -/
theorem takeBuffered_stream {sents : List Sent} {buffered tail : List UInt8}
    (h : Stream checks sents (buffered ++ tail)) :
    (∃ sent rest bytes after, sents = sent :: rest ∧ buffered = bytes ++ after ∧ 0 < bytes.length ∧
        takeBuffered checks buffered =
          .ok (some ⟨sent.1.flags, sent.1.message, some sent.2⟩, after) ∧
        Stream checks rest (after ++ tail)) ∨
      (Incomplete checks sents buffered ∧ takeBuffered checks buffered = .ok (none, buffered)) := by
  generalize hall : buffered ++ tail = all at h
  cases h with
  | nil =>
    obtain ⟨rfl, rfl⟩ := List.append_eq_nil_iff.mp hall
    refine Or.inr ⟨fun _ _ _ hnil => (nomatch hnil), ?_⟩
    unfold takeBuffered XPCMessage.decode
    rw [if_pos (by simp)]
  | cons hwire hrest =>
    rename_i sent sents bytes rest
    by_cases hlength : buffered.length < bytes.length
    · refine Or.inr ⟨?_, takeBuffered_part hwire ⟨tail, hall⟩ hlength⟩
      intro sent' rest' bytes' hsents hwire'
      cases hsents
      rw [hwire'.unique hwire]
      exact hlength
    · obtain ⟨after, rfl⟩ : bytes <+: buffered :=
        List.prefix_of_prefix_length_le ⟨rest, rfl⟩ ⟨tail, hall⟩ (by omega)
      rw [List.append_assoc, List.append_cancel_left_eq] at hall
      refine Or.inl ⟨sent, sents, bytes, after, rfl, rfl, hwire.length_pos,
        takeBuffered_whole hwire after, ?_⟩
      rw [hall]
      exact hrest

/-- Every read takes a cached payload or a frame, and loses none of the bytes. -/
def ReadEnd.Follows (cache : List (List UInt8)) (wakes : List Wake) : ReadEnd → Prop
  | .chunk payload cache' wakes' =>
    payload ++ (cache'.flatten ++ (wakes'.map Wake.payload).flatten) =
        cache.flatten ++ (wakes.map Wake.payload).flatten ∧
      cache'.length + 2 * wakes'.length < cache.length + 2 * wakes.length
  | .dropped cache' wakes' =>
    cache'.flatten ++ (wakes'.map Wake.payload).flatten =
        cache.flatten ++ (wakes.map Wake.payload).flatten ∧
      cache'.length + 2 * wakes'.length < cache.length + 2 * wakes.length
  | .pending => cache.flatten ++ (wakes.map Wake.payload).flatten = []

theorem h2Read_follows (cache : List (List UInt8)) (wakes : List Wake) :
    (h2Read cache wakes).Follows cache wakes := by
  fun_induction h2Read cache wakes with
  | case1 wakes payload cache =>
    refine ⟨by simp, by simp⟩
  | case2 => exact rfl
  | case3 wakes => refine ⟨by simp [Wake.payload], by simp⟩
  | case4 payload wakes => refine ⟨by simp [Wake.payload], by simp; omega⟩
  | case5 payload wakes => refine ⟨by simp [Wake.payload], by simp⟩
  | case6 wakes ih =>
    revert ih
    cases h2Read [] wakes with
    | chunk payload cache wakes' =>
      intro h
      obtain ⟨hbytes, hless⟩ := h
      exact ⟨hbytes, by simp only [List.length_nil, List.length_cons] at hless ⊢; omega⟩
    | dropped cache wakes' =>
      intro h
      obtain ⟨hbytes, hless⟩ := h
      exact ⟨hbytes, by simp only [List.length_nil, List.length_cons] at hless ⊢; omega⟩
    | pending => exact id

/-- What a call leaves of the messages, and the one value it may have returned. -/
def Received.Splits (checks : Bool) (sents : List Sent) (future : List UInt8) (rounds : ℕ) :
    Received → Prop
  | .value plist channel wakes => ∃ done rest, sents = done ++ rest ∧
      done.filterMap delivered = [plist] ∧
      Stream checks rest (channel.bytes wakes ++ future) ∧ channel.rounds wakes < rounds
  | .dropped channel wakes => ∃ done rest, sents = done ++ rest ∧
      done.filterMap delivered = [] ∧
      Stream checks rest (channel.bytes wakes ++ future) ∧ channel.rounds wakes < rounds
  | .pending channel => ∃ done rest, sents = done ++ rest ∧
      done.filterMap delivered = [] ∧
      Stream checks rest (channel.buffered ++ future) ∧ Incomplete checks rest channel.buffered ∧
      channel.cache = []

/-- A message that delivers nothing may stand before those of a call. -/
theorem Received.Splits.cons {sent : Sent} {sents : List Sent} {future : List UInt8}
    {rounds rounds' : ℕ} {result : Received} (hsent : delivered sent = none)
    (hless : rounds' ≤ rounds) (h : result.Splits checks sents future rounds') :
    result.Splits checks (sent :: sents) future rounds := by
  cases result with
  | value value channel wakes =>
    obtain ⟨done, rest, rfl, hdone, hrest, hrounds⟩ := h
    exact ⟨sent :: done, rest, rfl, by rw [List.filterMap_cons_none hsent, hdone], hrest,
      by omega⟩
  | dropped channel wakes =>
    obtain ⟨done, rest, rfl, hdone, hrest, hrounds⟩ := h
    exact ⟨sent :: done, rest, rfl, by rw [List.filterMap_cons_none hsent, hdone], hrest,
      by omega⟩
  | pending channel =>
    obtain ⟨done, rest, rfl, hdone, hrest⟩ := h
    exact ⟨sent :: done, rest, rfl, by rw [List.filterMap_cons_none hsent, hdone], hrest⟩

theorem Received.Splits.mono {sents : List Sent} {future : List UInt8} {rounds rounds' : ℕ}
    {result : Received} (hless : rounds' ≤ rounds) (h : result.Splits checks sents future rounds') :
    result.Splits checks sents future rounds := by
  cases result with
  | value value channel wakes =>
    obtain ⟨done, rest, hsents, hdone, hrest, hrounds⟩ := h
    exact ⟨done, rest, hsents, hdone, hrest, by omega⟩
  | dropped channel wakes =>
    obtain ⟨done, rest, hsents, hdone, hrest, hrounds⟩ := h
    exact ⟨done, rest, hsents, hdone, hrest, by omega⟩
  | pending channel => exact h

theorem delivered_read {sent : Sent} :
    delivered sent = sent.1.message.bind fun object =>
      if object.isEmptyDictionary then none else some object.toPlist := rfl

end Streams

section Calls

variable {checks : Bool} {future : List UInt8}

/-- One call, by induction on the rounds that are left to it. -/
theorem recvLoop_splits (fuel : ℕ) (sents : List Sent) (channel : Channel) (wakes : List Wake)
    (hfuel : channel.rounds wakes ≤ fuel)
    (h : Stream checks sents (channel.bytes wakes ++ future)) :
    ∃ result, recvLoop checks fuel channel wakes = .ok result ∧
      result.Splits checks sents future (channel.rounds wakes) := by
  induction fuel generalizing sents channel wakes with
  | zero => exact absurd hfuel (by unfold Channel.rounds; omega)
  | succ fuel ih =>
    unfold recvLoop
    have hfront : Stream checks sents (channel.buffered ++
        ((channel.cache.flatten ++ (wakes.map Wake.payload).flatten) ++ future)) := by
      rw [← List.append_assoc]
      exact h
    rcases takeBuffered_stream hfront with
      ⟨sent, rest, bytes, after, rfl, hbuffered, hpos, htake, hrest⟩ | ⟨hpart, htake⟩
    · -- The message is gone from the front; the rest of the call sees the ones behind it.
      have hlength := congrArg List.length hbuffered
      rw [List.length_append] at hlength
      have hless : ({ channel with buffered := after } : Channel).rounds wakes <
          channel.rounds wakes := by
        simp only [Channel.rounds, Channel.bytes, List.length_append]
        omega
      have hafter : Stream checks rest
          (({ channel with buffered := after } : Channel).bytes wakes ++ future) := by
        rw [← List.append_assoc] at hrest
        exact hrest
      obtain ⟨result, hresult, hsplits⟩ := ih rest { channel with buffered := after } wakes
        (by omega) hafter
      rw [htake]
      simp only [Eval.ok_bind]
      cases hmessage : sent.1.message with
      | none =>
        exact ⟨result, hresult, hsplits.cons (by rw [delivered_read, hmessage]; rfl) hless.le⟩
      | some object =>
        by_cases hempty : object.isEmptyDictionary = true
        · simp only [if_pos hempty]
          refine ⟨result, hresult, hsplits.cons ?_ hless.le⟩
          rw [delivered_read, hmessage, Option.bind_some, if_pos hempty]
        · simp only [if_neg hempty]
          refine ⟨_, rfl, [sent], rest, rfl, ?_, hafter, hless⟩
          rw [List.filterMap_cons_some
            (by rw [delivered_read, hmessage, Option.bind_some, if_neg hempty])]
          rfl
    · rw [htake]
      simp only [Eval.ok_bind]
      have hread := h2Read_follows channel.cache wakes
      cases hend : h2Read channel.cache wakes with
      | chunk payload cache wakes' =>
        rw [hend] at hread
        obtain ⟨hbytes, hless⟩ := hread
        have hsame : ({ buffered := channel.buffered ++ payload, cache := cache } : Channel).bytes
            wakes' = channel.bytes wakes := by
          simp only [Channel.bytes, List.append_assoc, hbytes]
        have hrounds : ({ buffered := channel.buffered ++ payload, cache := cache } :
            Channel).rounds wakes' < channel.rounds wakes := by
          simp only [Channel.rounds, hsame]
          omega
        obtain ⟨result, hresult, hsplits⟩ := ih sents
          { buffered := channel.buffered ++ payload, cache := cache } wakes' (by omega)
          (by rw [hsame]; exact h)
        exact ⟨result, hresult, hsplits.mono hrounds.le⟩
      | dropped cache wakes' =>
        rw [hend] at hread
        obtain ⟨hbytes, hless⟩ := hread
        have hsame : ({ buffered := channel.buffered, cache := cache } : Channel).bytes wakes' =
            channel.bytes wakes := by
          simp only [Channel.bytes, hbytes]
        refine ⟨_, rfl, [], sents, rfl, rfl, by rw [hsame]; exact h, ?_⟩
        simp only [Channel.rounds, hsame]
        omega
      | pending =>
        rw [hend] at hread
        have hnone : channel.cache.flatten ++ (wakes.map Wake.payload).flatten = [] := hread
        refine ⟨_, rfl, [], sents, rfl, rfl, ?_, hpart, rfl⟩
        rw [hnone, List.nil_append] at hfront
        exact hfront

/-- Without frames to wait for, a call returns a value or waits. -/
theorem recvLoop_without_wakes {fuel : ℕ} {channel : Channel} {result : Received}
    (h : recvLoop checks fuel channel [] = .ok result) :
    (∃ value after, result = .value value after []) ∨ ∃ after, result = .pending after := by
  induction fuel generalizing channel with
  | zero => cases h
  | succ fuel ih =>
    unfold recvLoop at h
    obtain ⟨⟨message, buffered⟩, -, h⟩ := Eval.bind_eq_ok.mp h
    cases message with
    | some message =>
      cases hinner : message.message with
      | none =>
        simp only [hinner] at h
        exact ih h
      | some inner =>
        simp only [hinner] at h
        by_cases hempty : inner.isEmptyDictionary = true
        · rw [if_pos hempty] at h
          exact ih h
        · rw [if_neg hempty] at h
          cases h
          exact .inl ⟨_, _, rfl⟩
    | none =>
      cases hcache : channel.cache with
      | nil =>
        simp only [hcache, h2Read] at h
        cases h
        exact .inr ⟨_, rfl⟩
      | cons payload cache =>
        simp only [hcache, h2Read] at h
        exact ih h

/-- The calls of a run, by induction on the rounds left to all of them. -/
theorem recvCalls_splits (fuel : ℕ) (sents : List Sent) (channel : Channel) (wakes : List Wake)
    (hfuel : channel.rounds wakes ≤ fuel)
    (h : Stream checks sents (channel.bytes wakes ++ future)) :
    ∃ values after done rest, recvCalls checks fuel channel wakes = .ok (values, after) ∧
      sents = done ++ rest ∧ values = done.filterMap delivered ∧
      Stream checks rest (after.buffered ++ future) ∧ Incomplete checks rest after.buffered ∧
      after.cache = [] := by
  induction fuel generalizing sents channel wakes with
  | zero => exact absurd hfuel (by unfold Channel.rounds; omega)
  | succ fuel ih =>
    obtain ⟨result, hresult, hsplits⟩ := recvLoop_splits _ sents channel wakes le_rfl h
    unfold recvCalls recvFromChannel
    rw [hresult]
    simp only [Eval.ok_bind]
    cases result with
    | value value channel' wakes' =>
      obtain ⟨done, rest, rfl, hdone, hrest, hrounds⟩ := hsplits
      obtain ⟨values, after, done', rest', hcalls, rfl, rfl, hafter⟩ :=
        ih rest channel' wakes' (by omega) hrest
      refine ⟨value :: done'.filterMap delivered, after, done ++ done', rest', ?_,
        (List.append_assoc _ _ _).symm, ?_, hafter⟩
      · simp only [hcalls, Eval.ok_bind]
        rfl
      · rw [List.filterMap_append, hdone, List.singleton_append]
    | dropped channel' wakes' =>
      obtain ⟨done, rest, rfl, hdone, hrest, hrounds⟩ := hsplits
      obtain ⟨values, after, done', rest', hcalls, rfl, rfl, hafter⟩ :=
        ih rest channel' wakes' (by omega) hrest
      refine ⟨_, after, done ++ done', rest', hcalls, (List.append_assoc _ _ _).symm, ?_, hafter⟩
      rw [List.filterMap_append, hdone, List.nil_append]
    | pending channel' =>
      obtain ⟨done, rest, rfl, hdone, hrest, hpart, hcache⟩ := hsplits
      exact ⟨_, channel', done, rest, rfl, rfl, hdone.symm, hrest, hpart, hcache⟩

/-- However the encodings are cut into payloads, and wherever a read is dropped,
the calls return what the messages deliver, in order and each once. The bytes of
a message that is not whole stay in the channel. -/
theorem recvAll_reassembles (sents : List Sent) (wakes : List Wake)
    (h : Stream checks sents ((wakes.map Wake.payload).flatten ++ future)) :
    ∃ values after done rest, recvAll checks wakes = .ok (values, after) ∧
      sents = done ++ rest ∧ values = done.filterMap delivered ∧
      Stream checks rest (after.buffered ++ future) ∧ Incomplete checks rest after.buffered ∧
      after.cache = [] ∧ (future = [] → rest = [] ∧ after.buffered = []) := by
  obtain ⟨values, after, done, rest, hcalls, hsents, hvalues, hrest, hpart, hcache⟩ :=
    recvCalls_splits _ sents {} wakes le_rfl h
  refine ⟨values, after, done, rest, hcalls, hsents, hvalues, hrest, hpart, hcache, ?_⟩
  intro heq
  subst heq
  rw [List.append_nil] at hrest
  generalize hbuffered : after.buffered = buffered at hrest hpart
  cases hrest with
  | nil => exact ⟨rfl, rfl⟩
  | cons hwire _ =>
    have hshort := hpart _ _ _ rfl hwire
    rw [List.length_append] at hshort
    omega

/-- A keep-alive and a message behind it, as sent. -/
def keepAliveAndTrue : List Sent := [(⟨0, none, none⟩, 6), (⟨1, some (.bool true), none⟩, 7)]

theorem keepAliveAndTrue_stream : Stream true keepAliveAndTrue
    ([146, 11, 176, 41, 0, 0, 0, 0, 0, 0, 0, 0, 0, 0, 0, 0, 6, 0, 0, 0, 0, 0, 0, 0] ++
      ([146, 11, 176, 41, 1, 0, 0, 0, 16, 0, 0, 0, 0, 0, 0, 0, 7, 0, 0, 0, 0, 0, 0, 0, 66, 55, 19,
        66, 5, 0, 0, 0, 0, 32, 0, 0, 1, 0, 0, 0] ++ [])) :=
  .cons ⟨rfl, fun _ h => (nomatch h), by decide⟩
    (.cons ⟨rfl, fun _ h => by cases h; exact .bool true, by decide⟩ .nil)

/-- The payloads end inside the messages, and two of the waits are dropped. -/
theorem recvAll_reassembles_keepAliveAndTrue :
    ∃ values after done rest,
      recvAll true [.frame [146, 11, 176, 41, 0, 0, 0, 0, 0, 0] false, .dropped,
        .frame [0, 0, 0, 0, 0, 0, 6, 0, 0, 0, 0, 0, 0, 0, 146, 11, 176, 41, 1, 0, 0, 0, 16, 0, 0]
          true,
        .frame [0, 0, 0, 0, 0, 7, 0, 0, 0, 0, 0, 0, 0, 66, 55, 19, 66, 5, 0, 0, 0, 0, 32, 0, 0, 1,
          0, 0, 0] false] = .ok (values, after) ∧
      keepAliveAndTrue = done ++ rest ∧ values = done.filterMap delivered ∧
      Stream true rest (after.buffered ++ []) ∧ Incomplete true rest after.buffered ∧
      after.cache = [] ∧ (([] : List UInt8) = [] → rest = [] ∧ after.buffered = []) :=
  recvAll_reassembles keepAliveAndTrue _ keepAliveAndTrue_stream

/-- A string with a NUL has an encoding that no call reads back. -/
theorem recvAll_nul_string :
    ∃ bytes, XPCMessage.encode true ⟨0, some (.string "\x00"), none⟩ 1 = .ok bytes ∧
      recvAll true [.frame bytes false] = .err (.xpc .invalidCString) :=
  ⟨_, rfl, rfl⟩

end Calls

end XitForge.Xpc
