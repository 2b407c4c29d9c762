import XitForge.RustSlice

/-!
RTCP of the display stream: the packets that are sent, the walk over a compound packet
that finds a sender report, and that the first are what the second can walk over.
-/
namespace XitForge.CoreDevice.Rtcp

open ByteStream RustEval RustSlice

def ptSenderReport : UInt8 := 200

def ptReceiverReport : UInt8 := 201

def ptSdes : UInt8 := 202

def ptPsfb : UInt8 := 206

def fmtPli : UInt8 := 1

def fmtFir : UInt8 := 4

structure SenderReport where
  ssrc : ℕ
  ntpMiddle : ℕ
  deriving DecidableEq, Repr

namespace SenderReport

variable (checks : Bool) (buf : Bytes)

/-- The report in a packet that starts at `off`. -/
def readAt (off : ℕ) : Eval Unit SenderReport := do
  let ssrc ← indices buf (off + 4) 4
  let ntpMsw ← indices buf (off + 8) 4
  let ntpLsw ← indices buf (off + 12) 4
  let ntpMiddle := beValue ntpMsw <<< 16 % 2 ^ 32 ||| beValue ntpLsw >>> 16
  .ok { ssrc := beValue ssrc, ntpMiddle }

/-- A walk that runs out of its rounds would be one that does not end. -/
def walk : ℕ → ℕ → Eval Unit SenderReport
  | 0, _ => .panic
  | rounds + 1, off => do
    let header ← Eval.add 64 checks off 4
    if buf.length < header then .err ()
    else do
      let pt ← index buf (off + 1)
      let lenWords ← indices buf (off + 2) 2
      let pktLen := (beValue lenWords + 1) * 4
      let stop ← Eval.add 64 checks off pktLen
      if pktLen = 0 ∨ buf.length < stop then .err ()
      else if pt = ptSenderReport ∧ 16 ≤ pktLen then readAt buf off
      else walk rounds stop

/-- `SenderReport::parse_first`: every round steps over four bytes at least. -/
def parseFirst : Eval Unit SenderReport := walk checks buf (buf.length + 1) 0

end SenderReport

structure ReportBlock where
  sourceSsrc : UInt32
  fractionLost : UInt8
  cumulativeLost : UInt32
  highestSeq : UInt32
  jitter : UInt32
  lsr : UInt32
  dlsr : UInt32

def u32Bytes (n : UInt32) : Bytes := beBytes 4 n.toNat

/-- The length field of the packet at `start`. A packet without room for it panics. -/
def patchLength (out : Bytes) (start : ℕ) : Eval Unit Bytes :=
  if start + 4 ≤ out.length then
    let words := ((out.length - start) / 4 - 1) % 2 ^ 16
    .ok (out.take (start + 2) ++ beBytes 2 words ++ out.drop (start + 4))
  else .panic

def ReportBlock.bytes (b : ReportBlock) : Bytes :=
  u32Bytes b.sourceSsrc ++ [b.fractionLost] ++ (u32Bytes b.cumulativeLost).drop 1 ++
    u32Bytes b.highestSeq ++ u32Bytes b.jitter ++ u32Bytes b.lsr ++ u32Bytes b.dlsr

def buildReceiverReport (ourSsrc : UInt32) (blocks : List ReportBlock) : Eval Unit Bytes :=
  let rc := min blocks.length 31
  patchLength ([0x80 ||| UInt8.ofNat rc, ptReceiverReport] ++ [0, 0] ++ u32Bytes ourSsrc ++
    (blocks.take 31).flatMap ReportBlock.bytes) 0

/-- `while out.len() % 4 != 0` -/
def padToWord (out : Bytes) : Bytes :=
  if out.length % 4 = 0 then out else padToWord (out ++ [0])
termination_by (4 - out.length % 4) % 4
decreasing_by
  rw [List.length_append, List.length_singleton]
  omega

def buildSdes (ourSsrc : UInt32) (cname : String) : Eval Unit Bytes :=
  let bytes := cname.toUTF8.toList
  let len := min bytes.length 255
  patchLength (padToWord ([0x80 ||| 1, ptSdes] ++ [0, 0] ++ u32Bytes ourSsrc ++
    [1, UInt8.ofNat len] ++ bytes.take len ++ [0])) 0

def buildPli (ourSsrc mediaSsrc : UInt32) : Eval Unit Bytes :=
  patchLength ([0x80 ||| fmtPli, ptPsfb] ++ [0, 0] ++ u32Bytes ourSsrc ++ u32Bytes mediaSsrc) 0

def buildFir (ourSsrc mediaSsrc : UInt32) (seqNr : UInt8) : Eval Unit Bytes :=
  patchLength ([0x80 ||| fmtFir, ptPsfb] ++ [0, 0] ++ u32Bytes ourSsrc ++ u32Bytes 0 ++
    u32Bytes mediaSsrc ++ [seqNr] ++ [0, 0, 0]) 0

def buildLiveness (ourSsrc : UInt32) (cname : String) (blocks : List ReportBlock) :
    Eval Unit Bytes := do
  let p ← buildReceiverReport ourSsrc blocks
  let sdes ← buildSdes ourSsrc cname
  .ok (p ++ sdes)

def buildKeyframeRequest (ourSsrc : UInt32) (cname : String) (mediaSsrc : UInt32)
    (blocks : List ReportBlock) (firSeq : UInt8) : Eval Unit Bytes := do
  let p ← buildLiveness ourSsrc cname blocks
  let pli ← buildPli ourSsrc mediaSsrc
  let fir ← buildFir ourSsrc mediaSsrc firSeq
  .ok (p ++ pli ++ fir)

/-- A sub-packet: aligned, of version 2, with its own length in words minus one. -/
structure WellFormed (p : Bytes) : Prop where
  header : 4 ≤ p.length
  aligned : p.length % 4 = 0
  version : p.headD 0 >>> 6 = 2
  length_field : beValue ((p.drop 2).take 2) = p.length / 4 - 1

/-- The low five bits of the first byte. -/
def reportCount (p : Bytes) : ℕ := (p.headD 0 &&& 0x1f).toNat

def packetType (p : Bytes) : UInt8 := (p.drop 1).headD 0

/-- The sub-packets that the builders make. -/
inductive Built : Bytes → Prop
  | receiverReport {ourSsrc : UInt32} {blocks : List ReportBlock} {p : Bytes}
      (h : buildReceiverReport ourSsrc blocks = .ok p) : Built p
  | sdes {ourSsrc : UInt32} {cname : String} {p : Bytes} (h : buildSdes ourSsrc cname = .ok p) :
    Built p
  | pli {ourSsrc mediaSsrc : UInt32} {p : Bytes} (h : buildPli ourSsrc mediaSsrc = .ok p) : Built p
  | fir {ourSsrc mediaSsrc : UInt32} {seqNr : UInt8} {p : Bytes}
      (h : buildFir ourSsrc mediaSsrc seqNr = .ok p) : Built p

section Building

/-- A packet with its length field. -/
def packet (b0 pt : UInt8) (body : Bytes) : Bytes :=
  b0 :: pt :: (beBytes 2 ((body.length + 4) / 4 - 1) ++ body)

theorem length_packet (b0 pt : UInt8) (body : Bytes) :
    (packet b0 pt body).length = body.length + 4 := by
  unfold packet
  simp only [List.length_cons, List.length_append, length_beBytes]
  omega

theorem patchLength_eq (b0 pt : UInt8) {body : Bytes} (hmax : body.length < 2 ^ 18) :
    patchLength ([b0, pt] ++ [0, 0] ++ body) 0 = .ok (packet b0 pt body) := by
  have hlength : ([b0, pt] ++ [0, 0] ++ body).length = body.length + 4 := by
    simp only [List.length_append, List.length_cons, List.length_nil]
    omega
  unfold patchLength packet
  rw [if_pos (by omega), hlength, Nat.sub_zero, Nat.mod_eq_of_lt (by omega)]
  rfl

theorem wellFormed_packet {b0 : UInt8} (pt : UInt8) {body : Bytes} (hversion : b0 >>> 6 = 2)
    (haligned : body.length % 4 = 0) (hmax : body.length < 2 ^ 18) :
    WellFormed (packet b0 pt body) where
  header := by
    rw [length_packet]
    omega
  aligned := by
    rw [length_packet]
    omega
  version := hversion
  length_field := by
    rw [length_packet]
    have hfield : ((packet b0 pt body).drop 2).take 2 = beBytes 2 ((body.length + 4) / 4 - 1) := by
      show (beBytes 2 ((body.length + 4) / 4 - 1) ++ body).take 2 = _
      exact List.take_left' (length_beBytes 2 _)
    rw [hfield, beValue_beBytes (by omega)]

theorem header_bits {n : ℕ} (h : n < 32) :
    (0x80 ||| UInt8.ofNat n) >>> 6 = 2 ∧ ((0x80 ||| UInt8.ofNat n) &&& 0x1f).toNat = n := by
  revert n
  decide

theorem ReportBlock.length_bytes (b : ReportBlock) : b.bytes.length = 24 := by
  simp only [ReportBlock.bytes, u32Bytes, List.length_append, List.length_drop, length_beBytes,
    List.length_singleton]

theorem length_blocks (blocks : List ReportBlock) :
    (blocks.flatMap ReportBlock.bytes).length = 24 * blocks.length := by
  induction blocks with
  | nil => rfl
  | cons b rest ih =>
    rw [List.flatMap_cons, List.length_append, b.length_bytes, ih, List.length_cons]
    ring

theorem padToWord_eq (out : Bytes) :
    ∃ count < 4, padToWord out = out ++ List.replicate count 0 ∧ (out.length + count) % 4 = 0 := by
  fun_induction padToWord out with
  | case1 out haligned => exact ⟨0, by decide, by simp, haligned⟩
  | case2 out hshort ih =>
    obtain ⟨count, hlt, heq, haligned⟩ := ih
    rw [List.length_append, List.length_singleton] at haligned
    refine ⟨count + 1, by omega, ?_, by omega⟩
    rw [heq, List.append_assoc, List.replicate_succ]
    rfl

theorem length_u32Bytes (n : UInt32) : (u32Bytes n).length = 4 := length_beBytes 4 _

/-- What every builder does: a packet of another type than a sender report, in whole
words. -/
theorem exists_packet (b0 pt : UInt8) (body : Bytes) (hversion : b0 >>> 6 = 2)
    (hpt : pt ≠ ptSenderReport) (haligned : body.length % 4 = 0) (hmax : body.length < 2 ^ 18) :
    ∃ p, patchLength ([b0, pt] ++ [0, 0] ++ body) 0 = .ok p ∧ WellFormed p ∧
      packetType p ≠ ptSenderReport ∧ reportCount p = (b0 &&& 0x1f).toNat :=
  ⟨packet b0 pt body, patchLength_eq b0 pt hmax, wellFormed_packet pt hversion haligned hmax, hpt,
    rfl⟩

theorem buildReceiverReport_spec (ourSsrc : UInt32) (blocks : List ReportBlock) :
    ∃ p, buildReceiverReport ourSsrc blocks = .ok p ∧ WellFormed p ∧
      packetType p ≠ ptSenderReport ∧ reportCount p = min blocks.length 31 := by
  obtain ⟨hversion, hcount⟩ := header_bits (by omega : min blocks.length 31 < 32)
  have hlength : (u32Bytes ourSsrc ++ (blocks.take 31).flatMap ReportBlock.bytes).length =
      4 + 24 * min 31 blocks.length := by
    rw [List.length_append, length_u32Bytes, length_blocks, List.length_take]
  have hpacket := exists_packet _ ptReceiverReport _ hversion (by decide)
    (by rw [hlength]; omega : (u32Bytes ourSsrc ++
      (blocks.take 31).flatMap ReportBlock.bytes).length % 4 = 0) (by rw [hlength]; omega)
  rw [hcount] at hpacket
  simpa only [buildReceiverReport, List.append_assoc] using hpacket

/-- A CNAME of any length: what is above 255 bytes is left out. -/
theorem buildSdes_spec (ourSsrc : UInt32) (cname : String) :
    ∃ p, buildSdes ourSsrc cname = .ok p ∧ WellFormed p ∧ packetType p ≠ ptSenderReport := by
  unfold buildSdes
  generalize cname.toUTF8.toList = bytes
  dsimp only
  obtain ⟨count, hcount, hpad, haligned⟩ := padToWord_eq ([0x80 ||| 1, ptSdes] ++ [0, 0] ++
    u32Bytes ourSsrc ++ [1, UInt8.ofNat (min bytes.length 255)] ++
    bytes.take (min bytes.length 255) ++ [0])
  simp only [List.length_append, length_u32Bytes, List.length_cons, List.length_nil,
    List.length_take] at haligned
  have hlength : (u32Bytes ourSsrc ++ ([1, UInt8.ofNat (min bytes.length 255)] ++
      (bytes.take (min bytes.length 255) ++ ([0] ++ List.replicate count 0)))).length =
      7 + min bytes.length 255 + count := by
    simp only [List.length_append, length_u32Bytes, List.length_cons, List.length_nil,
      List.length_take, List.length_replicate]
    omega
  obtain ⟨p, hp, hwell, htype, -⟩ := exists_packet (0x80 ||| 1) ptSdes _ (by decide) (by decide)
    (by rw [hlength]; omega : (u32Bytes ourSsrc ++ ([1, UInt8.ofNat (min bytes.length 255)] ++
      (bytes.take (min bytes.length 255) ++ ([0] ++ List.replicate count 0)))).length % 4 = 0)
    (by rw [hlength]; omega)
  refine ⟨p, ?_, hwell, htype⟩
  rw [hpad, ← hp]
  simp only [List.append_assoc]

theorem buildPli_spec (ourSsrc mediaSsrc : UInt32) :
    ∃ p, buildPli ourSsrc mediaSsrc = .ok p ∧ WellFormed p ∧ packetType p ≠ ptSenderReport := by
  have hlength : (u32Bytes ourSsrc ++ u32Bytes mediaSsrc).length = 8 := by
    rw [List.length_append, length_u32Bytes, length_u32Bytes]
  obtain ⟨p, hp, hwell, htype, -⟩ := exists_packet (0x80 ||| fmtPli) ptPsfb
    (u32Bytes ourSsrc ++ u32Bytes mediaSsrc) (by decide) (by decide) (by rw [hlength])
    (by rw [hlength]; decide)
  refine ⟨p, ?_, hwell, htype⟩
  rw [← hp, buildPli, List.append_assoc _ (u32Bytes ourSsrc)]

theorem buildFir_spec (ourSsrc mediaSsrc : UInt32) (seqNr : UInt8) :
    ∃ p, buildFir ourSsrc mediaSsrc seqNr = .ok p ∧ WellFormed p ∧
      packetType p ≠ ptSenderReport := by
  have hlength : (u32Bytes ourSsrc ++ (u32Bytes 0 ++ (u32Bytes mediaSsrc ++
      ([seqNr] ++ [0, 0, 0])))).length = 16 := by
    simp only [List.length_append, length_u32Bytes, List.length_cons, List.length_nil]
  obtain ⟨p, hp, hwell, htype, -⟩ := exists_packet (0x80 ||| fmtFir) ptPsfb
    (u32Bytes ourSsrc ++ (u32Bytes 0 ++ (u32Bytes mediaSsrc ++ ([seqNr] ++ [0, 0, 0]))))
    (by decide) (by decide) (by rw [hlength]) (by rw [hlength]; decide)
  refine ⟨p, ?_, hwell, htype⟩
  rw [← hp, buildFir]
  simp only [List.append_assoc]

end Building

theorem Built.wellFormed {p : Bytes} (h : Built p) :
    WellFormed p ∧ packetType p ≠ ptSenderReport := by
  cases h with
  | @receiverReport ourSsrc blocks _ h =>
    obtain ⟨q, hq, hwell, htype, -⟩ := buildReceiverReport_spec ourSsrc blocks
    rw [h] at hq
    cases hq
    exact ⟨hwell, htype⟩
  | @sdes ourSsrc cname _ h =>
    obtain ⟨q, hq, hspec⟩ := buildSdes_spec ourSsrc cname
    rw [h] at hq
    cases hq
    exact hspec
  | @pli ourSsrc mediaSsrc _ h =>
    obtain ⟨q, hq, hspec⟩ := buildPli_spec ourSsrc mediaSsrc
    rw [h] at hq
    cases hq
    exact hspec
  | @fir ourSsrc mediaSsrc seqNr _ h =>
    obtain ⟨q, hq, hspec⟩ := buildFir_spec ourSsrc mediaSsrc seqNr
    rw [h] at hq
    cases hq
    exact hspec

section Walking

namespace SenderReport

variable {checks : Bool}

theorem index_headD {buf : Bytes} {i : ℕ} (h : i < buf.length) :
    (index buf i : Eval Unit UInt8) = .ok ((buf.drop i).headD 0) := by
  rw [index_eq h, List.drop_eq_getElem_cons h]
  rfl

/-- A round of the walk. -/
theorem walk_round {buf : Bytes} {off : ℕ} (rounds : ℕ) (hmax : buf.length < 2 ^ 63)
    (hoff : off ≤ buf.length) :
    walk checks buf (rounds + 1) off =
      if buf.length < off + 4 then .err ()
      else if buf.length < off + (beValue ((buf.drop (off + 2)).take 2) + 1) * 4 then .err ()
      else if (buf.drop (off + 1)).headD 0 = ptSenderReport ∧
          16 ≤ (beValue ((buf.drop (off + 2)).take 2) + 1) * 4 then
        readAt buf off
      else walk checks buf rounds (off + (beValue ((buf.drop (off + 2)).take 2) + 1) * 4) := by
  rw [walk, Eval.add_of_lt (by omega), Eval.ok_bind]
  by_cases hheader : buf.length < off + 4
  · rw [if_pos hheader, if_pos hheader]
  · have hfield := beValue_lt ((buf.drop (off + 2)).take 2)
    have hpow : 256 ^ ((buf.drop (off + 2)).take 2).length ≤ 256 ^ 2 :=
      Nat.pow_le_pow_right (by decide) (List.length_take_le _ _)
    rw [if_neg hheader, if_neg hheader, index_headD (by omega), Eval.ok_bind,
      indices_eq (by omega), Eval.ok_bind]
    generalize beValue ((buf.drop (off + 2)).take 2) = lenWords at hfield ⊢
    dsimp only
    rw [Eval.add_of_lt (by omega), Eval.ok_bind]
    by_cases hstop : buf.length < off + (lenWords + 1) * 4
    · rw [if_pos (.inr hstop), if_pos hstop]
    · rw [if_neg (by omega), if_neg hstop]

theorem WellFormed.pktLen {p : Bytes} (h : WellFormed p) :
    (beValue ((p.drop 2).take 2) + 1) * 4 = p.length := by
  have hheader := h.header
  have haligned := h.aligned
  rw [h.length_field]
  omega

/-- A round that stands before a packet of a compound packet. -/
theorem walk_packet {rounds : ℕ} (front : Bytes) {p : Bytes} (rest : Bytes) (h : WellFormed p)
    (hmax : (front ++ (p ++ rest)).length < 2 ^ 63) :
    walk checks (front ++ (p ++ rest)) (rounds + 1) front.length =
      if packetType p = ptSenderReport ∧ 16 ≤ p.length then
        readAt (front ++ (p ++ rest)) front.length
      else walk checks (front ++ (p ++ rest)) rounds (front ++ p).length := by
  have hheader := h.header
  have hlength : (front ++ (p ++ rest)).length = front.length + p.length + rest.length := by
    rw [List.length_append, List.length_append, Nat.add_assoc]
  have hdrop (i : ℕ) (hi : i ≤ p.length) :
      (front ++ (p ++ rest)).drop (front.length + i) = p.drop i ++ rest := by
    rw [← List.drop_drop, List.drop_left, List.drop_append_of_le_length hi]
  have hfield : ((front ++ (p ++ rest)).drop (front.length + 2)).take 2 = (p.drop 2).take 2 := by
    rw [hdrop 2 (by omega), List.take_append_of_le_length (by rw [List.length_drop]; omega)]
  have htype : ((front ++ (p ++ rest)).drop (front.length + 1)).headD 0 = packetType p := by
    rw [hdrop 1 (by omega), packetType, List.drop_eq_getElem_cons (by omega : 1 < p.length)]
    rfl
  rw [walk_round rounds hmax (by omega), if_neg (by omega), hfield, htype, WellFormed.pktLen h,
    if_neg (by omega), List.length_append]

/-- Packets of other types are stepped over. -/
theorem walk_packets {rounds : ℕ} (packets : List Bytes)
    (h : ∀ p ∈ packets, WellFormed p ∧ packetType p ≠ ptSenderReport) (front rest : Bytes)
    (hmax : (front ++ (packets.flatten ++ rest)).length < 2 ^ 63) :
    walk checks (front ++ (packets.flatten ++ rest)) (packets.length + rounds) front.length =
      walk checks (front ++ (packets.flatten ++ rest)) rounds
        (front ++ packets.flatten).length := by
  induction packets generalizing front with
  | nil => simp
  | cons p packets ih =>
    obtain ⟨hwell, htype⟩ := h p List.mem_cons_self
    have hrounds : (p :: packets).length + rounds = (packets.length + rounds) + 1 := by
      rw [List.length_cons]
      omega
    have hmove : front ++ ((p :: packets).flatten ++ rest) =
        front ++ (p ++ (packets.flatten ++ rest)) := by
      rw [List.flatten_cons, List.append_assoc]
    have hfront : front ++ (p ++ (packets.flatten ++ rest)) =
        front ++ p ++ (packets.flatten ++ rest) := by
      rw [List.append_assoc]
    rw [hmove] at hmax ⊢
    rw [hrounds, walk_packet front _ hwell hmax, if_neg (fun hsr => htype hsr.1)]
    rw [hfront] at hmax ⊢
    rw [ih (fun q hq => h q (List.mem_cons_of_mem _ hq)) (front ++ p) hmax, List.flatten_cons,
      List.append_assoc front p packets.flatten]

/-- The middle of the 64 bits of an NTP timestamp. -/
theorem ntpMiddle_eq (msw : ℕ) {lsw : ℕ} (hlsw : lsw < 2 ^ 32) :
    msw <<< 16 % 2 ^ 32 ||| lsw >>> 16 = (msw * 2 ^ 32 + lsw) / 2 ^ 16 % 2 ^ 32 := by
  have hlow : lsw / 2 ^ 16 < 2 ^ 16 := by omega
  have hhigh : msw * 2 ^ 16 % 2 ^ 32 = 2 ^ 16 * (msw % 2 ^ 16) := by omega
  rw [Nat.shiftLeft_eq, Nat.shiftRight_eq_div_pow, hhigh, ← Nat.two_pow_add_eq_or_of_lt hlow]
  omega

/-- The report that a packet carries. -/
def ofPacket (p : Bytes) : SenderReport where
  ssrc := beValue ((p.drop 4).take 4)
  ntpMiddle := beValue ((p.drop 8).take 8) / 2 ^ 16 % 2 ^ 32

theorem readAt_packet (front : Bytes) {p : Bytes} (rest : Bytes) (h : 16 ≤ p.length) :
    readAt (front ++ (p ++ rest)) front.length = .ok (ofPacket p) := by
  have hread (i : ℕ) (hi : i + 4 ≤ 16) :
      (indices (front ++ (p ++ rest)) (front.length + i) 4 : Eval Unit Bytes) =
        .ok ((p.drop i).take 4) := by
    have hlength : (front ++ (p ++ rest)).length = front.length + p.length + rest.length := by
      rw [List.length_append, List.length_append, Nat.add_assoc]
    rw [indices_eq (by omega), ← List.drop_drop, List.drop_left,
      List.drop_append_of_le_length (by omega),
      List.take_append_of_le_length (by rw [List.length_drop]; omega)]
  have hntp : (p.drop 8).take 8 = (p.drop 8).take 4 ++ (p.drop 12).take 4 := by
    have hsplit : (p.drop 8).take (4 + 4) = _ := List.take_add
    rwa [List.drop_drop] at hsplit
  have hlength : ((p.drop 12).take 4).length = 4 := by
    rw [List.length_take, List.length_drop]
    omega
  have hlsw := beValue_lt ((p.drop 12).take 4)
  rw [hlength] at hlsw
  unfold readAt ofPacket
  rw [hread 4 (by decide), Eval.ok_bind, hread 8 (by decide), Eval.ok_bind, hread 12 (by decide),
    Eval.ok_bind, hntp, beValue_append, hlength]
  dsimp only
  rw [ntpMiddle_eq _ hlsw]
  rfl

theorem walk_ne_panic {buf : Bytes} (hmax : buf.length < 2 ^ 63) {rounds off : ℕ}
    (hoff : off ≤ buf.length) (hrounds : buf.length < off + rounds) :
    walk checks buf rounds off ≠ .panic := by
  induction rounds generalizing off with
  | zero => omega
  | succ rounds ih =>
    rw [walk_round rounds hmax hoff]
    split
    · exact nofun
    · split
      · exact nofun
      · rename_i hheader hstop
        split
        · rename_i hreport
          unfold readAt
          rw [indices_eq (by omega), Eval.ok_bind, indices_eq (by omega), Eval.ok_bind,
            indices_eq (by omega), Eval.ok_bind]
          exact nofun
        · exact ih (by omega) (by omega)

/-- A sender report is found behind any packets of other types. -/
theorem parseFirst_flatten {packets : List Bytes} {p : Bytes} (rest : Bytes)
    (h : ∀ q ∈ packets, WellFormed q ∧ packetType q ≠ ptSenderReport) (hp : WellFormed p)
    (htype : packetType p = ptSenderReport) (hlong : 16 ≤ p.length)
    (hmax : (packets.flatten ++ (p ++ rest)).length < 2 ^ 63) :
    parseFirst checks (packets.flatten ++ (p ++ rest)) = .ok (ofPacket p) := by
  have hcount : packets.length ≤ packets.flatten.length := by
    clear hmax
    induction packets with
    | nil => exact Nat.zero_le _
    | cons q packets ih =>
      have hheader := (h q List.mem_cons_self).1.header
      have hrest := ih fun q hq => h q (List.mem_cons_of_mem _ hq)
      rw [List.flatten_cons, List.length_append, List.length_cons]
      omega
  obtain ⟨rounds, hrounds⟩ : ∃ rounds, (packets.flatten ++ (p ++ rest)).length + 1 =
      packets.length + (rounds + 1) := ⟨(packets.flatten ++ (p ++ rest)).length - packets.length, by
    rw [List.length_append]
    omega⟩
  have hwalk : walk checks (packets.flatten ++ (p ++ rest)) (packets.length + (rounds + 1)) 0 =
      walk checks (packets.flatten ++ (p ++ rest)) (rounds + 1) packets.flatten.length :=
    walk_packets packets h [] (p ++ rest) hmax
  rw [parseFirst, hrounds, hwalk, walk_packet _ rest hp hmax, if_pos ⟨htype, hlong⟩,
    readAt_packet _ rest hlong]

end SenderReport

end Walking

/-- What a compound packet is cut into. -/
def Tiles (buf : Bytes) (packets : List Bytes) : Prop :=
  buf = packets.flatten ∧ ∀ p ∈ packets, WellFormed p

theorem buildLiveness_spec (ourSsrc : UInt32) (cname : String) (blocks : List ReportBlock) :
    ∃ rr sdes, buildLiveness ourSsrc cname blocks = .ok (rr ++ sdes) ∧ WellFormed rr ∧
      WellFormed sdes ∧ reportCount rr = min blocks.length 31 := by
  obtain ⟨rr, hrr, hwell, -, hcount⟩ := buildReceiverReport_spec ourSsrc blocks
  obtain ⟨sdes, hsdes, hwell', -⟩ := buildSdes_spec ourSsrc cname
  refine ⟨rr, sdes, ?_, hwell, hwell', hcount⟩
  rw [buildLiveness, hrr, Eval.ok_bind, hsdes, Eval.ok_bind]

/-- Compound packets are tiled by well-formed packets, the walk finds a sender report
behind them, and on any bytes it ends within them. -/
theorem compound_walkable (checks : Bool) :
    (∀ ourSsrc mediaSsrc cname blocks firSeq, ∃ rr sdes pli fir,
      buildLiveness ourSsrc cname blocks = .ok (rr ++ sdes) ∧
      buildKeyframeRequest ourSsrc cname mediaSsrc blocks firSeq =
        .ok (rr ++ sdes ++ pli ++ fir) ∧
      Tiles (rr ++ sdes) [rr, sdes] ∧ Tiles (rr ++ sdes ++ pli ++ fir) [rr, sdes, pli, fir] ∧
      reportCount rr = min blocks.length 31) ∧
    (∀ (packets : List Bytes) p rest, (∀ q ∈ packets, Built q) → WellFormed p →
      packetType p = ptSenderReport →
      16 ≤ p.length → (packets.flatten ++ (p ++ rest)).length < 2 ^ 63 →
      SenderReport.parseFirst checks (packets.flatten ++ (p ++ rest)) =
        .ok (SenderReport.ofPacket p)) ∧
    ∀ buf : Bytes, buf.length < 2 ^ 63 → SenderReport.parseFirst checks buf ≠ .panic := by
  refine ⟨?_, ?_, ?_⟩
  · intro ourSsrc mediaSsrc cname blocks firSeq
    obtain ⟨rr, sdes, hlive, hrr, hsdes, hcount⟩ := buildLiveness_spec ourSsrc cname blocks
    obtain ⟨pli, hpli, hwellPli, -⟩ := buildPli_spec ourSsrc mediaSsrc
    obtain ⟨fir, hfir, hwellFir, -⟩ := buildFir_spec ourSsrc mediaSsrc firSeq
    refine ⟨rr, sdes, pli, fir, hlive, ?_, ⟨by simp, by simp [hrr, hsdes]⟩,
      ⟨by simp, by simp [hrr, hsdes, hwellPli, hwellFir]⟩, hcount⟩
    rw [buildKeyframeRequest, hlive, Eval.ok_bind, hpli, Eval.ok_bind, hfir, Eval.ok_bind]
  · intro packets p rest hbuilt hp htype hlong hmax
    exact SenderReport.parseFirst_flatten rest (fun q hq => (hbuilt q hq).wellFormed) hp htype hlong
      hmax
  · intro buf hmax
    exact SenderReport.walk_ne_panic hmax (Nat.zero_le _) (by omega)

theorem compound_walkable_report :
    SenderReport.parseFirst true ([0x80, 201, 0, 1, 0, 0, 0xfe, 0xed] ++ ([0x80, 200, 0, 3,
      0x0a, 0x0b, 0x0c, 0x0d, 0x11, 0x11, 0x22, 0x22, 0x33, 0x33, 0x44, 0x44] ++ [])) =
      .ok ⟨0x0a0b0c0d, 0x22223333⟩ := by
  have hreport : Built [0x80, 201, 0, 1, 0, 0, 0xfe, 0xed] :=
    @Built.receiverReport 0xfeed [] _ (by decide)
  have hparse := (compound_walkable true).2.1 [[0x80, 201, 0, 1, 0, 0, 0xfe, 0xed]]
    [0x80, 200, 0, 3, 0x0a, 0x0b, 0x0c, 0x0d, 0x11, 0x11, 0x22, 0x22, 0x33, 0x33, 0x44, 0x44] []
    (by simpa using hreport) ⟨by decide, by decide, by decide, by decide⟩ (by decide) (by decide)
    (by decide)
  exact hparse

end XitForge.CoreDevice.Rtcp
