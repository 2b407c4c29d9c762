import XitForge.SerialNumber

/-!
The HEVC depacketizer of the display stream. Packets wait in a map until their
sequence number is next, and their payloads are put together to NAL units; a gap is
given up when too many packets wait behind it.
-/
namespace XitForge.CoreDevice.Hevc

open SerialNumber

abbrev Bytes := List UInt8

/-- The timestamp and the payload of an RTP packet. -/
abbrev Packet := UInt32 × Bytes

def maxReorderBuffer : ℕ := 128

def audNal : Bytes := [0x46, 0x01, 0x50]

def annexbStartCode : Bytes := [0x00, 0x00, 0x00, 0x01]

def nalType (byte : UInt8) : UInt8 := (byte >>> 1) &&& 0x3f

def isIrap (t : UInt8) : Bool := 16 ≤ t && t ≤ 23

def isVcl (t : UInt8) : Bool := t ≤ 31

/-- The fields of `HevcDepacketizer` that the order of the packets does not touch. -/
structure NalAssembler where
  lastTs : Option UInt32 := none
  fuBuffer : Bytes := []
  fuActive : Bool := false
  vps : Option Bytes := none
  sps : Option Bytes := none
  pps : Option Bytes := none
  paramsEmittedSinceIrap : Bool := false
  out : Bytes := []
  deriving DecidableEq

namespace NalAssembler

def writeAnnexb (s : NalAssembler) (nal : Bytes) : NalAssembler :=
  { s with out := s.out ++ annexbStartCode ++ nal }

def resetFu (s : NalAssembler) : NalAssembler := { s with fuBuffer := [], fuActive := false }

/-- The parameter sets of a NAL unit are kept. -/
def keepParams (s : NalAssembler) (nal : Bytes) (t : UInt8) : NalAssembler :=
  if t = 32 then { s with vps := some nal, paramsEmittedSinceIrap := true }
  else if t = 33 then { s with sps := some nal, paramsEmittedSinceIrap := true }
  else if t = 34 then { s with pps := some nal, paramsEmittedSinceIrap := true }
  else s

/-- Once before a key frame, the parameter sets are written again. -/
def injectParams (s : NalAssembler) (t : UInt8) : NalAssembler :=
  if isIrap t && !s.paramsEmittedSinceIrap then
    let sets := s.vps.toList ++ s.sps.toList ++ s.pps.toList
    { sets.foldl writeAnnexb s with paramsEmittedSinceIrap := true }
  else s

def rearm (s : NalAssembler) (t : UInt8) : NalAssembler :=
  if isVcl t && !isIrap t then { s with paramsEmittedSinceIrap := false } else s

def emitNal (s : NalAssembler) (nal : Bytes) : NalAssembler :=
  match nal with
  | byte :: _ :: _ =>
    let t := nalType byte
    (((s.keepParams nal t).injectParams t).rearm t).writeAnnexb nal
  | _ => s

/-- The NAL units of an aggregation packet, each behind its length. -/
def aggregated (s : NalAssembler) : ℕ → Bytes → NalAssembler
  | fuel + 1, high :: low :: rest =>
    let size := high.toNat * 256 + low.toNat
    if size ≤ rest.length then aggregated (s.emitNal (rest.take size)) fuel (rest.drop size) else s
  | _, _ => s

def processAggregation (s : NalAssembler) (payload : Bytes) : NalAssembler :=
  s.resetFu.aggregated payload.length (payload.drop 2)

def processFragmentation (s : NalAssembler) (payload : Bytes) : NalAssembler :=
  match payload with
  | byte0 :: byte1 :: fuHeader :: fragment =>
    let isStart := fuHeader &&& (0x80 : UInt8) != 0
    let isEnd := fuHeader &&& (0x40 : UInt8) != 0
    let fuType : UInt8 := fuHeader &&& 0x3f
    let b0 : UInt8 := (byte0 &&& (0x81 : UInt8)) ||| (fuType <<< (1 : UInt8))
    if isStart || s.fuActive then
      let s : NalAssembler :=
        if isStart then
          { s with fuBuffer := b0 :: byte1 :: fragment,
                   fuActive := true }
        else { s with fuBuffer := s.fuBuffer ++ fragment }
      if isEnd && s.fuActive then
        { s with fuBuffer := [], fuActive := false }.emitNal s.fuBuffer
      else s
    else s
  | _ => s

def processPayload (s : NalAssembler) (payload : Bytes) : NalAssembler :=
  match payload with
  | byte :: _ :: _ =>
    if nalType byte = 48 then s.processAggregation payload
    else if nalType byte = 49 then s.processFragmentation payload
    else s.resetFu.emitNal payload
  | _ => s

/-- A packet whose turn it is. A new timestamp closes the picture before. -/
def deliver (s : NalAssembler) (packet : Packet) : NalAssembler :=
  let s := if s.lastTs.any (· != packet.1) then s.writeAnnexb audNal else s
  { s with lastTs := some packet.1 }.processPayload packet.2

end NalAssembler

structure HevcDepacketizer where
  reorder : Std.TreeMap UInt16 Packet := ∅
  nextSeq : Option UInt16 := none
  nal : NalAssembler := {}

namespace HevcDepacketizer

def new : HevcDepacketizer := {}

/-- The loop of `drain_in_order`. Every round takes a packet out of the map, whose size
bounds the rounds. -/
def drainLoop : ℕ → HevcDepacketizer → HevcDepacketizer
  | 0, d => d
  | fuel + 1, d =>
    match d.nextSeq with
    | none => d
    | some next =>
      match d.reorder[next]? with
      | none => d
      | some packet => drainLoop fuel
        { reorder := d.reorder.erase next, nextSeq := some (next + 1), nal := d.nal.deliver packet }

def drainInOrder (d : HevcDepacketizer) : HevcDepacketizer := drainLoop d.reorder.size d

/-- The first packet sets the cursor. -/
def begun (d : HevcDepacketizer) (seq : UInt16) : HevcDepacketizer :=
  { d with nextSeq := some (d.nextSeq.getD seq) }

def stale (d : HevcDepacketizer) (seq : UInt16) : Bool := d.nextSeq.any (seqLessThan seq)

def insert (d : HevcDepacketizer) (seq : UInt16) (packet : Packet) : HevcDepacketizer :=
  { d with reorder := d.reorder.insert seq packet }

/-- The cursor moves to a waiting packet; what was put together of a fragment is lost. -/
def skipTo (d : HevcDepacketizer) (lowest : UInt16) : HevcDepacketizer :=
  { d with nextSeq := some lowest, nal := d.nal.resetFu }

/-- The gap is given up where too many packets wait. -/
def skipGap (d : HevcDepacketizer) : HevcDepacketizer :=
  if d.reorder.size > maxReorderBuffer then
    match d.reorder.keys.head? with
    | some lowest => (d.skipTo lowest).drainInOrder
    | none => d
  else d

def push (d : HevcDepacketizer) (seq : UInt16) (packet : Packet) : HevcDepacketizer :=
  let d := d.begun seq
  if d.stale seq then d else ((d.insert seq packet).drainInOrder).skipGap

/-- The output so far, and the depacketizer without it. -/
def takeOutput (d : HevcDepacketizer) : Bytes × HevcDepacketizer :=
  (d.nal.out, { d with nal := { d.nal with out := [] } })

section Drain

/-- The packets that `drainLoop` takes out, in order. -/
def drainedLoop : ℕ → HevcDepacketizer → List Packet
  | 0, _ => []
  | fuel + 1, d =>
    match d.nextSeq with
    | none => []
    | some next =>
      match d.reorder[next]? with
      | none => []
      | some packet => packet :: drainedLoop fuel
        { reorder := d.reorder.erase next, nextSeq := some (next + 1), nal := d.nal.deliver packet }

def drained (d : HevcDepacketizer) : List Packet := drainedLoop d.reorder.size d

/-- From the cursor on, `taken` was delivered, and the packet behind it is missing. -/
structure Drained (d d' : HevcDepacketizer) (cursor : UInt16) (taken : List Packet) : Prop where
  next : d'.nextSeq = some (cursor + UInt16.ofNat taken.length)
  rest : ∀ k, d'.reorder[k]? = if ahead cursor k < taken.length then none else d.reorder[k]?
  stop : d'.reorder[cursor + UInt16.ofNat taken.length]? = none
  inOrder : ∀ i (h : i < taken.length), d.reorder[cursor + UInt16.ofNat i]? = some taken[i]
  nal : d'.nal = taken.foldl NalAssembler.deliver d.nal
  size : d'.reorder.size + taken.length = d.reorder.size

theorem Drained.of_missing {d : HevcDepacketizer} {cursor : UInt16} (hnext : d.nextSeq = some cursor)
    (hmissing : d.reorder[cursor]? = none) : Drained d d cursor [] where
  next := by simpa using hnext
  rest := by simp
  stop := by simpa using hmissing
  inOrder := by simp
  nal := rfl
  size := rfl

theorem Drained.cons {d d' : HevcDepacketizer} {cursor : UInt16} {packet : Packet}
    {taken : List Packet} (hfirst : d.reorder[cursor]? = some packet)
    (h : Drained { reorder := d.reorder.erase cursor, nextSeq := some (cursor + 1),
                   nal := d.nal.deliver packet } d' (cursor + 1) taken) :
    Drained d d' cursor (packet :: taken) := by
  have hcontains : d.reorder.contains cursor = true := by
    rw [← Std.TreeMap.isSome_getElem?_eq_contains, hfirst]
    rfl
  have hpos : 0 < d.reorder.size := by
    rw [Nat.pos_iff_ne_zero, ne_eq, ← beq_iff_eq, ← Std.TreeMap.isEmpty_eq_size_eq_zero]
    intro hempty
    rw [Std.TreeMap.getElem?_of_isEmpty hempty] at hfirst
    cases hfirst
  constructor
  · rw [h.next, List.length_cons, add_one_add_ofNat]
  · intro k
    rw [h.rest, getElem?_erase, List.length_cons]
    by_cases hk : k = cursor
    · rw [hk, ahead_self, if_pos (Nat.succ_pos _), if_pos rfl, ite_self]
    · have hne : ahead cursor k ≠ 0 := fun hzero => hk (ahead_eq_zero.mp hzero)
      have hmoved : ahead (cursor + UInt16.ofNat 1) k = ahead cursor k - 1 :=
        ahead_moved (Nat.pos_of_ne_zero hne)
      rw [if_neg (Ne.symm hk)]
      show (if ahead (cursor + UInt16.ofNat 1) k < _ then _ else _) = _
      rw [hmoved]
      exact if_congr (by omega) rfl rfl
  · rw [List.length_cons, ← add_one_add_ofNat]
    exact h.stop
  · intro i hi
    cases i with
    | zero => simpa using hfirst
    | succ i =>
      have hi : i < taken.length := by simpa using hi
      have hget := h.inOrder i hi
      rw [getElem?_erase, add_one_add_ofNat] at hget
      split at hget
      · cases hget
      · simpa using hget
  · rw [h.nal, List.foldl_cons]
  · have hsize := h.size
    rw [Std.TreeMap.size_erase, if_pos hcontains] at hsize
    rw [List.length_cons]
    omega

theorem drainLoop_drained {fuel : ℕ} {d : HevcDepacketizer} {cursor : UInt16}
    (hnext : d.nextSeq = some cursor) (hfuel : d.reorder.size ≤ fuel) :
    Drained d (drainLoop fuel d) cursor (drainedLoop fuel d) := by
  induction fuel generalizing d cursor with
  | zero =>
    apply Drained.of_missing hnext
    apply Std.TreeMap.getElem?_of_isEmpty
    rw [Std.TreeMap.isEmpty_eq_size_eq_zero, beq_iff_eq]
    omega
  | succ fuel ih =>
    unfold drainLoop drainedLoop
    rw [hnext]
    dsimp only
    rcases hfirst : d.reorder[cursor]? with _ | packet
    · exact Drained.of_missing hnext hfirst
    · apply Drained.cons hfirst
      apply ih rfl
      have hcontains : d.reorder.contains cursor = true := by
        rw [← Std.TreeMap.isSome_getElem?_eq_contains, hfirst]
        rfl
      rw [Std.TreeMap.size_erase, if_pos hcontains]
      omega

theorem drainInOrder_drained {d : HevcDepacketizer} {cursor : UInt16}
    (hnext : d.nextSeq = some cursor) : Drained d d.drainInOrder cursor d.drained :=
  drainLoop_drained hnext (Nat.le_refl _)

end Drain

end HevcDepacketizer

end XitForge.CoreDevice.Hevc
