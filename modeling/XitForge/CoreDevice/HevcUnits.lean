import XitForge.CoreDevice.HevcParams

/-!
What the depacketizer writes: delimiters between pictures, parameter sets that it writes
again, and the NAL units that it puts together of the payloads. Every output byte belongs
to one of these items, and taking a packet, draining the map and giving up a gap each
append theirs.
-/
namespace XitForge.CoreDevice.Hevc

/-- What stands behind a start code of the output. -/
inductive Item where
  | delimiter
  /-- A parameter set that `emit_nal` writes again. -/
  | injected (set : Bytes)
  /-- A NAL unit that was put together. -/
  | unit (nal : Bytes)
  deriving DecidableEq, Repr

namespace Item

def bytes : Item → Bytes
  | delimiter => audNal
  | injected set => set
  | unit nal => nal

def unit? : Item → Option Bytes
  | unit nal => some nal
  | _ => none

end Item

/-- The output that items are. -/
def annexb (items : List Item) : Bytes := items.flatMap fun item => annexbStartCode ++ item.bytes

/-- The NAL units among the items. -/
def units (items : List Item) : List Bytes := items.filterMap Item.unit?

theorem annexb_append (items items' : List Item) :
    annexb (items ++ items') = annexb items ++ annexb items' := List.flatMap_append

theorem units_append (items items' : List Item) :
    units (items ++ items') = units items ++ units items' := List.filterMap_append

/-- The NAL units of an aggregation packet behind its header. -/
def aggregatedUnits : ℕ → Bytes → List Bytes
  | fuel + 1, high :: low :: rest =>
    let size := high.toNat * 256 + low.toNat
    if size ≤ rest.length then rest.take size :: aggregatedUnits fuel (rest.drop size) else []
  | _, _ => []

namespace NalAssembler

/-- The fragment buffer of an assembler replaced. -/
def withFu (s : NalAssembler) (buffer : Bytes) (active : Bool) : NalAssembler :=
  { s with fuBuffer := buffer, fuActive := active }

/-- The first or the last fragment of a NAL unit. -/
def startsUnit (fuHeader : UInt8) : Bool := fuHeader &&& (0x80 : UInt8) != 0

def endsUnit (fuHeader : UInt8) : Bool := fuHeader &&& (0x40 : UInt8) != 0

/-- What is gathered with a fragment. -/
def gathered (s : NalAssembler) (byte0 byte1 fuHeader : UInt8) (fragment : Bytes) : Bytes :=
  if startsUnit fuHeader then
    ((byte0 &&& (0x81 : UInt8)) ||| ((fuHeader &&& (0x3f : UInt8)) <<< (1 : UInt8))) ::
      byte1 :: fragment
  else s.fuBuffer ++ fragment

/-- The NAL units that a payload completes. -/
def completed (s : NalAssembler) (payload : Bytes) : List Bytes :=
  match payload with
  | byte0 :: byte1 :: rest =>
    if nalType byte0 = 48 then aggregatedUnits payload.length rest
    else if nalType byte0 = 49 then
      match rest with
      | fuHeader :: fragment =>
        if (startsUnit fuHeader || s.fuActive) && endsUnit fuHeader then
          [s.gathered byte0 byte1 fuHeader fragment]
        else []
      | [] => []
    else [payload]
  | _ => []

/-- The assembler after a payload, but for the NAL units that it completes. -/
def afterFragment (s : NalAssembler) (payload : Bytes) : NalAssembler :=
  match payload with
  | byte0 :: byte1 :: rest =>
    if nalType byte0 = 49 then
      match rest with
      | fuHeader :: fragment =>
        if startsUnit fuHeader || s.fuActive then
          if endsUnit fuHeader then s.withFu [] false
          else s.withFu (s.gathered byte0 byte1 fuHeader fragment) true
        else s
      | [] => s
    else s.resetFu
  | _ => s

/-- The items of NAL units that are given to `emit_nal`. -/
def emitItems (s : NalAssembler) : List Bytes → List Item
  | [] => []
  | nal :: rest =>
    (if (typeOf nal).isSome then (s.injected nal).map .injected ++ [.unit nal] else []) ++
      (s.emitNal nal).emitItems rest

/-- The assembler with a packet whose turn it is, before its payload. -/
def opened (s : NalAssembler) (packet : Packet) : NalAssembler :=
  { if s.lastTs.any (· != packet.1) then s.writeAnnexb audNal else s with lastTs := some packet.1 }

def deliverItems (s : NalAssembler) (packet : Packet) : List Item :=
  (if s.lastTs.any (· != packet.1) then [.delimiter] else []) ++
    (s.opened packet).emitItems (s.completed packet.2)

def deliverAll (s : NalAssembler) (packets : List Packet) : NalAssembler :=
  packets.foldl deliver s

def deliverAllItems (s : NalAssembler) : List Packet → List Item
  | [] => []
  | packet :: rest => s.deliverItems packet ++ (s.deliver packet).deliverAllItems rest

section Emit

variable (s : NalAssembler) (buffer : Bytes) (active : Bool) (nal : Bytes) (nals : List Bytes)

theorem keepParams_withFu (t : UInt8) :
    (s.withFu buffer active).keepParams nal t = (s.keepParams nal t).withFu buffer active := by
  unfold keepParams
  split_ifs <;> rfl

theorem injectParams_withFu (t : UInt8) :
    (s.withFu buffer active).injectParams t = (s.injectParams t).withFu buffer active := by
  unfold injectParams
  simp only [foldl_writeAnnexb]
  show (if isIrap t && !s.paramsEmittedSinceIrap then _ else _) = _
  split_ifs <;> rfl

theorem rearm_withFu (t : UInt8) :
    (s.withFu buffer active).rearm t = (s.rearm t).withFu buffer active := by
  unfold rearm
  split_ifs <;> rfl

/-- `emit_nal` does not touch the fragment buffer. -/
theorem emitNal_withFu :
    (s.withFu buffer active).emitNal nal = (s.emitNal nal).withFu buffer active := by
  cases h : typeOf nal with
  | none => rw [emitNal_short _ h, emitNal_short _ h]
  | some t =>
    rw [emitNal_typed _ h, emitNal_typed _ h, keepParams_withFu, injectParams_withFu, rearm_withFu]
    rfl

theorem emitAll_withFu :
    (s.withFu buffer active).emitAll nals = (s.emitAll nals).withFu buffer active := by
  induction nals generalizing s with
  | nil => rfl
  | cons nal nals ih => rw [emitAll_cons, emitNal_withFu, ih, emitAll_cons]

theorem emitItems_withFu : (s.withFu buffer active).emitItems nals = s.emitItems nals := by
  induction nals generalizing s with
  | nil => rfl
  | cons nal nals ih =>
    rw [emitItems, emitNal_withFu, ih, emitItems]
    rfl

theorem out_emitItems : (s.emitAll nals).out = s.out ++ annexb (s.emitItems nals) := by
  rw [out_emitAll]
  congr 1
  induction nals generalizing s with
  | nil => rfl
  | cons nal nals ih =>
    rw [writes, emitItems, annexb_append, List.flatMap_append, ih, written]
    congr 1
    split_ifs
    · simp [annexb, Item.bytes, List.flatMap_map]
    · rfl

theorem units_emitItems :
    units (s.emitItems nals) = nals.filter fun nal => (typeOf nal).isSome := by
  induction nals generalizing s with
  | nil => rfl
  | cons nal nals ih =>
    have hinjected : units ((s.injected nal).map .injected) = [] := by
      simp [units, List.filterMap_map, Function.comp_def, Item.unit?]
    rw [emitItems, units_append, ih, List.filter_cons]
    split_ifs
    · rw [units_append, hinjected]
      rfl
    · rfl

theorem aggregated_eq (fuel : ℕ) (bytes : Bytes) :
    s.aggregated fuel bytes = s.emitAll (aggregatedUnits fuel bytes) := by
  induction fuel generalizing s bytes with
  | zero => rfl
  | succ fuel ih =>
    match bytes with
    | high :: low :: rest =>
      unfold aggregated aggregatedUnits
      dsimp only
      split_ifs
      · rw [ih, emitAll_cons]
      · rfl
    | [] | [_] => rfl

/-- A fragment that is gathered, or passed over where its start is missing. -/
theorem processFragmentation_eq (byte0 byte1 fuHeader : UInt8) (fragment : Bytes) :
    s.processFragmentation (byte0 :: byte1 :: fuHeader :: fragment) =
      if startsUnit fuHeader || s.fuActive then
        if endsUnit fuHeader then
          (s.withFu [] false).emitNal (s.gathered byte0 byte1 fuHeader fragment)
        else s.withFu (s.gathered byte0 byte1 fuHeader fragment) true
      else s := by
  unfold processFragmentation gathered startsUnit endsUnit
  dsimp only
  obtain ⟨_, _, active, _, _, _, _, _⟩ := s
  cases hstart : fuHeader &&& (0x80 : UInt8) != 0 <;>
    cases hend : fuHeader &&& (0x40 : UInt8) != 0 <;> cases active <;> simp [withFu]

theorem processPayload_eq (payload : Bytes) :
    s.processPayload payload = (s.afterFragment payload).emitAll (s.completed payload) := by
  match payload with
  | [] | [_] => rfl
  | byte0 :: byte1 :: rest =>
    unfold processPayload afterFragment completed
    dsimp only
    by_cases haggregation : nalType byte0 = 48
    · have hfragment : nalType byte0 ≠ 49 := by
        rw [haggregation]
        decide
      rw [if_pos haggregation, if_neg hfragment, if_pos haggregation, processAggregation,
        aggregated_eq]
      rfl
    · rw [if_neg haggregation, if_neg haggregation]
      by_cases hfragment : nalType byte0 = 49
      · rw [if_pos hfragment, if_pos hfragment, if_pos hfragment]
        cases rest with
        | nil => rfl
        | cons fuHeader fragment =>
          rw [processFragmentation_eq]
          cases hgathers : startsUnit fuHeader || s.fuActive <;>
            cases hends : endsUnit fuHeader <;> simp [hgathers, hends]
      · rw [if_neg hfragment, if_neg hfragment, if_neg hfragment]
        rfl

end Emit

section Deliver

variable (s : NalAssembler) (packet : Packet) (packets : List Packet)

theorem deliver_eq : s.deliver packet =
    ((s.opened packet).afterFragment packet.2).emitAll ((s.opened packet).completed packet.2) :=
  processPayload_eq (s.opened packet) packet.2

theorem afterFragment_eq (payload : Bytes) :
    ∃ buffer active, s.afterFragment payload = s.withFu buffer active := by
  unfold afterFragment
  split
  · split_ifs
    · split
      · split_ifs
        · exact ⟨_, _, rfl⟩
        · exact ⟨_, _, rfl⟩
        · exact ⟨_, _, rfl⟩
      · exact ⟨_, _, rfl⟩
    · exact ⟨_, _, rfl⟩
  · exact ⟨_, _, rfl⟩

theorem out_deliver : (s.deliver packet).out = s.out ++ annexb (s.deliverItems packet) := by
  obtain ⟨buffer, active, hafter⟩ := afterFragment_eq (s.opened packet) packet.2
  have hopened : (s.opened packet).out =
      s.out ++ annexb (if s.lastTs.any (· != packet.1) then [.delimiter] else []) := by
    unfold opened
    split_ifs
    · simp [writeAnnexb, annexb, Item.bytes]
    · simp [annexb]
  have hcompleted : (s.opened packet).completed packet.2 = s.completed packet.2 := by
    unfold opened
    split_ifs <;> rfl
  rw [deliver_eq, out_emitItems, hafter, emitItems_withFu, deliverItems, annexb_append,
    ← List.append_assoc, ← hopened, hcompleted]
  rfl

theorem out_deliverAll :
    (s.deliverAll packets).out = s.out ++ annexb (s.deliverAllItems packets) := by
  induction packets generalizing s with
  | nil => simp [deliverAll, deliverAllItems, annexb]
  | cons packet packets ih =>
    have hrest := ih (s.deliver packet)
    rw [out_deliver, List.append_assoc, ← annexb_append] at hrest
    exact hrest

theorem units_deliverItems : units (s.deliverItems packet) =
    (s.completed packet.2).filter fun nal => (typeOf nal).isSome := by
  rw [deliverItems, units_append, units_emitItems]
  split_ifs <;> rfl

end Deliver

end NalAssembler

namespace HevcDepacketizer

/-- The items of the packets that `drain_in_order` takes out. -/
def drainItems (d : HevcDepacketizer) : List Item := d.nal.deliverAllItems d.drained

def skipGapItems (d : HevcDepacketizer) : List Item :=
  if d.reorder.size > maxReorderBuffer then
    match d.reorder.keys.head? with
    | some lowest => (d.skipTo lowest).drainItems
    | none => []
  else []

/-- The items that a call of `push` writes. -/
def pushItems (d : HevcDepacketizer) (seq : UInt16) (packet : Packet) : List Item :=
  let d := d.begun seq
  if d.stale seq then []
  else (d.insert seq packet).drainItems ++ ((d.insert seq packet).drainInOrder).skipGapItems

/-- The items of packets that arrive one after the other. -/
def itemsOf (d : HevcDepacketizer) : List (UInt16 × Packet) → List Item
  | [] => []
  | arrival :: rest =>
    d.pushItems arrival.1 arrival.2 ++ (d.push arrival.1 arrival.2).itemsOf rest

def pushAll (d : HevcDepacketizer) (arrivals : List (UInt16 × Packet)) : HevcDepacketizer :=
  arrivals.foldl (fun d arrival => d.push arrival.1 arrival.2) d

theorem itemsOf_append (d : HevcDepacketizer) (arrivals arrivals' : List (UInt16 × Packet)) :
    d.itemsOf (arrivals ++ arrivals') =
      d.itemsOf arrivals ++ (d.pushAll arrivals).itemsOf arrivals' := by
  induction arrivals generalizing d with
  | nil => rfl
  | cons arrival arrivals ih =>
    rw [List.cons_append, itemsOf, ih, itemsOf, List.append_assoc]
    rfl

theorem out_drainInOrder {d : HevcDepacketizer} {cursor : UInt16}
    (hnext : d.nextSeq = some cursor) :
    d.drainInOrder.nal.out = d.nal.out ++ annexb d.drainItems := by
  rw [(drainInOrder_drained hnext).nal]
  exact NalAssembler.out_deliverAll d.nal d.drained

theorem out_skipGap (d : HevcDepacketizer) :
    d.skipGap.nal.out = d.nal.out ++ annexb d.skipGapItems := by
  unfold skipGap skipGapItems
  split_ifs
  · cases d.reorder.keys.head? with
    | none => simp [annexb]
    | some lowest => exact out_drainInOrder rfl
  · simp [annexb]

theorem out_push (d : HevcDepacketizer) (seq : UInt16) (packet : Packet) :
    (d.push seq packet).nal.out = d.nal.out ++ annexb (d.pushItems seq packet) := by
  unfold push pushItems
  dsimp only
  split_ifs
  · simp [annexb, begun]
  · rw [out_skipGap, annexb_append, ← List.append_assoc,
      out_drainInOrder (rfl : ((d.begun seq).insert seq packet).nextSeq = some _)]
    rfl

/-- The output is the items, whatever arrives. -/
theorem out_pushAll (d : HevcDepacketizer) (arrivals : List (UInt16 × Packet)) :
    (d.pushAll arrivals).nal.out = d.nal.out ++ annexb (d.itemsOf arrivals) := by
  induction arrivals generalizing d with
  | nil => simp [pushAll, itemsOf, annexb]
  | cons arrival arrivals ih =>
    have hrest := ih (d.push arrival.1 arrival.2)
    rw [out_push, List.append_assoc, ← annexb_append] at hrest
    exact hrest

end HevcDepacketizer

end XitForge.CoreDevice.Hevc
