import XitForge.CoreDevice.HevcReorder
import XitForge.CoreDevice.HevcUnits

/-!
NAL units on their way through packets. A unit travels alone, in an aggregation packet or
in fragments; a slot is a packet of the stream with what has to be in the fragment buffer
before it and after it. The buffer holds either that or nothing, so what is put together
is whole.
-/
namespace XitForge.CoreDevice.Hevc

open SerialNumber

/-- A NAL unit: the two bytes of its header and what they head. -/
structure Nal where
  header0 : UInt8
  header1 : UInt8
  body : Bytes

def Nal.bytes (nal : Nal) : Bytes := nal.header0 :: nal.header1 :: nal.body

/-- The packets that one or more NAL units travel in. -/
inductive Carrier where
  /-- A packet of its own, which must not look like one of the other two kinds. -/
  | single (nal : Nal) (htype : nalType nal.header0 ≠ 48 ∧ nalType nal.header0 ≠ 49)
  | aggregation (header0 header1 : UInt8) (nals : List Nal) (htype : nalType header0 = 48)
    (hlength : ∀ nal ∈ nals, nal.bytes.length < 2 ^ 16)
  /-- A unit with a header and a body that is cut into two pieces or more. -/
  | fragmented (header0 header1 : UInt8) (first : Bytes) (middles : List Bytes) (last : Bytes)

/-- A NAL unit in an aggregation packet, behind its length. -/
def sized (nal : Nal) : Bytes :=
  UInt8.ofNat (nal.bytes.length / 256) :: UInt8.ofNat nal.bytes.length :: nal.bytes

/-- A fragment: the header of the unit with its type replaced, and the type with the flags
of the first or the last fragment. -/
def fragmentPayload (header0 header1 flags : UInt8) (fragment : Bytes) : Bytes :=
  ((header0 &&& (0x81 : UInt8)) ||| 0x62) :: header1 :: (flags ||| nalType header0) :: fragment

namespace Carrier

def payloads : Carrier → List Bytes
  | single nal _ => [nal.bytes]
  | aggregation header0 header1 nals _ _ => [header0 :: header1 :: nals.flatMap sized]
  | fragmented header0 header1 first middles last =>
    fragmentPayload header0 header1 0x80 first ::
      (middles.map (fragmentPayload header0 header1 0) ++
        [fragmentPayload header0 header1 0x40 last])

/-- The NAL units that travel. -/
def nals : Carrier → List Bytes
  | single nal _ => [nal.bytes]
  | aggregation _ _ nals _ _ => nals.map Nal.bytes
  | fragmented header0 header1 first middles last =>
    [header0 :: header1 :: (first ++ (middles.flatten ++ last))]

end Carrier

/-- The packets of NAL units that are sent one after the other. -/
structure Stream where
  carriers : List Carrier
  packets : List Packet
  payloads : packets.map Prod.snd = carriers.flatMap Carrier.payloads

/-- The NAL units of a stream. -/
def Stream.nals (stream : Stream) : List Bytes := stream.carriers.flatMap Carrier.nals

/-- A packet of a stream. `before` and `after` are what the fragments up to it make. -/
structure Slot where
  payload : Bytes
  before : Option Bytes
  completes : List Bytes
  after : Option Bytes

/-- The slots behind the first fragment of a NAL unit. -/
def fragmentSlots (header0 header1 : UInt8) (buffer : Bytes) (last : Bytes) : List Bytes → List Slot
  | [] => [⟨fragmentPayload header0 header1 0x40 last, some buffer, [buffer ++ last], none⟩]
  | middle :: rest =>
    ⟨fragmentPayload header0 header1 0 middle, some buffer, [], some (buffer ++ middle)⟩ ::
      fragmentSlots header0 header1 (buffer ++ middle) last rest

def Carrier.slots : Carrier → List Slot
  | single nal _ => [⟨nal.bytes, none, [nal.bytes], none⟩]
  | aggregation header0 header1 nals _ _ =>
    [⟨header0 :: header1 :: nals.flatMap sized, none, nals.map Nal.bytes, none⟩]
  | fragmented header0 header1 first middles last =>
    ⟨fragmentPayload header0 header1 0x80 first, none, [], some (header0 :: header1 :: first)⟩ ::
      fragmentSlots header0 header1 (header0 :: header1 :: first) last middles

def Stream.slots (stream : Stream) : List Slot := stream.carriers.flatMap Carrier.slots

section Slots

variable {header0 header1 : UInt8} {buffer last : Bytes} {middles : List Bytes}

theorem fragmentSlots_payloads :
    (fragmentSlots header0 header1 buffer last middles).map Slot.payload =
      middles.map (fragmentPayload header0 header1 0) ++
        [fragmentPayload header0 header1 0x40 last] := by
  induction middles generalizing buffer with
  | nil => rfl
  | cons middle middles ih => rw [fragmentSlots, List.map_cons, ih, List.map_cons, List.cons_append]

theorem fragmentSlots_completes :
    (fragmentSlots header0 header1 buffer last middles).flatMap Slot.completes =
      [buffer ++ (middles.flatten ++ last)] := by
  induction middles generalizing buffer with
  | nil => simp [fragmentSlots]
  | cons middle middles ih => simp [fragmentSlots, ih]

theorem Carrier.slots_payloads (carrier : Carrier) :
    carrier.slots.map Slot.payload = carrier.payloads := by
  cases carrier with
  | single nal htype => rfl
  | aggregation header0 header1 nals htype hlength => rfl
  | fragmented header0 header1 first middles last =>
    rw [Carrier.slots, List.map_cons, fragmentSlots_payloads]
    rfl

theorem Carrier.slots_completes (carrier : Carrier) :
    carrier.slots.flatMap Slot.completes = carrier.nals := by
  cases carrier with
  | single nal htype => rfl
  | aggregation header0 header1 nals htype hlength => simp [Carrier.slots, Carrier.nals]
  | fragmented header0 header1 first middles last =>
    rw [Carrier.slots, List.flatMap_cons, fragmentSlots_completes]
    rfl

theorem Stream.slots_payloads (stream : Stream) :
    stream.slots.map Slot.payload = stream.packets.map Prod.snd := by
  rw [stream.payloads, Stream.slots, List.map_flatMap]
  simp only [Carrier.slots_payloads]

theorem Stream.slots_completes (stream : Stream) :
    stream.slots.flatMap Slot.completes = stream.nals := by
  rw [Stream.slots, List.flatMap_assoc, Stream.nals]
  simp only [Carrier.slots_completes]

/-- Slots in a row: what one leaves in the buffer is there before the next one. -/
def Linked : Option Bytes → List Slot → Option Bytes → Prop
  | start, [], finish => start = finish
  | start, slot :: rest, finish => slot.before = start ∧ Linked slot.after rest finish

theorem Linked.append {start middle finish : Option Bytes} {slots slots' : List Slot}
    (h : Linked start slots middle) (h' : Linked middle slots' finish) :
    Linked start (slots ++ slots') finish := by
  induction slots generalizing start with
  | nil =>
    obtain rfl : start = middle := h
    exact h'
  | cons slot slots ih => exact ⟨h.1, ih h.2⟩

theorem Linked.drop {start finish : Option Bytes} {slots : List Slot}
    (h : Linked start slots finish) (n : ℕ) : ∃ middle, Linked middle (slots.drop n) finish := by
  induction n generalizing start slots with
  | zero => exact ⟨start, h⟩
  | succ n ih =>
    cases slots with
    | nil => exact ⟨start, h⟩
    | cons slot slots => exact ih h.2

theorem linked_fragmentSlots :
    Linked (some buffer) (fragmentSlots header0 header1 buffer last middles) none := by
  induction middles generalizing buffer with
  | nil => exact ⟨rfl, rfl⟩
  | cons middle middles ih => exact ⟨rfl, ih⟩

theorem Carrier.linked (carrier : Carrier) : Linked none carrier.slots none := by
  cases carrier with
  | single nal htype => exact ⟨rfl, rfl⟩
  | aggregation header0 header1 nals htype hlength => exact ⟨rfl, rfl⟩
  | fragmented header0 header1 first middles last => exact ⟨rfl, linked_fragmentSlots⟩

theorem Stream.linked (stream : Stream) : Linked none stream.slots none := by
  unfold Stream.slots
  induction stream.carriers with
  | nil => rfl
  | cons carrier carriers ih =>
    rw [List.flatMap_cons]
    exact carrier.linked.append ih

end Slots

section Sound

open NalAssembler

/-- A fragment buffer in use holds what the fragments so far make. -/
def Matches (s : NalAssembler) (inFlight : Option Bytes) : Prop :=
  s.fuActive = true → inFlight = some s.fuBuffer

/-- The fragment buffer is in use exactly if fragments came, and holds what they make. -/
def Whole (s : NalAssembler) (inFlight : Option Bytes) : Prop :=
  s.fuActive = inFlight.isSome ∧ Matches s inFlight

/-- What a slot completes is put together whole or not at all, and whole if nothing is
missing. -/
structure Slot.Sound (slot : Slot) : Prop where
  matched : ∀ s, Matches s slot.before →
    (s.completed slot.payload = slot.completes ∨ s.completed slot.payload = []) ∧
      Matches (s.afterFragment slot.payload) slot.after
  whole : ∀ s, Whole s slot.before →
    s.completed slot.payload = slot.completes ∧ Whole (s.afterFragment slot.payload) slot.after
  typed : ∀ nal ∈ slot.completes, (typeOf nal).isSome = true

theorem forall_byte {P : UInt8 → Prop} (h : ∀ i : Fin 256, P (UInt8.ofNat i)) (byte : UInt8) :
    P byte := by
  have hbyte := h ⟨byte.toNat, byte.toNat_lt⟩
  simpa using hbyte

/-- The header of a unit is restored from the header of its first fragment. -/
theorem restored_header (header0 : UInt8) :
    ((((header0 &&& (0x81 : UInt8)) ||| 0x62) &&& (0x81 : UInt8)) |||
      (((0x80 ||| nalType header0) &&& (0x3f : UInt8)) <<< (1 : UInt8))) = header0 := by
  revert header0
  apply forall_byte
  decide +kernel

theorem nalType_fragment (header0 : UInt8) :
    nalType ((header0 &&& (0x81 : UInt8)) ||| 0x62) = 49 := by
  revert header0
  apply forall_byte
  decide +kernel

/-- The flags of the first, a middle and the last fragment. -/
theorem fragment_flags (header0 : UInt8) :
    (startsUnit (0x80 ||| nalType header0) = true ∧ endsUnit (0x80 ||| nalType header0) = false) ∧
    (startsUnit (0 ||| nalType header0) = false ∧ endsUnit (0 ||| nalType header0) = false) ∧
    startsUnit (0x40 ||| nalType header0) = false ∧ endsUnit (0x40 ||| nalType header0) = true := by
  revert header0
  apply forall_byte
  decide +kernel

variable {s : NalAssembler} {header0 header1 : UInt8} {buffer fragment : Bytes}

theorem completed_fragment (flags : UInt8) :
    s.completed (fragmentPayload header0 header1 flags fragment) =
      if (startsUnit (flags ||| nalType header0) || s.fuActive) &&
          endsUnit (flags ||| nalType header0) then
        [s.gathered ((header0 &&& (0x81 : UInt8)) ||| 0x62) header1 (flags ||| nalType header0)
          fragment]
      else [] := by
  have hneither : nalType ((header0 &&& (0x81 : UInt8)) ||| 0x62) ≠ 48 := by
    rw [nalType_fragment]
    decide
  unfold completed fragmentPayload
  dsimp only
  rw [if_neg hneither, if_pos (nalType_fragment header0)]

theorem afterFragment_fragment (flags : UInt8) :
    s.afterFragment (fragmentPayload header0 header1 flags fragment) =
      if startsUnit (flags ||| nalType header0) || s.fuActive then
        if endsUnit (flags ||| nalType header0) then s.withFu [] false
        else s.withFu (s.gathered ((header0 &&& (0x81 : UInt8)) ||| 0x62) header1
          (flags ||| nalType header0) fragment) true
      else s := by
  unfold afterFragment fragmentPayload
  dsimp only
  rw [if_pos (nalType_fragment header0)]

theorem sound_first : Slot.Sound ⟨fragmentPayload header0 header1 0x80 fragment, none, [],
    some (header0 :: header1 :: fragment)⟩ := by
  obtain ⟨⟨hstarts, hends⟩, -, -⟩ := fragment_flags header0
  have hgathered (s : NalAssembler) : s.gathered ((header0 &&& (0x81 : UInt8)) ||| 0x62) header1
      (0x80 ||| nalType header0) fragment = header0 :: header1 :: fragment := by
    rw [gathered, if_pos hstarts, restored_header]
  have hcompleted (s : NalAssembler) :
      s.completed (fragmentPayload header0 header1 0x80 fragment) = [] := by
    rw [completed_fragment, hends, Bool.and_false, if_neg Bool.false_ne_true]
  have hafter (s : NalAssembler) :
      s.afterFragment (fragmentPayload header0 header1 0x80 fragment) =
        s.withFu (header0 :: header1 :: fragment) true := by
    rw [afterFragment_fragment, hstarts, hends, hgathered]
    rfl
  constructor
  · intro s _
    refine ⟨Or.inr (hcompleted s), ?_⟩
    rw [hafter]
    exact fun _ => rfl
  · intro s _
    refine ⟨hcompleted s, ?_⟩
    rw [hafter]
    exact ⟨rfl, fun _ => rfl⟩
  · simp

theorem sound_middle : Slot.Sound ⟨fragmentPayload header0 header1 0 fragment, some buffer, [],
    some (buffer ++ fragment)⟩ := by
  obtain ⟨-, ⟨hstarts, hends⟩, -⟩ := fragment_flags header0
  have hcompleted (s : NalAssembler) :
      s.completed (fragmentPayload header0 header1 0 fragment) = [] := by
    rw [completed_fragment, hends, Bool.and_false, if_neg Bool.false_ne_true]
  have hafter (s : NalAssembler) : s.afterFragment (fragmentPayload header0 header1 0 fragment) =
      if s.fuActive then s.withFu (s.fuBuffer ++ fragment) true else s := by
    rw [afterFragment_fragment, hstarts, hends, gathered, hstarts]
    rfl
  have hmatched (s : NalAssembler) (h : Matches s (some buffer)) :
      Matches (s.afterFragment (fragmentPayload header0 header1 0 fragment))
        (some (buffer ++ fragment)) := by
    rw [hafter]
    split_ifs with hactive
    · rw [Option.some.inj (h hactive)]
      exact fun _ => rfl
    · exact fun hother => absurd hother hactive
  constructor
  · intro s h
    exact ⟨Or.inr (hcompleted s), hmatched s h⟩
  · intro s hgiven
    obtain ⟨hwhole, h⟩ := hgiven
    have hactive : s.fuActive = true := hwhole
    refine ⟨hcompleted s, ?_, hmatched s h⟩
    rw [hafter, if_pos hactive]
    rfl
  · simp

theorem typeOf_append (h : (typeOf buffer).isSome = true) (fragment : Bytes) :
    (typeOf (buffer ++ fragment)).isSome = true := by
  match buffer with
  | _ :: _ :: _ => rfl
  | [] | [_] => cases h

theorem sound_last (hbuffer : (typeOf buffer).isSome = true) :
    Slot.Sound ⟨fragmentPayload header0 header1 0x40 fragment, some buffer, [buffer ++ fragment],
      none⟩ := by
  obtain ⟨-, -, hstarts, hends⟩ := fragment_flags header0
  have hcompleted (s : NalAssembler) :
      s.completed (fragmentPayload header0 header1 0x40 fragment) =
        if s.fuActive then [s.fuBuffer ++ fragment] else [] := by
    rw [completed_fragment, hstarts, hends, gathered, hstarts]
    cases s.fuActive <;> rfl
  have hafter (s : NalAssembler) :
      s.afterFragment (fragmentPayload header0 header1 0x40 fragment) =
        if s.fuActive then s.withFu [] false else s := by
    rw [afterFragment_fragment, hstarts, hends]
    rfl
  have hinactive (s : NalAssembler) :
      (s.afterFragment (fragmentPayload header0 header1 0x40 fragment)).fuActive = false := by
    rw [hafter]
    split_ifs with hactive
    · rfl
    · exact Bool.eq_false_iff.mpr hactive
  have hmatched (s : NalAssembler) :
      Matches (s.afterFragment (fragmentPayload header0 header1 0x40 fragment)) none := by
    intro hactive
    rw [hinactive] at hactive
    cases hactive
  constructor
  · intro s h
    refine ⟨?_, hmatched s⟩
    dsimp only
    rw [hcompleted]
    split_ifs with hactive
    · left
      rw [Option.some.inj (h hactive)]
    · exact Or.inr rfl
  · intro s hgiven
    obtain ⟨hwhole, h⟩ := hgiven
    have hactive : s.fuActive = true := hwhole
    refine ⟨?_, hinactive s, hmatched s⟩
    dsimp only
    rw [hcompleted, if_pos hactive, Option.some.inj (h hactive)]
  · simpa using typeOf_append hbuffer fragment

theorem sound_fragmentSlots {last : Bytes} {middles : List Bytes}
    (hbuffer : (typeOf buffer).isSome = true) :
    ∀ slot ∈ fragmentSlots header0 header1 buffer last middles, slot.Sound := by
  induction middles generalizing buffer with
  | nil =>
    intro slot hslot
    rw [List.mem_singleton.mp hslot]
    exact sound_last hbuffer
  | cons middle middles ih =>
    intro slot hslot
    rcases List.mem_cons.mp hslot with rfl | hrest
    · exact sound_middle
    · exact ih (typeOf_append hbuffer middle) slot hrest

/-- A packet whose payload puts an end to fragments on their way. -/
theorem sound_reset {payload : Bytes} {completes : List Bytes}
    (hcompleted : ∀ s : NalAssembler, s.completed payload = completes)
    (hafter : ∀ s : NalAssembler, s.afterFragment payload = s.resetFu)
    (htyped : ∀ nal ∈ completes, (typeOf nal).isSome = true) :
    Slot.Sound ⟨payload, none, completes, none⟩ := by
  constructor
  · intro s _
    refine ⟨Or.inl (hcompleted s), ?_⟩
    dsimp only
    rw [hafter]
    exact fun hactive => Bool.noConfusion hactive
  · intro s _
    refine ⟨hcompleted s, ?_⟩
    dsimp only
    rw [hafter]
    exact ⟨rfl, fun hactive => Bool.noConfusion hactive⟩
  · exact htyped

theorem aggregatedUnits_sized {nals : List Nal} (hlength : ∀ nal ∈ nals, nal.bytes.length < 2 ^ 16)
    {fuel : ℕ} (hfuel : nals.length ≤ fuel) :
    aggregatedUnits fuel (nals.flatMap sized) = nals.map Nal.bytes := by
  induction nals generalizing fuel with
  | nil =>
    cases fuel <;> rfl
  | cons nal nals ih =>
    obtain ⟨fuel, rfl⟩ : ∃ more, fuel = more + 1 := ⟨fuel - 1, by simp at hfuel; omega⟩
    obtain ⟨hnal, hrest⟩ := List.forall_mem_cons.mp hlength
    have hsize : (UInt8.ofNat (nal.bytes.length / 256)).toNat * 256 +
        (UInt8.ofNat nal.bytes.length).toNat = nal.bytes.length := by
      rw [UInt8.toNat_ofNat', UInt8.toNat_ofNat']
      omega
    rw [List.flatMap_cons, sized, List.cons_append, List.cons_append, aggregatedUnits]
    rw [hsize, if_pos (by simp), List.take_left, List.drop_left,
      ih hrest (by simpa using hfuel), List.map_cons]

theorem length_le_sized (nals : List Nal) : nals.length ≤ (nals.flatMap sized).length := by
  induction nals with
  | nil => exact Nat.le_refl _
  | cons nal nals ih =>
    rw [List.flatMap_cons, List.length_append, List.length_cons, sized, List.length_cons]
    omega

theorem sound_single (nal : Nal) (htype : nalType nal.header0 ≠ 48 ∧ nalType nal.header0 ≠ 49) :
    Slot.Sound ⟨nal.bytes, none, [nal.bytes], none⟩ := by
  apply sound_reset
  · intro s
    unfold completed Nal.bytes
    dsimp only
    rw [if_neg htype.1, if_neg htype.2]
  · intro s
    unfold afterFragment Nal.bytes
    dsimp only
    rw [if_neg htype.2]
  · simp [Nal.bytes, typeOf]

theorem sound_aggregation {nals : List Nal} (htype : nalType header0 = 48)
    (hlength : ∀ nal ∈ nals, nal.bytes.length < 2 ^ 16) :
    Slot.Sound ⟨header0 :: header1 :: nals.flatMap sized, none, nals.map Nal.bytes, none⟩ := by
  have hother : nalType header0 ≠ 49 := by
    rw [htype]
    decide
  apply sound_reset
  · intro s
    have hle := length_le_sized nals
    unfold completed
    dsimp only
    rw [if_pos htype]
    apply aggregatedUnits_sized hlength
    simp only [List.length_cons]
    omega
  · intro s
    unfold afterFragment
    dsimp only
    rw [if_neg hother]
  · simp [Nal.bytes, typeOf]

theorem Carrier.sound (carrier : Carrier) : ∀ slot ∈ carrier.slots, slot.Sound := by
  intro slot hslot
  cases carrier with
  | single nal htype =>
    rw [List.mem_singleton.mp hslot]
    exact sound_single nal htype
  | aggregation header0 header1 nals htype hlength =>
    rw [List.mem_singleton.mp hslot]
    exact sound_aggregation htype hlength
  | fragmented header0 header1 first middles last =>
    rcases List.mem_cons.mp hslot with rfl | hrest
    · exact sound_first
    · exact sound_fragmentSlots rfl slot hrest

theorem Stream.sound (stream : Stream) : ∀ slot ∈ stream.slots, slot.Sound := by
  intro slot hslot
  obtain ⟨carrier, -, hcarrier⟩ := List.mem_flatMap.mp hslot
  exact carrier.sound slot hcarrier

end Sound

section Deliver

open NalAssembler

variable {s : NalAssembler} {packet : Packet} {slot : Slot} {packets : List Packet}

/-- Two assemblers that differ in what is not of fragments. -/
structure SameFu (s s' : NalAssembler) : Prop where
  buffer : s'.fuBuffer = s.fuBuffer
  active : s'.fuActive = s.fuActive

theorem SameFu.matches_iff {s' : NalAssembler} (h : SameFu s s') (inFlight : Option Bytes) :
    Matches s' inFlight ↔ Matches s inFlight := by
  unfold Matches
  rw [h.buffer, h.active]

theorem SameFu.whole_iff {s' : NalAssembler} (h : SameFu s s') (inFlight : Option Bytes) :
    Whole s' inFlight ↔ Whole s inFlight := by
  unfold Whole
  rw [h.matches_iff, h.active]

theorem sameFu_opened (s : NalAssembler) (packet : Packet) : SameFu s (s.opened packet) := by
  unfold opened
  split_ifs
  · exact ⟨rfl, rfl⟩
  · exact ⟨rfl, rfl⟩

theorem sameFu_emitAll (s : NalAssembler) (nals : List Bytes) : SameFu s (s.emitAll nals) := by
  have hsame : s.emitAll nals = (s.emitAll nals).withFu s.fuBuffer s.fuActive :=
    emitAll_withFu s s.fuBuffer s.fuActive nals
  constructor
  · rw [hsame]
    rfl
  · rw [hsame]
    rfl

theorem completed_opened (s : NalAssembler) (packet : Packet) (payload : Bytes) :
    (s.opened packet).completed payload = s.completed payload := by
  unfold opened
  split_ifs <;> rfl

/-- A packet whose turn it is, in its slot. -/
theorem Slot.Sound.deliver_matches (hsound : slot.Sound) (hpayload : packet.2 = slot.payload)
    (h : Matches s slot.before) :
    (units (s.deliverItems packet) = slot.completes ∨ units (s.deliverItems packet) = []) ∧
      Matches (s.deliver packet) slot.after := by
  have hopened := (sameFu_opened s packet).matches_iff slot.before
  obtain ⟨hcompleted, hafter⟩ := hsound.matched _ (hopened.mpr h)
  rw [completed_opened] at hcompleted
  constructor
  · rw [units_deliverItems, hpayload]
    rcases hcompleted with heq | heq
    · left
      rw [heq, List.filter_eq_self]
      exact hsound.typed
    · right
      rw [heq, List.filter_nil]
  · rw [deliver_eq, hpayload, (sameFu_emitAll _ _).matches_iff]
    exact hafter

theorem Slot.Sound.deliver_whole (hsound : slot.Sound) (hpayload : packet.2 = slot.payload)
    (h : Whole s slot.before) :
    units (s.deliverItems packet) = slot.completes ∧ Whole (s.deliver packet) slot.after := by
  have hopened := (sameFu_opened s packet).whole_iff slot.before
  obtain ⟨hcompleted, hafter⟩ := hsound.whole _ (hopened.mpr h)
  rw [completed_opened] at hcompleted
  constructor
  · rw [units_deliverItems, hpayload, hcompleted, List.filter_eq_self]
    exact hsound.typed
  · rw [deliver_eq, hpayload, (sameFu_emitAll _ _).whole_iff]
    exact hafter

/-- Packets one after the other, in their slots. -/
theorem deliverAll_matches {now later : List Slot} {start : Option Bytes}
    (hsound : ∀ slot ∈ now, slot.Sound) (hpayloads : packets.map Prod.snd = now.map Slot.payload)
    (hlinked : Linked start (now ++ later) none) (h : Matches s start) :
    (units (s.deliverAllItems packets)).Sublist (now.flatMap Slot.completes) ∧
      ∃ finish, Linked finish later none ∧ Matches (s.deliverAll packets) finish := by
  induction now generalizing s start packets with
  | nil =>
    obtain rfl : packets = [] := by simpa using hpayloads
    exact ⟨List.Sublist.refl _, start, hlinked, h⟩
  | cons slot now ih =>
    cases packets with
    | nil => simp at hpayloads
    | cons packet packets =>
      rw [List.map_cons, List.map_cons, List.cons.injEq] at hpayloads
      obtain ⟨hslot, hnow⟩ := List.forall_mem_cons.mp hsound
      obtain ⟨hbefore, hrest⟩ := hlinked
      obtain ⟨hunits, hafter⟩ := hslot.deliver_matches hpayloads.1 (hbefore ▸ h)
      obtain ⟨hsublist, hfinish⟩ := ih hnow hpayloads.2 hrest hafter
      refine ⟨?_, hfinish⟩
      rw [deliverAllItems, units_append, List.flatMap_cons]
      apply List.Sublist.append ?_ hsublist
      rcases hunits with heq | heq
      · rw [heq]
      · rw [heq]
        exact List.nil_sublist _

theorem deliverAll_whole {slots : List Slot} {start finish : Option Bytes}
    (hsound : ∀ slot ∈ slots, slot.Sound)
    (hpayloads : packets.map Prod.snd = slots.map Slot.payload)
    (hlinked : Linked start slots finish) (h : Whole s start) :
    units (s.deliverAllItems packets) = slots.flatMap Slot.completes := by
  induction slots generalizing s start packets with
  | nil =>
    obtain rfl : packets = [] := by simpa using hpayloads
    rfl
  | cons slot slots ih =>
    cases packets with
    | nil => simp at hpayloads
    | cons packet packets =>
      rw [List.map_cons, List.map_cons, List.cons.injEq] at hpayloads
      obtain ⟨hslot, hrest⟩ := List.forall_mem_cons.mp hsound
      obtain ⟨hbefore, hlinked⟩ := hlinked
      obtain ⟨hunits, hafter⟩ := hslot.deliver_whole hpayloads.1 (hbefore ▸ h)
      rw [deliverAllItems, units_append, List.flatMap_cons, hunits,
        ih hrest hpayloads.2 hlinked hafter]

end Deliver

end XitForge.CoreDevice.Hevc
