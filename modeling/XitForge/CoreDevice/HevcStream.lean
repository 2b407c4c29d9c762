import Mathlib.Data.Fintype.Basic
import XitForge.CoreDevice.Hevc

/-!
A stream of packets with consecutive sequence numbers that arrive in another order and
more than once. As long as every arrival is within half a period of the first missing
packet and few packets wait behind it, the output is that of the stream in order,
whenever the output is taken.
-/
namespace XitForge.CoreDevice.Hevc

open SerialNumber

section Taken

/-- The output after what was already taken of it. -/
def NalAssembler.withTaken (taken : Bytes) (s : NalAssembler) : NalAssembler :=
  { s with out := taken ++ s.out }

def HevcDepacketizer.withTaken (taken : Bytes) (d : HevcDepacketizer) : HevcDepacketizer :=
  { d with nal := d.nal.withTaken taken }

namespace NalAssembler

variable (taken : Bytes) (s : NalAssembler)

theorem writeAnnexb_withTaken (nal : Bytes) :
    (s.withTaken taken).writeAnnexb nal = (s.writeAnnexb nal).withTaken taken := by
  unfold writeAnnexb withTaken
  simp

theorem resetFu_withTaken : (s.withTaken taken).resetFu = s.resetFu.withTaken taken := rfl

theorem keepParams_withTaken (nal : Bytes) (t : UInt8) :
    (s.withTaken taken).keepParams nal t = (s.keepParams nal t).withTaken taken := by
  unfold keepParams
  split_ifs <;> rfl

theorem writeSets_withTaken (sets : List Bytes) :
    sets.foldl writeAnnexb (s.withTaken taken) = (sets.foldl writeAnnexb s).withTaken taken := by
  induction sets generalizing s with
  | nil => rfl
  | cons nal rest ih => rw [List.foldl_cons, List.foldl_cons, writeAnnexb_withTaken, ih]

theorem injectParams_withTaken (t : UInt8) :
    (s.withTaken taken).injectParams t = (s.injectParams t).withTaken taken := by
  unfold injectParams
  have hsets := writeSets_withTaken taken s (s.vps.toList ++ s.sps.toList ++ s.pps.toList)
  change (if (isIrap t && !s.paramsEmittedSinceIrap) = true then
    { List.foldl writeAnnexb (s.withTaken taken) (s.vps.toList ++ s.sps.toList ++ s.pps.toList) with
      paramsEmittedSinceIrap := true } else _) = _
  rw [hsets]
  split_ifs <;> rfl

theorem rearm_withTaken (t : UInt8) :
    (s.withTaken taken).rearm t = (s.rearm t).withTaken taken := by
  unfold rearm
  split_ifs <;> rfl

theorem emitNal_withTaken (nal : Bytes) :
    (s.withTaken taken).emitNal nal = (s.emitNal nal).withTaken taken := by
  unfold emitNal
  split
  · dsimp only
    rw [keepParams_withTaken, injectParams_withTaken, rearm_withTaken, writeAnnexb_withTaken]
  · rfl

theorem aggregated_withTaken (fuel : ℕ) (bytes : Bytes) :
    (s.withTaken taken).aggregated fuel bytes = (s.aggregated fuel bytes).withTaken taken := by
  induction fuel generalizing s bytes with
  | zero => rfl
  | succ fuel ih =>
    rcases bytes with _ | ⟨high, _ | ⟨low, rest⟩⟩
    · rfl
    · rfl
    · unfold aggregated
      dsimp only
      rw [emitNal_withTaken, ih]
      split_ifs <;> rfl

theorem processFragmentation_withTaken (payload : Bytes) :
    (s.withTaken taken).processFragmentation payload =
      (s.processFragmentation payload).withTaken taken := by
  rcases payload with _ | ⟨byte0, _ | ⟨byte1, _ | ⟨fuHeader, fragment⟩⟩⟩
  · rfl
  · rfl
  · rfl
  · have hactive : (s.withTaken taken).fuActive = s.fuActive := rfl
    have hbuffer : (s.withTaken taken).fuBuffer = s.fuBuffer := rfl
    unfold processFragmentation
    dsimp only
    rw [hactive, hbuffer]
    split_ifs
    · exact emitNal_withTaken taken { s with fuBuffer := [], fuActive := false } _
    · rfl
    · exact emitNal_withTaken taken { s with fuBuffer := [], fuActive := false } _
    · rfl
    · rfl

theorem processPayload_withTaken (payload : Bytes) :
    (s.withTaken taken).processPayload payload = (s.processPayload payload).withTaken taken := by
  unfold processPayload
  split
  · unfold processAggregation
    rw [resetFu_withTaken, aggregated_withTaken, processFragmentation_withTaken, emitNal_withTaken]
    split_ifs <;> rfl
  · rfl

theorem deliver_withTaken (packet : Packet) :
    (s.withTaken taken).deliver packet = (s.deliver packet).withTaken taken := by
  have hlast : (s.withTaken taken).lastTs = s.lastTs := rfl
  unfold deliver
  dsimp only
  rw [hlast, writeAnnexb_withTaken]
  split_ifs
  · exact processPayload_withTaken taken { s.writeAnnexb audNal with lastTs := some packet.1 }
      packet.2
  · exact processPayload_withTaken taken { s with lastTs := some packet.1 } packet.2

end NalAssembler

namespace HevcDepacketizer

variable (taken : Bytes) (d : HevcDepacketizer)

theorem drainLoop_withTaken (fuel : ℕ) :
    drainLoop fuel (d.withTaken taken) = (drainLoop fuel d).withTaken taken := by
  induction fuel generalizing d with
  | zero => rfl
  | succ fuel ih =>
    obtain ⟨reorder, nextSeq, nal⟩ := d
    rcases nextSeq with _ | next
    · rfl
    · unfold drainLoop withTaken
      dsimp only
      rcases reorder[next]? with _ | packet
      · rfl
      · dsimp only
        rw [NalAssembler.deliver_withTaken]
        exact ih ⟨reorder.erase next, some (next + 1), nal.deliver packet⟩

theorem drainInOrder_withTaken :
    (d.withTaken taken).drainInOrder = d.drainInOrder.withTaken taken :=
  drainLoop_withTaken taken d d.reorder.size

theorem skipGap_withTaken : (d.withTaken taken).skipGap = d.skipGap.withTaken taken := by
  have hreorder : (d.withTaken taken).reorder = d.reorder := rfl
  unfold skipGap
  rw [hreorder]
  split_ifs
  · cases d.reorder.keys.head? with
    | none => rfl
    | some lowest => exact drainInOrder_withTaken taken (d.skipTo lowest)
  · rfl

theorem push_withTaken (seq : UInt16) (packet : Packet) :
    (d.withTaken taken).push seq packet = (d.push seq packet).withTaken taken := by
  unfold push
  dsimp only
  change (if (d.begun seq).stale seq = true then (d.begun seq).withTaken taken
    else (((d.begun seq).insert seq packet).withTaken taken).drainInOrder.skipGap) = _
  rw [drainInOrder_withTaken, skipGap_withTaken]
  split_ifs <;> rfl

end HevcDepacketizer

end Taken

/-- A packet of the stream arrives, or the output is taken. -/
inductive Call (length : ℕ)
  | push (index : Fin length)
  | takeOutput
  deriving DecidableEq

/-- A depacketizer and the output that was taken from it. -/
structure Session where
  depacketizer : HevcDepacketizer
  taken : Bytes

namespace Session

def start : Session := ⟨.new, []⟩

/-- The sequence numbers count on from `first`. -/
def call (first : UInt16) (packets : List Packet) (s : Session) : Call packets.length → Session
  | .push index =>
    { s with depacketizer := s.depacketizer.push (first + UInt16.ofNat index) packets[index] }
  | .takeOutput => ⟨s.depacketizer.takeOutput.2, s.taken ++ s.depacketizer.takeOutput.1⟩

def run (first : UInt16) (packets : List Packet) (calls : List (Call packets.length)) : Session :=
  calls.foldl (call first packets) start

/-- All of the output, taken or not. -/
def output (s : Session) : Bytes := s.taken ++ s.depacketizer.nal.out

end Session

/-- The packets that arrive. -/
def pushes {length : ℕ} (calls : List (Call length)) : List (Fin length) :=
  calls.filterMap fun
    | .push index => some index
    | .takeOutput => none

def arrivals {length : ℕ} (calls : List (Call length)) : List ℕ := (pushes calls).map Fin.val

/-- The index of the first packet that has not arrived. -/
def FirstMissing (arrived : List ℕ) (n : ℕ) : Prop := (∀ i < n, i ∈ arrived) ∧ n ∉ arrived

/-- How many packets wait behind the first missing one. -/
def waiting (arrived : List ℕ) (n : ℕ) : ℕ := (arrived.toFinset.filter (n < ·)).card

/-- The first packet arrives first, every packet arrives, and after no arrival too many
packets wait. -/
structure Arriving (length : ℕ) (arrived : List ℕ) : Prop where
  starts : arrived.head? = some 0
  complete : ∀ i < length, i ∈ arrived
  buffered : ∀ before after, arrived = before ++ after →
    ∀ n, FirstMissing before n → waiting before n ≤ maxReorderBuffer

/-- Every packet that arrives is less than half a period behind the first missing one, or
at most half a period ahead of it. -/
def Near (arrived : List ℕ) : Prop :=
  ∀ before index after, arrived = before ++ index :: after →
    ∀ n, FirstMissing before n → n < index + 2 ^ 15 ∧ index ≤ n + 2 ^ 15

/-- The stream in order: every packet once. -/
def inOrder (length : ℕ) : List (Call length) := (List.finRange length).map .push

section Window

variable {first : UInt16} {packets : List Packet} {arrived : List ℕ} {d : HevcDepacketizer}
  {n index : ℕ}

/-- The packets before `n` were delivered, and the other ones that arrived wait. -/
structure Tracks (first : UInt16) (packets : List Packet) (arrived : List ℕ) (n : ℕ)
    (d : HevcDepacketizer) : Prop where
  next : d.nextSeq = some (first + UInt16.ofNat n)
  reorder : ∀ k, d.reorder[k]? = if n + ahead (first + UInt16.ofNat n) k ∈ arrived
    then packets[n + ahead (first + UInt16.ofNat n) k]? else none
  nal : d.nal = (packets.take n).foldl NalAssembler.deliver {}
  near : ∀ i ∈ arrived, i < packets.length ∧ i ≤ n + 2 ^ 15
  before : ∀ i < n, i ∈ arrived

theorem mem_concat_of_mem {i : ℕ} (h : index ∈ arrived) : i ∈ arrived ++ [index] ↔ i ∈ arrived := by
  rw [List.mem_append, List.mem_singleton]
  constructor
  · intro hcase
    rcases hcase with hi | rfl
    · exact hi
    · exact h
  · exact Or.inl

theorem Tracks.begun_eq (h : Tracks first packets arrived n d) (number : UInt16) :
    d.begun number = d := by
  unfold HevcDepacketizer.begun
  rw [h.next, Option.getD_some, ← h.next]

theorem Tracks.stale_eq (h : Tracks first packets arrived n d) (number : UInt16) :
    d.stale number = seqLessThan number (first + UInt16.ofNat n) := by
  unfold HevcDepacketizer.stale
  rw [h.next]
  rfl

theorem Tracks.push_of_stale (h : Tracks first packets arrived n d) {number : UInt16}
    (hstale : seqLessThan number (first + UInt16.ofNat n) = true) (packet : Packet) :
    d.push number packet = d := by
  unfold HevcDepacketizer.push
  dsimp only
  rw [h.begun_eq, h.stale_eq, if_pos hstale]

/-- A packet that was delivered is left out. -/
theorem Tracks.push_before (h : Tracks first packets arrived n d) (hbefore : index < n)
    (hnear : n < index + 2 ^ 15) (packet : Packet) :
    d.push (first + UInt16.ofNat index) packet = d ∧
      Tracks first packets (arrived ++ [index]) n d := by
  have hahead : ahead (first + UInt16.ofNat index) (first + UInt16.ofNat n) = n - index :=
    ahead_add_ofNat (Nat.le_of_lt hbefore) (by omega)
  have hstale : seqLessThan (first + UInt16.ofNat index) (first + UInt16.ofNat n) = true := by
    rw [seqLessThan_iff, hahead]
    omega
  have hmem (i : ℕ) := mem_concat_of_mem (i := i) (h.before index hbefore)
  constructor
  · exact h.push_of_stale hstale packet
  · constructor
    · exact h.next
    · intro k
      rw [h.reorder]
      exact if_congr (hmem _).symm rfl rfl
    · exact h.nal
    · intro i hi
      exact h.near i ((hmem i).mp hi)
    · intro i hi
      exact (hmem i).mpr (h.before i hi)

/-- The map after a packet from `n` on was put into it. -/
theorem Tracks.insert (h : Tracks first packets arrived n d) (hindex : index < packets.length)
    (hfrom : n ≤ index) (hnear : index ≤ n + 2 ^ 15) :
    Tracks first packets (arrived ++ [index]) n
      (d.insert (first + UInt16.ofNat index) packets[index]) := by
  have hahead : ahead (first + UInt16.ofNat n) (first + UInt16.ofNat index) = index - n :=
    ahead_add_ofNat hfrom (by omega)
  constructor
  · exact h.next
  · intro k
    have hget : (d.insert (first + UInt16.ofNat index) packets[index]).reorder[k]? = _ :=
      getElem?_insert (first + UInt16.ofNat index) packets[index]
    rw [hget]
    by_cases hk : first + UInt16.ofNat index = k
    · have hsum : n + ahead (first + UInt16.ofNat n) k = index := by
        rw [← hk, hahead]
        omega
      rw [if_pos hk, hsum, if_pos (by simp), List.getElem?_eq_getElem hindex]
    · have hne : n + ahead (first + UInt16.ofNat n) k ≠ index := by
        intro hsum
        have heq : ahead (first + UInt16.ofNat n) (first + UInt16.ofNat index) =
            ahead (first + UInt16.ofNat n) k := by omega
        exact hk (ahead_inj heq)
      rw [if_neg hk, h.reorder]
      apply if_congr _ rfl rfl
      rw [List.mem_append, List.mem_singleton]
      constructor
      · exact Or.inl
      · intro hmem
        exact hmem.resolve_right hne
  · exact h.nal
  · intro i hi
    rcases List.mem_append.mp hi with hold | hnew
    · exact h.near i hold
    · rw [List.mem_singleton.mp hnew]
      exact ⟨hindex, hnear⟩
  · intro i hi
    exact List.mem_append_left _ (h.before i hi)

/-- The waiting packets are within half a period. -/
theorem Tracks.ahead_le (h : Tracks first packets arrived n d) {k : UInt16} (hk : k ∈ d.reorder) :
    n + ahead (first + UInt16.ofNat n) k ∈ arrived ∧ ahead (first + UInt16.ofNat n) k ≤ 2 ^ 15 := by
  rw [Std.TreeMap.mem_iff_isSome_getElem?, h.reorder] at hk
  split_ifs at hk with hmem
  · have hnear := (h.near _ hmem).2
    exact ⟨hmem, by omega⟩
  · cases hk

theorem Tracks.drain (h : Tracks first packets arrived n d) :
    Tracks first packets arrived (n + d.drained.length) d.drainInOrder ∧
      n + d.drained.length ∉ arrived := by
  have hdrained := HevcDepacketizer.drainInOrder_drained h.next
  have hsize : d.reorder.size ≤ 2 ^ 15 + 1 := by
    rw [← Finset.card_range (2 ^ 15 + 1)]
    apply size_le_card (f := ahead (first + UInt16.ofNat n))
    · intro key _ key' _ heq
      exact ahead_inj heq
    · intro key hkey
      have hle := (h.ahead_le hkey).2
      rw [Finset.mem_range]
      omega
  have hlength := hdrained.size
  have htaken (i : ℕ) (hi : i < d.drained.length) :
      n + i ∈ arrived ∧ packets[n + i]? = some d.drained[i] := by
    have hget := hdrained.inOrder i hi
    rw [h.reorder, ahead_add (by omega)] at hget
    split_ifs at hget with hmem
    exact ⟨hmem, hget⟩
  have hstop : n + d.drained.length ∉ arrived := by
    intro hmem
    have hmissing := hdrained.stop
    rw [hdrained.rest, ahead_add (by omega), if_neg (Nat.lt_irrefl _), h.reorder,
      ahead_add (by omega), if_pos hmem, List.getElem?_eq_getElem (h.near _ hmem).1] at hmissing
    cases hmissing
  refine ⟨?_, hstop⟩
  constructor
  · rw [hdrained.next, add_ofNat_add]
  · intro k
    rw [hdrained.rest, ← add_ofNat_add]
    by_cases hlt : ahead (first + UInt16.ofNat n) k < d.drained.length
    · have hpassed := ahead_passed hlt (by omega)
      rw [if_pos hlt, hpassed, if_neg]
      intro hmem
      -- a packet that was delivered would be a whole period ahead
      have hfar := (h.near _ hmem).2
      omega
    · have hmoved := ahead_moved (Nat.le_of_not_lt hlt)
      have hsum : n + d.drained.length +
          (ahead (first + UInt16.ofNat n) k - d.drained.length) =
          n + ahead (first + UInt16.ofNat n) k := by omega
      rw [if_neg hlt, hmoved, hsum]
      exact h.reorder k
  · have hslice : (packets.drop n).take d.drained.length = d.drained := by
      apply List.ext_getElem?
      intro i
      rw [List.getElem?_take, List.getElem?_drop]
      split_ifs with hi
      · rw [(htaken i hi).2, List.getElem?_eq_getElem hi]
      · rw [List.getElem?_eq_none (by omega)]
    rw [hdrained.nal, h.nal, ← List.foldl_append, List.take_add, hslice]
  · intro i hi
    have hnear := h.near i hi
    exact ⟨hnear.1, by omega⟩
  · intro i hi
    by_cases hlt : i < n
    · exact h.before i hlt
    · have hmem := (htaken (i - n) (by omega)).1
      rwa [Nat.add_sub_cancel' (by omega)] at hmem

theorem Tracks.size_le (h : Tracks first packets arrived n d) (hmissing : n ∉ arrived) :
    d.reorder.size ≤ waiting arrived n := by
  apply size_le_card (f := fun k => n + ahead (first + UInt16.ofNat n) k)
  · intro key _ key' _ heq
    exact ahead_inj (Nat.add_left_cancel heq)
  · intro key hkey
    have hmem := (h.ahead_le hkey).1
    have hne : ahead (first + UInt16.ofNat n) key ≠ 0 := by
      intro hzero
      rw [hzero] at hmem
      exact hmissing hmem
    rw [Finset.mem_filter, List.mem_toFinset]
    exact ⟨hmem, by omega⟩

/-- What follows after a packet was put into the map. -/
theorem Tracks.settle (h : Tracks first packets arrived n d)
    (hbuffered : ∀ n, FirstMissing arrived n → waiting arrived n ≤ maxReorderBuffer) :
    ∃ m, Tracks first packets arrived m d.drainInOrder.skipGap ∧ m ∉ arrived := by
  obtain ⟨hdrained, hstop⟩ := h.drain
  have hsize := hdrained.size_le hstop
  have hwaiting := hbuffered _ ⟨hdrained.before, hstop⟩
  refine ⟨n + d.drained.length, ?_, hstop⟩
  unfold HevcDepacketizer.skipGap
  rwa [if_neg (by omega)]

theorem Tracks.push (h : Tracks first packets arrived n d) (hmissing : n ∉ arrived)
    (hindex : index < packets.length) (hnear : n < index + 2 ^ 15 ∧ index ≤ n + 2 ^ 15)
    (hbuffered : ∀ n, FirstMissing (arrived ++ [index]) n →
      waiting (arrived ++ [index]) n ≤ maxReorderBuffer) :
    ∃ m, Tracks first packets (arrived ++ [index]) m
      (d.push (first + UInt16.ofNat index) packets[index]) ∧ m ∉ arrived ++ [index] := by
  by_cases hbefore : index < n
  · obtain ⟨hpush, htracks⟩ := h.push_before hbefore hnear.1 packets[index]
    refine ⟨n, ?_, ?_⟩
    · rwa [hpush]
    · rwa [mem_concat_of_mem (h.before index hbefore)]
  · have hfrom : n ≤ index := Nat.le_of_not_lt hbefore
    have hahead : ahead (first + UInt16.ofNat n) (first + UInt16.ofNat index) = index - n :=
      ahead_add_ofNat hfrom (by omega)
    have hstale : seqLessThan (first + UInt16.ofNat index) (first + UInt16.ofNat n) = false := by
      rw [Bool.eq_false_iff, ne_eq, seqLessThan_start, hahead]
      omega
    unfold HevcDepacketizer.push
    dsimp only
    rw [h.begun_eq, h.stale_eq, hstale, if_neg Bool.false_ne_true]
    exact (h.insert hindex hfrom hnear.2).settle hbuffered

/-- The first packet of the stream sets the cursor. -/
theorem tracks_first (first : UInt16) {packets : List Packet} (hpos : 0 < packets.length) :
    Tracks first packets [0] 0 ((HevcDepacketizer.new.begun first).insert first packets[0]) := by
  have hnone : Tracks first packets [] 0 (HevcDepacketizer.new.begun first) := by
    constructor
    · simp [HevcDepacketizer.begun, HevcDepacketizer.new]
    · intro k
      rw [if_neg List.not_mem_nil]
      exact Std.TreeMap.getElem?_of_isEmpty rfl
    · rfl
    · simp
    · simp
  have hinserted := hnone.insert hpos (Nat.le_refl 0) (Nat.zero_le _)
  simpa using hinserted

/-- The depacketizer after the packets arrived. -/
def received (first : UInt16) (packets : List Packet) (indices : List (Fin packets.length)) :
    HevcDepacketizer :=
  indices.foldl (fun d (index : Fin packets.length) =>
    d.push (first + UInt16.ofNat index) packets[index]) .new

theorem settled_first (first : UInt16) {packets : List Packet} (hpos : 0 < packets.length)
    (hbuffered : ∀ n, FirstMissing [0] n → waiting [0] n ≤ maxReorderBuffer) :
    ∃ m, Tracks first packets [0] m (HevcDepacketizer.new.push first packets[0]) ∧ m ∉ [0] := by
  have hstale : (HevcDepacketizer.new.begun first).stale first = false := by
    show seqLessThan first first = false
    rw [Bool.eq_false_iff, ne_eq, seqLessThan_iff, ahead_self]
    omega
  unfold HevcDepacketizer.push
  dsimp only
  rw [hstale, if_neg Bool.false_ne_true]
  exact (tracks_first first hpos).settle hbuffered

theorem tracks_received (first : UInt16) (indices : List (Fin packets.length))
    (hstarts : (indices.map Fin.val).head? = some 0)
    (hbuffered : ∀ before after, indices.map Fin.val = before ++ after →
      ∀ n, FirstMissing before n → waiting before n ≤ maxReorderBuffer)
    (hnear : Near (indices.map Fin.val)) :
    ∃ n, Tracks first packets (indices.map Fin.val) n (received first packets indices) ∧
      n ∉ indices.map Fin.val := by
  induction indices using List.reverseRecOn with
  | nil => cases hstarts
  | append_singleton indices index ih =>
    unfold received
    rw [List.map_append, List.map_singleton] at hstarts hbuffered hnear ⊢
    rw [List.foldl_append, List.foldl_cons, List.foldl_nil]
    have hbuffered' := hbuffered _ [] (List.append_nil _).symm
    rcases hempty : indices with _ | ⟨other, rest⟩
    · have hzero : index.val = 0 := by simpa [hempty] using hstarts
      obtain ⟨_, hpos⟩ := index
      subst hzero
      rw [hempty] at hbuffered'
      have hfirst := settled_first first hpos hbuffered'
      simpa using hfirst
    · rw [← hempty]
      obtain ⟨n, htracks, hmissing⟩ := ih (by simpa [hempty] using hstarts)
        (fun before after heq => hbuffered before (after ++ [index.val]) (by rw [heq]; simp))
        (fun before other after heq =>
          hnear before other (after ++ [index.val]) (by rw [heq]; simp))
      exact htracks.push hmissing index.isLt
        (hnear _ index.val [] rfl n ⟨htracks.before, hmissing⟩) hbuffered'

theorem Arriving.nal {indices : List (Fin packets.length)}
    (h : Arriving packets.length (indices.map Fin.val)) (hnear : Near (indices.map Fin.val)) :
    (received first packets indices).nal = packets.foldl NalAssembler.deliver {} := by
  obtain ⟨n, htracks, hmissing⟩ := tracks_received first indices h.starts h.buffered hnear
  have hall : packets.length ≤ n := by
    apply Nat.le_of_not_lt
    intro hlt
    exact hmissing (h.complete n hlt)
  rw [htracks.nal, List.take_of_length_le hall]

/-- Taking the output now and then does not change what all of it is. -/
theorem Session.run_received (calls : List (Call packets.length)) :
    (run first packets calls).depacketizer.withTaken (run first packets calls).taken =
      received first packets (pushes calls) := by
  induction calls using List.reverseRecOn with
  | nil => rfl
  | append_singleton calls last ih =>
    unfold run received pushes at ih ⊢
    rw [List.foldl_append, List.filterMap_append, List.foldl_append, ← ih]
    cases last with
    | push index => exact (HevcDepacketizer.push_withTaken _ _ _ _).symm
    | takeOutput =>
      show HevcDepacketizer.withTaken (_ ++ _) (HevcDepacketizer.takeOutput _).2 = _
      unfold HevcDepacketizer.takeOutput HevcDepacketizer.withTaken NalAssembler.withTaken
      simp

theorem Session.output_run (calls : List (Call packets.length)) :
    (run first packets calls).output = (received first packets (pushes calls)).nal.out := by
  rw [← run_received]
  rfl

theorem pushes_map (indices : List (Fin n)) : pushes (indices.map .push) = indices := by
  unfold pushes
  rw [List.filterMap_map]
  exact List.filterMap_some

theorem arrivals_inOrder (length : ℕ) : arrivals (inOrder length) = List.range length := by
  unfold arrivals inOrder
  rw [pushes_map]
  simp

theorem firstMissing_range {k : ℕ} (h : FirstMissing (List.range k) n) : n = k := by
  have hle : k ≤ n := by
    apply Nat.le_of_not_lt
    intro hlt
    exact h.2 (List.mem_range.mpr hlt)
  apply Nat.le_antisymm _ hle
  apply Nat.le_of_not_lt
  intro hlt
  exact Nat.lt_irrefl _ (List.mem_range.mp (h.1 k hlt))

theorem prefix_range {length : ℕ} {before after : List ℕ} (h : List.range length = before ++ after) :
    before = List.range before.length := by
  have htake := congrArg (List.take before.length) h
  have hlength := congrArg List.length h
  rw [List.length_range, List.length_append] at hlength
  rw [List.take_left, List.take_range, Nat.min_eq_left (by omega)] at htake
  exact htake.symm

theorem arriving_inOrder {length : ℕ} (hpos : 0 < length) : Arriving length (List.range length) where
  starts := by
    obtain ⟨k, rfl⟩ := Nat.exists_eq_succ_of_ne_zero (Nat.ne_of_gt hpos)
    rw [List.range_succ_eq_map]
    rfl
  complete i hi := List.mem_range.mpr hi
  buffered before after heq n hn := by
    rw [prefix_range heq] at hn ⊢
    rw [firstMissing_range hn]
    unfold waiting
    rw [Finset.filter_eq_empty_iff.mpr]
    · exact Nat.zero_le _
    · intro i hi
      rw [List.mem_toFinset, List.mem_range] at hi
      omega

theorem near_inOrder (length : ℕ) : Near (List.range length) := by
  intro before index after heq n hn
  have hbefore := prefix_range heq
  have hindex : before.length = index := by
    have hlength := congrArg List.length heq
    have hget := congrArg (fun l => l[before.length]?) heq
    rw [List.length_range, List.length_append, List.length_cons] at hlength
    rw [List.getElem?_range (by omega), List.getElem?_append_right (Nat.le_refl _),
      Nat.sub_self] at hget
    exact Option.some.inj hget
  rw [hbefore] at hn
  have hn := firstMissing_range hn
  omega

theorem output_inOrder (hpos : 0 < packets.length) :
    (Session.run first packets (inOrder packets.length)).output =
      (packets.foldl NalAssembler.deliver {}).out := by
  have hinOrder := arrivals_inOrder packets.length
  unfold arrivals at hinOrder
  rw [Session.output_run, Arriving.nal]
  · rw [hinOrder]
    exact arriving_inOrder hpos
  · rw [hinOrder]
    exact near_inOrder _

/-- A stream that arrives out of order and with duplicates, near the first missing packet,
is put together as the stream in order is. -/
theorem output_eq_inOrder (first : UInt16) (packets : List Packet)
    (calls : List (Call packets.length)) (harriving : Arriving packets.length (arrivals calls))
    (hnear : Near (arrivals calls)) :
    (Session.run first packets calls).output =
      (Session.run first packets (inOrder packets.length)).output := by
  have hpos : 0 < packets.length := by
    obtain ⟨index, -, hzero⟩ := List.mem_map.mp (List.mem_of_mem_head? harriving.starts)
    exact Nat.lt_of_le_of_lt (Nat.zero_le _) index.isLt
  rw [Session.output_run, harriving.nal hnear, output_inOrder hpos]

theorem waiting_le_length (arrived : List ℕ) (n : ℕ) : waiting arrived n ≤ arrived.length :=
  Nat.le_trans (Finset.card_filter_le _ _) (List.toFinset_card_le _)

theorem FirstMissing.le_length (h : FirstMissing arrived n) : n ≤ arrived.length := by
  have hsubset : Finset.range n ⊆ arrived.toFinset := by
    intro i hi
    exact List.mem_toFinset.mpr (h.1 i (Finset.mem_range.mp hi))
  have hcard := Finset.card_le_card hsubset
  rw [Finset.card_range] at hcard
  exact Nat.le_trans hcard (List.toFinset_card_le _)

/-- In a short stream every order of arrival is near. -/
theorem near_of_short (hlength : arrived.length < 2 ^ 15) (hsmall : ∀ i ∈ arrived, i ≤ 2 ^ 15) :
    Near arrived := by
  intro before index after heq n hn
  have hle := hn.le_length
  have hindex := hsmall index (by rw [heq]; simp)
  rw [heq, List.length_append, List.length_cons] at hlength
  omega

/-- Two packets that arrive in the wrong order, the output taken in between. -/
theorem output_eq_inOrder_swapped :
    (Session.run 65535 [(0, []), (0, [2, 0]), (1, [2, 1])]
        [.push 0, .push 2, .takeOutput, .push 1, .push 0, .takeOutput]).output =
      (Session.run 65535 [(0, []), (0, [2, 0]), (1, [2, 1])] (inOrder 3)).output := by
  apply output_eq_inOrder
  · constructor
    · decide
    · decide
    · intro before after heq n hn
      have hlength := congrArg List.length heq
      have hwaiting := waiting_le_length before n
      rw [List.length_append] at hlength
      change 4 = _ at hlength
      unfold maxReorderBuffer
      omega
  · apply near_of_short
    · decide
    · decide

end Window

section TooFar

variable {first : UInt16} {packets : List Packet} {arrived : List ℕ} {far n index : ℕ}

/-- No duplicate arrives that is older than half a period. -/
def Recent (arrived : List ℕ) : Prop :=
  ∀ before index after, arrived = before ++ index :: after → index ∈ before →
    ∀ n, FirstMissing before n → n ≤ index + 2 ^ 15

/-- Every packet that arrives is at most half a period ahead of the first missing one. -/
def NotFarAhead (arrived : List ℕ) : Prop :=
  ∀ before index after, arrived = before ++ index :: after →
    ∀ n, FirstMissing before n → index ≤ n + 2 ^ 15

/-- Every packet but one arrives after all that are before it in the stream. -/
def InTurn (far : ℕ) (arrived : List ℕ) : Prop :=
  ∀ before index after, arrived = before ++ index :: after →
    index = far ∨ ∀ i < index, i ∈ before

theorem inTurn_nil : InTurn far [] := by
  intro before index after heq
  cases before <;> cases heq

theorem InTurn.concat (h : InTurn far arrived) (hindex : index = far ∨ ∀ i < index, i ∈ arrived) :
    InTurn far (arrived ++ [index]) := by
  intro before other after heq
  rcases List.eq_nil_or_concat after with rfl | ⟨rest, last, rfl⟩
  · obtain ⟨rfl, hother⟩ := List.append_inj' heq rfl
    cases hother
    exact hindex
  · have hsplit : arrived ++ [index] = (before ++ other :: rest) ++ [last] := by simpa using heq
    exact h before other rest (List.append_inj' hsplit rfl).1

theorem InTurn.range' (h : InTurn far arrived) {start : ℕ} (hbefore : ∀ i < start, i ∈ arrived)
    (count : ℕ) : InTurn far (arrived ++ List.range' start count) := by
  induction count with
  | zero => simpa using h
  | succ count ih =>
    rw [List.range'_1_concat, ← List.append_assoc]
    apply ih.concat
    right
    intro i hi
    rw [List.mem_append, List.mem_range'_1]
    by_cases hlt : i < start
    · exact Or.inl (hbefore i hlt)
    · exact Or.inr ⟨by omega, by omega⟩

theorem InTurn.le (h : InTurn far arrived) {before after : List ℕ}
    (heq : arrived = before ++ index :: after) (hn : FirstMissing before n) (hne : index ≠ far) :
    index ≤ n := by
  apply Nat.le_of_not_lt
  intro hlt
  exact hn.2 ((h before index after heq).resolve_left hne n hlt)

/-- At most the packet that comes out of turn waits. -/
theorem InTurn.waiting_le (h : InTurn far arrived) {before after : List ℕ}
    (heq : arrived = before ++ after) (hn : FirstMissing before n) : waiting before n ≤ 1 := by
  rw [← Finset.card_singleton far]
  apply Finset.card_le_card
  intro i hi
  obtain ⟨hmem, hlt⟩ := Finset.mem_filter.mp hi
  obtain ⟨left, right, hsplit⟩ := List.append_of_mem (List.mem_toFinset.mp hmem)
  rw [Finset.mem_singleton]
  by_contra hne
  apply hn.2
  have hturn := h left i (right ++ after) (by rw [heq, hsplit]; simp)
  rw [hsplit]
  exact List.mem_append_left _ (hturn.resolve_left hne n hlt)

/-- A packet more than half a period ahead is taken for an old one. -/
theorem Tracks.push_far {d : HevcDepacketizer} (h : Tracks first packets arrived n d)
    (hfar : n + 2 ^ 15 < index) (hlt : index < n + 2 ^ 16) (packet : Packet) :
    d.push (first + UInt16.ofNat index) packet = d := by
  have hahead : ahead (first + UInt16.ofNat n) (first + UInt16.ofNat index) = index - n :=
    ahead_add_ofNat (by omega) hlt
  have hstale : seqLessThan (first + UInt16.ofNat index) (first + UInt16.ofNat n) = true := by
    rw [seqLessThan_start, hahead]
    omega
  exact h.push_of_stale hstale packet

/-- The calls without takes, for packets that are in the stream. -/
def arrive (length : ℕ) (order : List ℕ) (h : ∀ i ∈ order, i < length) : List (Call length) :=
  (order.pmap Fin.mk h).map .push

theorem arrivals_arrive (h : ∀ i ∈ arrived, i < n) : arrivals (arrive n arrived h) = arrived := by
  unfold arrivals arrive
  rw [pushes_map, List.map_pmap]
  simp

/-- The packet with an index arrives. -/
def pushAt (first : UInt16) (packets : List Packet) (d : HevcDepacketizer) (index : ℕ) :
    HevcDepacketizer :=
  d.push (first + UInt16.ofNat index) (packets[index]?.getD (0, []))

theorem received_arrive (first : UInt16) (h : ∀ i ∈ arrived, i < packets.length) :
    received first packets (pushes (arrive packets.length arrived h)) =
      arrived.foldl (pushAt first packets) .new := by
  unfold arrive received
  rw [pushes_map]
  generalize HevcDepacketizer.new = d
  induction arrived generalizing d with
  | nil => rfl
  | cons index rest ih =>
    have hindex : index < packets.length := h index (List.mem_cons_self ..)
    have hpush : pushAt first packets d index =
        d.push (first + UInt16.ofNat index) packets[index] := by
      unfold pushAt
      rw [List.getElem?_eq_getElem hindex]
      rfl
    rw [List.pmap_cons, List.foldl_cons, List.foldl_cons, hpush]
    exact ih _ _

theorem tracks_arrived (first : UInt16) (h : ∀ i ∈ arrived, i < packets.length) (hstarts : arrived.head? = some 0)
    (hbuffered : ∀ before after, arrived = before ++ after →
      ∀ n, FirstMissing before n → waiting before n ≤ maxReorderBuffer) (hnear : Near arrived) :
    ∃ n, Tracks first packets arrived n (arrived.foldl (pushAt first packets) .new) ∧
      FirstMissing arrived n := by
  have harrivals := arrivals_arrive h
  have hreceived := received_arrive first h
  unfold arrivals at harrivals
  rw [← harrivals] at hstarts hbuffered hnear
  obtain ⟨n, htracks, hmissing⟩ := tracks_received first _ hstarts hbuffered hnear
  rw [hreceived, harrivals] at htracks
  rw [harrivals] at hmissing
  exact ⟨n, htracks, htracks.before, hmissing⟩

/-- A payload without content leaves the assembler as it is. -/
theorem deliver_empty {s : NalAssembler} (h : s.lastTs = some 0) (count : ℕ) :
    (List.replicate count ((0, []) : Packet)).foldl NalAssembler.deliver s = s := by
  have hone : s.deliver (0, []) = s := by
    unfold NalAssembler.deliver
    rw [h]
    show ({ s with lastTs := some 0 } : NalAssembler) = s
    rw [← h]
  induction count with
  | zero => rfl
  | succ count ih => rw [List.replicate_succ, List.foldl_cons, hone, ih]

/-- From the start such payloads only set the timestamp. -/
theorem deliver_idle (count : ℕ) :
    (List.replicate (count + 1) ((0, []) : Packet)).foldl NalAssembler.deliver {} =
      { lastTs := some 0 } := by
  rw [List.replicate_succ, List.foldl_cons]
  exact deliver_empty rfl count

/-- A long stream whose last packet alone has content. -/
def late : List Packet := List.replicate 32770 (0, []) ++ [(0, [0, 0])]

/-- The last packet arrives second. -/
def lateSecond : List ℕ := 0 :: 32770 :: List.range' 1 32769

theorem length_late : late.length = 32771 := by
  unfold late
  rw [List.length_append, List.length_replicate]
  rfl

theorem range_eq_cons : List.range 32770 = 0 :: List.range' 1 32769 := by
  rw [List.range_eq_range']
  exact List.range'_succ

theorem lateSecond_lt : ∀ i ∈ lateSecond, i < late.length := by
  intro i hi
  rw [length_late]
  unfold lateSecond at hi
  rw [List.mem_cons, List.mem_cons, List.mem_range'_1] at hi
  omega

theorem arriving_lateSecond : Arriving late.length lateSecond where
  starts := rfl
  complete i hi := by
    rw [length_late] at hi
    unfold lateSecond
    rw [List.mem_cons, List.mem_cons, List.mem_range'_1]
    omega
  buffered before after heq n hn := by
    have hturn : InTurn 32770 lateSecond := by
      have hstart : InTurn 32770 ([] ++ [0] ++ [32770]) :=
        (inTurn_nil.concat (Or.inr (by simp))).concat (Or.inl rfl)
      exact hstart.range' (by simp) 32769
    exact Nat.le_trans (hturn.waiting_le heq hn) (by decide)

theorem recent_lateSecond : Recent lateSecond := by
  have hnodup : lateSecond.Nodup := by
    unfold lateSecond
    rw [List.nodup_cons, List.nodup_cons, List.mem_cons, List.mem_range'_1, List.mem_range'_1]
    exact ⟨by omega, by omega, List.nodup_range'⟩
  intro before index after heq hmem
  rw [heq, List.nodup_append] at hnodup
  exact absurd rfl (hnodup.2.2 index hmem index (List.mem_cons_self ..))

theorem tracks_range (length : ℕ) (hpos : 0 < length) (hle : length ≤ packets.length) :
    Tracks first packets (List.range length) length
      ((List.range length).foldl (pushAt first packets) .new) := by
  obtain ⟨n, htracks, hn⟩ := tracks_arrived first
    (fun i hi => Nat.lt_of_lt_of_le (List.mem_range.mp hi) hle) (arriving_inOrder hpos).starts
    (arriving_inOrder hpos).buffered (near_inOrder length)
  rwa [firstMissing_range hn] at htracks

/-- The early packet is lost. -/
theorem received_lateSecond :
    (lateSecond.foldl (pushAt 0 late) .new).nal = { lastTs := some 0 } := by
  have hone : Tracks 0 late [0] 1 (pushAt 0 late .new 0) :=
    tracks_range 1 Nat.one_pos (by rw [length_late]; omega)
  have hlost : pushAt 0 late (pushAt 0 late .new 0) 32770 = pushAt 0 late .new 0 :=
    hone.push_far (by omega) (by omega) _
  have hall : lateSecond.foldl (pushAt 0 late) .new =
      (List.range 32770).foldl (pushAt 0 late) .new := by
    unfold lateSecond
    rw [range_eq_cons, List.foldl_cons, List.foldl_cons, List.foldl_cons, hlost]
  have hrange : Tracks 0 late (List.range 32770) 32770
      ((List.range 32770).foldl (pushAt 0 late) .new) :=
    tracks_range 32770 (by omega) (by rw [length_late]; omega)
  have htake : late.take 32770 = List.replicate 32770 (0, []) :=
    List.take_left' List.length_replicate
  rw [hall, hrange.nal, htake]
  exact deliver_idle 32769

/-- The packet 32770 arrives when 1 is the first missing one. It is taken for an old one. -/
theorem far_packet_lost :
    ¬ ∀ (first : UInt16) (packets : List Packet) (calls : List (Call packets.length)),
      Arriving packets.length (arrivals calls) → Recent (arrivals calls) →
        (Session.run first packets calls).output =
          (Session.run first packets (inOrder packets.length)).output := by
  intro h
  have heq := h 0 late (arrive late.length lateSecond lateSecond_lt)
  have hlate : late.foldl NalAssembler.deliver {} =
      NalAssembler.deliver { lastTs := some 0 } (0, [0, 0]) := by
    unfold late
    rw [List.foldl_append, deliver_idle 32769]
    rfl
  rw [arrivals_arrive, Session.output_run, received_arrive, received_lateSecond,
    output_inOrder (by rw [length_late]; omega), hlate] at heq
  have hout := heq arriving_lateSecond recent_lateSecond
  revert hout
  decide

/-- A stream of one period, whose first packet alone has content. -/
def period : List Packet := (0, [0, 0]) :: List.replicate 65535 (0, [])

theorem period_nal : period.foldl NalAssembler.deliver {} = NalAssembler.deliver {} (0, [0, 0]) := by
  unfold period
  rw [List.foldl_cons]
  exact deliver_empty rfl 65535

/-- The stream until half of its period, with its packet 0, or one of that number, again. -/
def halfAgain (again : ℕ) (count : ℕ) : List ℕ :=
  List.range 32768 ++ [again] ++ List.range' 32768 count

variable {again count : ℕ}

theorem length_period (packet : Packet) : (period ++ [packet]).length = 65537 := by
  unfold period
  rw [List.length_append, List.length_cons, List.length_replicate]
  rfl

theorem mem_halfAgain : index ∈ halfAgain again count ↔ index < 32768 + count ∨ index = again := by
  unfold halfAgain
  rw [List.mem_append, List.mem_append, List.mem_range, List.mem_singleton, List.mem_range'_1]
  omega

theorem inTurn_halfAgain (again count : ℕ) : InTurn again (halfAgain again count) := by
  have hrange : InTurn again (List.range 32768) := by
    rw [List.range_eq_range']
    exact inTurn_nil.range' (by simp) 32768
  apply (hrange.concat (Or.inl rfl)).range'
  intro i hi
  exact List.mem_append_left _ (List.mem_range.mpr hi)

theorem buffered_halfAgain (again count : ℕ) : ∀ before after,
    halfAgain again count = before ++ after →
      ∀ n, FirstMissing before n → waiting before n ≤ maxReorderBuffer := by
  intro before after heq n hn
  exact Nat.le_trans ((inTurn_halfAgain again count).waiting_le heq hn) (by decide)

theorem starts_halfAgain (again count : ℕ) : (halfAgain again count).head? = some 0 := by
  have hrange : List.range 32768 = 0 :: List.range' 1 32767 := by
    rw [List.range_eq_range']
    exact List.range'_succ
  unfold halfAgain
  rw [hrange]
  rfl

/-- The place of an arrival in the order. -/
theorem position_halfAgain {before after : List ℕ}
    (heq : halfAgain again count = before ++ index :: after) :
    (before.length < 32768 ∧ index = before.length) ∨
      (before.length = 32768 ∧ index = again) ∨
      (32768 < before.length ∧ before.length = index + 1) := by
  have hlength := congrArg List.length heq
  have hget := congrArg (·[before.length]?) heq
  rw [List.getElem?_append_right (Nat.le_refl _), Nat.sub_self] at hget
  unfold halfAgain at hget hlength
  simp only [List.length_append, List.length_range, List.length_cons, List.length_nil,
    List.length_range'] at hlength
  by_cases hlt : before.length < 32768
  · rw [List.append_assoc, List.getElem?_append_left (by simpa using hlt),
      List.getElem?_range hlt] at hget
    exact Or.inl ⟨hlt, (Option.some.inj hget).symm⟩
  · right
    by_cases hhalf : before.length = 32768
    · left
      rw [hhalf, List.getElem?_append_left (by simp), List.getElem?_append_right (by simp),
        List.length_range, Nat.sub_self] at hget
      exact ⟨hhalf, (Option.some.inj hget).symm⟩
    · right
      rw [List.getElem?_append_right (by simp; omega), List.getElem?_range'] at hget
      · have hindex := Option.some.inj hget
        simp only [List.length_append, List.length_range, List.length_singleton] at hindex
        omega
      · simp only [List.length_append, List.length_range, List.length_singleton]
        omega

theorem near_halfAgain : Near (halfAgain 65536 32768) := by
  intro before index after heq n hn
  have hle := hn.le_length
  have hposition := position_halfAgain heq
  refine ⟨by omega, ?_⟩
  by_cases hfar : index = 65536
  · -- the first half of the stream has arrived
    have hrange : List.range 32768 <+: halfAgain 65536 32768 := by
      unfold halfAgain
      rw [List.append_assoc]
      exact List.prefix_append _ _
    have hbefore : before <+: halfAgain 65536 32768 := by
      rw [heq]
      exact List.prefix_append _ _
    have hlength : (List.range 32768).length ≤ before.length := by
      rw [List.length_range]
      omega
    have hfront := List.prefix_of_prefix_length_le hrange hbefore hlength
    have hhalf : 32768 ≤ n := by
      apply Nat.le_of_not_lt
      intro hlt
      exact hn.2 (hfront.mem (List.mem_range.mpr hlt))
    omega
  · have hturn := (inTurn_halfAgain 65536 32768).le heq hn hfar
    omega

theorem firstMissing_halfAgain (h : FirstMissing (halfAgain 65536 32768) n) : n = 65537 := by
  have hmissing := h.2
  rw [mem_halfAgain] at hmissing
  apply Nat.le_antisymm
  · apply Nat.le_of_not_lt
    intro hlt
    have hmem := mem_halfAgain.mp (h.1 65537 hlt)
    omega
  · omega

/-- A duplicate a period old cannot be told from the packet that is a period later. -/
theorem foldl_halfAgain (d : HevcDepacketizer) :
    (halfAgain 65536 32768).foldl (pushAt 0 (period ++ [(0, [0, 0])])) d =
      (halfAgain 0 32768).foldl (pushAt 0 (period ++ [(0, [])])) d := by
  have hlength : period.length = 65536 := by
    unfold period
    rw [List.length_cons, List.length_replicate]
  have hone (d : HevcDepacketizer) (i : ℕ) (hi : i < 65536) :
      pushAt 0 (period ++ [(0, [0, 0])]) d i = pushAt 0 (period ++ [(0, [])]) d i := by
    unfold pushAt
    rw [List.getElem?_append_left (by omega), List.getElem?_append_left (by omega)]
  have hagain (d : HevcDepacketizer) :
      pushAt 0 (period ++ [(0, [0, 0])]) d 65536 = pushAt 0 (period ++ [(0, [])]) d 0 := by
    have hwrap : UInt16.ofNat 65536 = UInt16.ofNat 0 := by decide
    have hhead : (period ++ [((0, []) : Packet)])[0]? = some (0, [0, 0]) := by
      unfold period
      rw [List.cons_append, List.getElem?_cons_zero]
    unfold pushAt
    rw [List.getElem?_append_right (by omega), hlength, Nat.sub_self, List.getElem?_cons_zero,
      hwrap, hhead]
  have hfirst : (List.range 32768).foldl (pushAt 0 (period ++ [(0, [0, 0])])) d =
      (List.range 32768).foldl (pushAt 0 (period ++ [(0, [])])) d := by
    apply List.foldl_ext
    intro d i hi
    have hi := List.mem_range.mp hi
    exact hone d i (by omega)
  unfold halfAgain
  rw [List.foldl_append, List.foldl_append, List.foldl_append, List.foldl_append, hfirst]
  rw [List.foldl_cons, List.foldl_cons, List.foldl_nil, List.foldl_nil, hagain]
  apply List.foldl_ext
  intro d i hi
  have hi := List.mem_range'_1.mp hi
  exact hone d i (by omega)

/-- The duplicate is delivered, and the packet itself is left out. -/
theorem received_halfAgain :
    ((halfAgain 0 32769).foldl (pushAt 0 (period ++ [(0, [])])) .new).nal =
      (period ++ [(0, [0, 0])]).foldl NalAssembler.deliver {} := by
  have hlt : ∀ i ∈ halfAgain 65536 32768, i < (period ++ [((0, [0, 0]) : Packet)]).length := by
    intro i hi
    rw [length_period]
    rw [mem_halfAgain] at hi
    omega
  obtain ⟨n, htracks, hn⟩ := tracks_arrived 0 hlt (starts_halfAgain _ _) (buffered_halfAgain _ _)
    near_halfAgain
  rw [firstMissing_halfAgain hn, foldl_halfAgain] at htracks
  have hconcat : halfAgain 0 32769 = halfAgain 0 32768 ++ [65536] := by
    unfold halfAgain
    rw [List.range'_1_concat, ← List.append_assoc]
  rw [hconcat, List.foldl_append, List.foldl_cons, List.foldl_nil]
  generalize (halfAgain 0 32768).foldl (pushAt 0 (period ++ [(0, [])])) .new = d at htracks ⊢
  have hstay : pushAt 0 (period ++ [(0, [])]) d 65536 = d :=
    (htracks.push_before (show 65536 < 65537 by omega) (by omega) _).1
  rw [hstay, htracks.nal, List.take_of_length_le (by rw [length_period])]

/-- The packet 0 arrives again when 32768 is the first missing one. It is put together in
the place of the packet 65536. -/
theorem half_period_duplicate_delivered :
    ¬ ∀ (first : UInt16) (packets : List Packet) (calls : List (Call packets.length)),
      Arriving packets.length (arrivals calls) → Recent (arrivals calls) →
        NotFarAhead (arrivals calls) →
        (Session.run first packets calls).output =
          (Session.run first packets (inOrder packets.length)).output := by
  intro h
  have hlt : ∀ i ∈ halfAgain 0 32769, i < (period ++ [((0, []) : Packet)]).length := by
    intro i hi
    rw [length_period]
    rw [mem_halfAgain] at hi
    omega
  have heq := h 0 (period ++ [(0, [])]) (arrive _ (halfAgain 0 32769) hlt)
  rw [arrivals_arrive, Session.output_run, received_arrive, received_halfAgain,
    output_inOrder (by rw [length_period]; omega)] at heq
  have harriving : Arriving (period ++ [((0, []) : Packet)]).length (halfAgain 0 32769) := by
    constructor
    · exact starts_halfAgain _ _
    · intro i hi
      rw [length_period] at hi
      rw [mem_halfAgain]
      omega
    · exact buffered_halfAgain _ _
  have hrecent : Recent (halfAgain 0 32769) := by
    intro before index after hsplit _ n hn
    have hle := hn.le_length
    have hposition := position_halfAgain hsplit
    omega
  have hahead : NotFarAhead (halfAgain 0 32769) := by
    intro before index after hsplit n hn
    by_cases hzero : index = 0
    · omega
    · have hturn := (inTurn_halfAgain 0 32769).le hsplit hn hzero
      omega
  have hout := heq harriving hrecent hahead
  rw [List.foldl_append, List.foldl_append, period_nal] at hout
  revert hout
  decide

end TooFar

end XitForge.CoreDevice.Hevc
