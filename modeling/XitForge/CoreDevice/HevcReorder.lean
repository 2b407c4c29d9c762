import Mathlib.Data.List.Chain
import Mathlib.Data.List.Induction
import Mathlib.Order.Interval.Finset.Nat
import XitForge.CoreDevice.Hevc

/-!
The order in which packets are processed. Every sequence number that the cursor has
passed is counted, so that a packet has a number without a period: the one nearest to
the cursor when it arrives. The map is ordered by the bare sequence numbers, which
agrees with the order of the stream as long as the waiting ones do not straddle a wrap.
-/
namespace XitForge.CoreDevice.Hevc

open SerialNumber

/-- A packet with its sequence number, and its number in the stream. -/
structure Entry where
  number : ℤ
  seq : UInt16
  packet : Packet

/-- The number of a sequence number, where the cursor has a position. -/
def numberOf (position : ℤ) (cursor seq : UInt16) : ℤ :=
  if seqLessThan seq cursor then position - ahead seq cursor else position + ahead cursor seq

/-- Packets that are processed one after the other from the cursor on. -/
def entries (position : ℤ) (cursor : UInt16) : List Packet → List Entry
  | [] => []
  | packet :: rest => ⟨position, cursor, packet⟩ :: entries (position + 1) (cursor + 1) rest

/-- A run with what arrived and what was processed in it. -/
structure Trace where
  depacketizer : HevcDepacketizer
  /-- The number of the cursor. -/
  position : ℤ
  arrived : List Entry
  processed : List Entry

namespace Trace

def start : Trace := ⟨.new, 0, [], []⟩

/-- The packets from the cursor on are processed. -/
def drain (t : Trace) (cursor : UInt16) : Trace where
  depacketizer := t.depacketizer.drainInOrder
  position := t.position + t.depacketizer.drained.length
  arrived := t.arrived
  processed := t.processed ++ entries t.position cursor t.depacketizer.drained

/-- The packet is put into the map. -/
def insert (t : Trace) (cursor seq : UInt16) (packet : Packet) : Trace where
  depacketizer := (t.depacketizer.begun seq).insert seq packet
  position := t.position
  arrived := t.arrived ++ [⟨numberOf t.position cursor seq, seq, packet⟩]
  processed := t.processed

/-- The cursor leaves out what is before `lowest`. -/
def skipTo (t : Trace) (cursor lowest : UInt16) : Trace where
  depacketizer := t.depacketizer.skipTo lowest
  position := t.position + ahead cursor lowest
  arrived := t.arrived
  processed := t.processed

/-- `skip_gap`. -/
def skipGap (t : Trace) : Trace :=
  if t.depacketizer.reorder.size > maxReorderBuffer then
    match t.depacketizer.reorder.keys.head? with
    | some lowest => (t.skipTo (t.depacketizer.nextSeq.getD lowest) lowest).drain lowest
    | none => t
  else t

def push (t : Trace) (arrival : UInt16 × Packet) : Trace :=
  let cursor := t.depacketizer.nextSeq.getD arrival.1
  if (t.depacketizer.begun arrival.1).stale arrival.1 then
    { t with depacketizer := t.depacketizer.begun arrival.1
             arrived := t.arrived ++ [⟨numberOf t.position cursor arrival.1, arrival.1, arrival.2⟩] }
  else ((t.insert cursor arrival.1 arrival.2).drain cursor).skipGap

def run (arrivals : List (UInt16 × Packet)) : Trace := arrivals.foldl push start

theorem run_concat (arrivals : List (UInt16 × Packet)) (arrival : UInt16 × Packet) :
    run (arrivals ++ [arrival]) = (run arrivals).push arrival := by
  unfold run
  rw [List.foldl_append]
  rfl

@[simp] theorem depacketizer_skipGap (t : Trace) :
    t.skipGap.depacketizer = t.depacketizer.skipGap := by
  unfold skipGap HevcDepacketizer.skipGap
  split
  · cases t.depacketizer.reorder.keys.head? with
    | none => rfl
    | some lowest => rfl
  · rfl

/-- The trace follows the depacketizer. -/
theorem depacketizer_push (t : Trace) (arrival : UInt16 × Packet) :
    (t.push arrival).depacketizer = t.depacketizer.push arrival.1 arrival.2 := by
  unfold push HevcDepacketizer.push
  dsimp only
  split
  · rfl
  · rw [depacketizer_skipGap]
    rfl

theorem depacketizer_run (arrivals : List (UInt16 × Packet)) :
    (run arrivals).depacketizer =
      arrivals.foldl (fun d arrival => d.push arrival.1 arrival.2) .new := by
  induction arrivals using List.reverseRecOn with
  | nil => rfl
  | append_singleton arrivals arrival ih =>
    rw [run_concat, depacketizer_push, ih, List.foldl_append]
    rfl

end Trace

section Settled

/-- What holds of a depacketizer between two calls, whatever arrives. -/
structure Settled (d : HevcDepacketizer) : Prop where
  fresh : d.nextSeq = none → d.reorder.size = 0
  missing : ∀ cursor, d.nextSeq = some cursor → d.reorder[cursor]? = none
  bounded : d.reorder.size ≤ maxReorderBuffer

theorem settled_new : Settled .new where
  fresh _ := rfl
  missing _ h := by cases h
  bounded := Nat.zero_le _

variable {d : HevcDepacketizer} {cursor seq : UInt16} {packet : Packet}

theorem size_insert_le (d : HevcDepacketizer) (seq : UInt16) (packet : Packet) :
    (d.insert seq packet).reorder.size ≤ d.reorder.size + 1 := Std.TreeMap.size_insert_le

theorem not_stale_begun (h : d.nextSeq = none) : (d.begun seq).stale seq = false := by
  unfold HevcDepacketizer.begun HevcDepacketizer.stale
  rw [h]
  show seqLessThan seq seq = false
  rw [Bool.eq_false_iff, ne_eq, seqLessThan_iff, ahead_self]
  omega

theorem head_keys_of_pos (h : 0 < d.reorder.size) : ∃ lowest, d.reorder.keys.head? = some lowest := by
  rw [← Std.TreeMap.length_keys] at h
  obtain ⟨lowest, rest, hkeys⟩ := List.exists_cons_of_ne_nil (List.ne_nil_of_length_pos h)
  exact ⟨lowest, by rw [hkeys]; rfl⟩

/-- At a gap the lowest packet at least is processed. -/
theorem skipped_drained {d' d'' : HevcDepacketizer} {taken : List Packet}
    (hdrained : HevcDepacketizer.Drained d' d'' cursor taken) (hmem : cursor ∈ d'.reorder) :
    taken ≠ [] := by
  intro heq
  subst heq
  have hstop : d''.reorder[cursor]? = none := by simpa using hdrained.stop
  have hrest := hdrained.rest cursor
  rw [ahead_self, List.length_nil, if_neg (Nat.lt_irrefl _), hstop] at hrest
  rw [Std.TreeMap.mem_iff_isSome_getElem?, ← hrest] at hmem
  cases hmem

theorem settled_drained {d' : HevcDepacketizer} {taken : List Packet}
    (hdrained : HevcDepacketizer.Drained d d' cursor taken)
    (hsize : d'.reorder.size ≤ maxReorderBuffer) : Settled d' where
  fresh h := by rw [hdrained.next] at h; cases h
  missing other h := by
    rw [hdrained.next] at h
    cases h
    exact hdrained.stop
  bounded := hsize

theorem settled_push (h : Settled d) : Settled (d.push seq packet) := by
  unfold HevcDepacketizer.push
  dsimp only
  split
  · rename_i hstale
    have hnext : (d.begun seq).nextSeq = d.nextSeq := by
      unfold HevcDepacketizer.begun
      rcases heq : d.nextSeq with _ | cursor
      · rw [not_stale_begun heq] at hstale
        cases hstale
      · rfl
    constructor
    · rw [hnext]
      exact h.fresh
    · rw [hnext]
      exact h.missing
    · exact h.bounded
  · have hfirst := HevcDepacketizer.drainInOrder_drained
      (rfl : ((d.begun seq).insert seq packet).nextSeq = some (d.nextSeq.getD seq))
    have hsize := hfirst.size
    have hle : ((d.begun seq).insert seq packet).reorder.size ≤ d.reorder.size + 1 :=
      size_insert_le (d.begun seq) seq packet
    have hbounded := h.bounded
    unfold HevcDepacketizer.skipGap
    split
    · obtain ⟨lowest, hlowest⟩ := head_keys_of_pos
        (d := ((d.begun seq).insert seq packet).drainInOrder) (by omega)
      rw [hlowest]
      dsimp only
      have hsecond := HevcDepacketizer.drainInOrder_drained (rfl :
        (((d.begun seq).insert seq packet).drainInOrder.skipTo lowest).nextSeq = some lowest)
      apply settled_drained hsecond
      have hpos := List.length_pos_of_ne_nil (skipped_drained hsecond (head_keys hlowest).1)
      have hsize' := hsecond.size
      have hsame : (((d.begun seq).insert seq packet).drainInOrder.skipTo lowest).reorder.size =
        ((d.begun seq).insert seq packet).drainInOrder.reorder.size := rfl
      omega
    · apply settled_drained hfirst
      omega

end Settled

section Entries

variable {position : ℤ} {cursor : UInt16} {packets : List Packet}

theorem mem_entries {entry : Entry} (h : entry ∈ entries position cursor packets) :
    ∃ (i : ℕ) (hi : i < packets.length),
      entry = ⟨position + i, cursor + UInt16.ofNat i, packets[i]⟩ := by
  induction packets generalizing position cursor with
  | nil => cases h
  | cons packet rest ih =>
    rcases List.mem_cons.mp h with rfl | hrest
    · exact ⟨0, Nat.succ_pos _, by simp⟩
    · obtain ⟨i, hi, rfl⟩ := ih hrest
      refine ⟨i + 1, Nat.succ_lt_succ hi, ?_⟩
      simp only [List.getElem_cons_succ, Entry.mk.injEq, and_true]
      constructor
      · push_cast
        omega
      · exact add_one_add_ofNat cursor i

theorem entries_sorted : ((entries position cursor packets).map Entry.number).Pairwise (· < ·) := by
  induction packets generalizing position cursor with
  | nil => exact List.Pairwise.nil
  | cons packet rest ih =>
    refine List.Pairwise.cons ?_ ih
    intro number hnumber
    obtain ⟨entry, hentry, rfl⟩ := List.mem_map.mp hnumber
    obtain ⟨i, hi, rfl⟩ := mem_entries hentry
    dsimp only
    omega

theorem seqLessThan_succ : seqLessThan cursor (cursor + 1) = true := by
  have hahead : ahead cursor (cursor + 1) = 1 := ahead_add (k := 1) (by omega)
  rw [seqLessThan_iff, hahead]
  omega

theorem entries_serial :
    ((entries position cursor packets).map Entry.seq).IsChain
      fun a b => seqLessThan a b = true := by
  induction packets generalizing position cursor with
  | nil => exact List.IsChain.nil
  | cons packet rest ih =>
    cases rest with
    | nil => exact List.IsChain.singleton _
    | cons next rest => exact List.IsChain.cons_cons seqLessThan_succ ih

theorem getLast?_entries {entry : Entry} (h : entry ∈ (entries position cursor packets).getLast?) :
    entry.seq + 1 = cursor + UInt16.ofNat packets.length := by
  induction packets generalizing position cursor with
  | nil => cases h
  | cons packet rest ih =>
    rw [List.length_cons, ← add_one_add_ofNat]
    cases rest with
    | nil =>
      obtain rfl : ⟨position, cursor, packet⟩ = entry := by simpa [entries] using h
      simp
    | cons next rest =>
      apply ih
      simpa [entries] using h

end Entries

section Stalls

/-- After the arrival too many packets wait behind a gap. -/
def Stalls (d : HevcDepacketizer) (seq : UInt16) : Prop :=
  ∃ cursor, d.nextSeq = some cursor ∧ seqLessThan seq cursor = false ∧ seq ≠ cursor ∧
    seq ∉ d.reorder ∧ d.reorder.size = maxReorderBuffer

/-- Some of the waiting sequence numbers are below the cursor and some above, as bare
numbers. -/
def Straddles (d : HevcDepacketizer) (seq : UInt16) : Prop :=
  ∃ cursor, d.nextSeq = some cursor ∧ ∃ low high, (low = seq ∨ low ∈ d.reorder) ∧
    (high = seq ∨ high ∈ d.reorder) ∧ low.toNat < cursor.toNat ∧ cursor.toNat < high.toNat

/-- Where the arrival makes `push` give up a gap, the waiting packet that the cursor moves
to is the earliest in serial order. -/
def EarliestChosen (d : HevcDepacketizer) (arrival : UInt16 × Packet) : Prop :=
  let waiting := ((d.begun arrival.1).insert arrival.1 arrival.2).drainInOrder
  (d.begun arrival.1).stale arrival.1 = false → waiting.reorder.size > maxReorderBuffer →
    ∀ cursor lowest, waiting.nextSeq = some cursor → waiting.reorder.keys.head? = some lowest →
      ∀ key ∈ waiting.reorder, ahead cursor lowest ≤ ahead cursor key

/-- No packet behind the cursor waits. -/
def NoneBehind (d : HevcDepacketizer) : Prop :=
  ∀ cursor, d.nextSeq = some cursor → ∀ key ∈ d.reorder, seqLessThan key cursor = false

variable {d : HevcDepacketizer} {seq cursor : UInt16} {packet : Packet}

theorem begun_insert_nextSeq (h : d.nextSeq = some cursor) (seq : UInt16) (packet : Packet) :
    ((d.begun seq).insert seq packet).nextSeq = some cursor := by
  unfold HevcDepacketizer.insert HevcDepacketizer.begun
  rw [h]
  rfl

theorem stale_begun (h : d.nextSeq = some cursor) :
    (d.begun seq).stale seq = seqLessThan seq cursor := by
  unfold HevcDepacketizer.stale HevcDepacketizer.begun
  rw [h]
  rfl

theorem getElem?_inserted (k : UInt16) :
    ((d.begun seq).insert seq packet).reorder[k]? =
      if seq = k then some packet else d.reorder[k]? := getElem?_insert seq packet

theorem size_inserted (d : HevcDepacketizer) (seq : UInt16) (packet : Packet) :
    ((d.begun seq).insert seq packet).reorder.size =
      if d.reorder.contains seq = true then d.reorder.size else d.reorder.size + 1 :=
  Std.TreeMap.size_insert

theorem Stalls.ne_cursor (h : Settled d) (hstalls : Stalls d seq) (hnext : d.nextSeq = some cursor)
    {key : UInt16} (hkey : key = seq ∨ key ∈ d.reorder) : key.toNat ≠ cursor.toNat := by
  obtain ⟨other, hother, -, hne, -, -⟩ := hstalls
  rw [hother] at hnext
  cases hnext
  rw [ne_eq, UInt16.toNat_inj]
  rcases hkey with rfl | hold
  · exact hne
  · intro heq
    subst heq
    rw [Std.TreeMap.mem_iff_isSome_getElem?, h.missing _ hother] at hold
    cases hold

/-- At a stall nothing is drained: the packets that wait are those from before and the
one that arrived. -/
theorem Stalls.waiting (h : Settled d) (hstalls : Stalls d seq) (packet : Packet) :
    let waiting := ((d.begun seq).insert seq packet).drainInOrder
    (d.begun seq).stale seq = false ∧ waiting.nextSeq = d.nextSeq ∧
      waiting.reorder.size = maxReorderBuffer + 1 ∧
      ∀ key, key ∈ waiting.reorder ↔ key = seq ∨ key ∈ d.reorder := by
  obtain ⟨cursor, hnext, hstale, hne, hnew, hsize⟩ := hstalls
  have hdrained := HevcDepacketizer.drainInOrder_drained
    (begun_insert_nextSeq hnext seq packet)
  have hmissing : ((d.begun seq).insert seq packet).reorder[cursor]? = none := by
    rw [getElem?_inserted, if_neg hne, h.missing cursor hnext]
  have hnil : ((d.begun seq).insert seq packet).drained = [] := by
    by_contra hcons
    have hfirst := hdrained.inOrder 0 (List.length_pos_of_ne_nil hcons)
    rw [show cursor + UInt16.ofNat 0 = cursor by simp, hmissing] at hfirst
    cases hfirst
  rw [hnil] at hdrained
  refine ⟨by rw [stale_begun hnext, hstale], ?_, ?_, ?_⟩
  · rw [hdrained.next, hnext]
    simp
  · have hinserted := size_inserted d seq packet
    rw [if_neg (show ¬ d.reorder.contains seq = true from hnew)] at hinserted
    have hkept := hdrained.size
    rw [List.length_nil] at hkept
    omega
  · intro key
    rw [Std.TreeMap.mem_iff_isSome_getElem?, Std.TreeMap.mem_iff_isSome_getElem?,
      hdrained.rest key, List.length_nil, if_neg (Nat.not_lt_zero _), getElem?_inserted]
    by_cases heq : seq = key
    · simp [heq]
    · rw [if_neg heq]
      constructor
      · exact Or.inr
      · intro hcase
        rcases hcase with hkey | hkey
        · exact absurd hkey.symm heq
        · exact hkey

theorem stalls_of_size (h : Settled d) (hstale : (d.begun seq).stale seq = false)
    (hsize : ((d.begun seq).insert seq packet).drainInOrder.reorder.size > maxReorderBuffer) :
    Stalls d seq := by
  have hbounded := h.bounded
  have hle : ((d.begun seq).insert seq packet).reorder.size ≤ d.reorder.size + 1 :=
    size_insert_le (d.begun seq) seq packet
  rcases hnext : d.nextSeq with _ | cursor
  · have hzero := h.fresh hnext
    have hdrained := HevcDepacketizer.drainInOrder_drained
      (rfl : ((d.begun seq).insert seq packet).nextSeq = some (d.nextSeq.getD seq))
    have hkept := hdrained.size
    unfold maxReorderBuffer at hsize
    omega
  · have hdrained := HevcDepacketizer.drainInOrder_drained
      (begun_insert_nextSeq hnext seq packet)
    have hkept := hdrained.size
    rw [stale_begun hnext] at hstale
    refine ⟨cursor, hnext, hstale, ?_, ?_, ?_⟩
    · intro heq
      subst heq
      have hmem : seq ∈ ((d.begun seq).insert seq packet).reorder := by
        rw [Std.TreeMap.mem_iff_isSome_getElem?, getElem?_inserted, if_pos rfl]
        rfl
      have hpos := List.length_pos_of_ne_nil (skipped_drained hdrained hmem)
      omega
    · intro hmem
      have hinserted := size_inserted d seq packet
      rw [if_pos (show d.reorder.contains seq = true from hmem)] at hinserted
      omega
    · omega

/-- The packet with the least bare number is the earliest one exactly if the waiting
numbers lie in one period. -/
theorem earliestChosen_iff (h : Settled d) :
    EarliestChosen d (seq, packet) ↔ (Stalls d seq → ¬ Straddles d seq) := by
  constructor
  · intro hchosen hstalls hgiven
    obtain ⟨cursor, hnext, low, high, hlow, hhigh, hlt, hgt⟩ := hgiven
    obtain ⟨hstale, hcursor, hsize, hmem⟩ := hstalls.waiting h packet
    obtain ⟨lowest, hlowest⟩ := head_keys_of_pos
      (d := ((d.begun seq).insert seq packet).drainInOrder) (by omega)
    have hle := hchosen hstale (by rw [hsize]; omega) cursor lowest (hcursor.trans hnext) hlowest
      high ((hmem high).mpr hhigh)
    have hleast := (head_keys hlowest).2 low ((hmem low).mpr hlow)
    have hcursorLt := cursor.toNat_lt
    have hhighLt := high.toNat_lt
    rw [ahead_eq, ahead_eq] at hle
    omega
  · intro hperiod hstale hsize cursor lowest hcursor hlowest key hkey
    have hstalls := stalls_of_size h hstale hsize
    have hnot := hperiod hstalls
    obtain ⟨-, hnext, -, hmem⟩ := hstalls.waiting h packet
    rw [hnext] at hcursor
    have hleast := (head_keys hlowest).2 key hkey
    have hlowestMem := (hmem lowest).mp (head_keys hlowest).1
    have hkeyMem := (hmem key).mp hkey
    have hone : ¬ (lowest.toNat < cursor.toNat ∧ cursor.toNat < key.toNat) := by
      intro hgiven
      obtain ⟨hlt, hgt⟩ := hgiven
      exact hnot ⟨cursor, hcursor, lowest, key, hlowestMem, hkeyMem, hlt, hgt⟩
    have hcursorLt := cursor.toNat_lt
    have hkeyLt := key.toNat_lt
    have hlowestNe := hstalls.ne_cursor h hcursor hlowestMem
    have hkeyNe := hstalls.ne_cursor h hcursor hkeyMem
    rw [ahead_eq, ahead_eq]
    omega

end Stalls

section Order

/-- What holds of a trace whose cursor is `cursor`: the waiting packets are at most half a
period ahead, with the numbers they arrived with, and what was processed lies behind. -/
structure Ordered (t : Trace) (cursor : UInt16) : Prop where
  next : t.depacketizer.nextSeq = some cursor
  near : ∀ key ∈ t.depacketizer.reorder, ahead cursor key ≤ 2 ^ 15
  buffered : ∀ key packet, t.depacketizer.reorder[key]? = some packet →
    ⟨t.position + ahead cursor key, key, packet⟩ ∈ t.arrived
  below : ∀ entry ∈ t.processed, entry.number < t.position
  sorted : (t.processed.map Entry.number).Pairwise (· < ·)
  received : ∀ entry ∈ t.processed, entry ∈ t.arrived
  serial : (t.processed.map Entry.seq).IsChain fun a b => seqLessThan a b = true
  before : ∀ entry ∈ t.processed.getLast?, seqLessThan entry.seq cursor = true

/-- The last packet that was processed is the one before the cursor. -/
def Follows (t : Trace) (cursor : UInt16) : Prop :=
  ∀ entry ∈ t.processed.getLast?, entry.seq + 1 = cursor

variable {t : Trace} {cursor seq : UInt16} {packet : Packet}

theorem Ordered.drain (h : Ordered t cursor) (hsize : t.depacketizer.reorder.size < 2 ^ 16) :
    Ordered (t.drain cursor) (cursor + UInt16.ofNat t.depacketizer.drained.length) := by
  have hdrained := HevcDepacketizer.drainInOrder_drained h.next
  obtain ⟨taken, htaken⟩ : ∃ taken, t.depacketizer.drained = taken := ⟨_, rfl⟩
  have hprocessed : (t.drain cursor).processed = t.processed ++ entries t.position cursor taken := by
    rw [← htaken]
    rfl
  have hposition : (t.drain cursor).position = t.position + taken.length := by
    rw [← htaken]
    rfl
  rw [htaken] at hdrained ⊢
  have hlength := hdrained.size
  have hmoved : ∀ key packet, (t.drain cursor).depacketizer.reorder[key]? = some packet →
      t.depacketizer.reorder[key]? = some packet ∧ taken.length ≤ ahead cursor key := by
    intro key packet hget
    have hrest := hdrained.rest key
    rw [show (t.drain cursor).depacketizer = t.depacketizer.drainInOrder from rfl, hrest] at hget
    split at hget
    · cases hget
    · exact ⟨hget, by omega⟩
  constructor
  · exact hdrained.next
  · intro key hkey
    obtain ⟨packet, hpacket⟩ := Option.isSome_iff_exists.mp
      (Std.TreeMap.mem_iff_isSome_getElem?.mp hkey)
    obtain ⟨hold, hle⟩ := hmoved key packet hpacket
    have hnear := h.near key (mem_of_getElem? hold)
    rw [ahead_moved hle]
    omega
  · intro key packet hpacket
    obtain ⟨hold, hle⟩ := hmoved key packet hpacket
    have heq : (t.drain cursor).position + (ahead (cursor + UInt16.ofNat taken.length) key : ℤ) =
        t.position + ahead cursor key := by
      rw [hposition, ahead_moved hle]
      omega
    rw [heq]
    exact h.buffered key packet hold
  · intro entry hentry
    rw [hprocessed] at hentry
    rw [hposition]
    rcases List.mem_append.mp hentry with hold | hnew
    · have hlt := h.below entry hold
      omega
    · obtain ⟨i, hi, rfl⟩ := mem_entries hnew
      dsimp only
      omega
  · rw [hprocessed, List.map_append, List.pairwise_append]
    refine ⟨h.sorted, entries_sorted, ?_⟩
    intro number hnumber number' hnumber'
    obtain ⟨entry, hentry, rfl⟩ := List.mem_map.mp hnumber
    obtain ⟨entry', hentry', rfl⟩ := List.mem_map.mp hnumber'
    obtain ⟨i, hi, rfl⟩ := mem_entries hentry'
    have hlt := h.below entry hentry
    dsimp only
    omega
  · intro entry hentry
    rw [hprocessed] at hentry
    rcases List.mem_append.mp hentry with hold | hnew
    · exact h.received entry hold
    · obtain ⟨i, hi, rfl⟩ := mem_entries hnew
      have hmem := h.buffered _ _ (hdrained.inOrder i hi)
      rw [ahead_add (by omega)] at hmem
      exact hmem
  · rw [hprocessed, List.map_append, List.isChain_append]
    refine ⟨h.serial, entries_serial, ?_⟩
    intro last hlast first hfirst
    rw [List.getLast?_map, Option.mem_map] at hlast
    obtain ⟨entry, hentry, rfl⟩ := hlast
    have hcursor : first = cursor := by
      cases taken with
      | nil => cases hfirst
      | cons packet rest => simpa [entries] using hfirst.symm
    rw [hcursor]
    exact h.before entry hentry
  · intro entry hentry
    rw [hprocessed] at hentry
    rcases hlist : taken with _ | ⟨packet, rest⟩
    · rw [hlist] at hentry
      have hold : entry ∈ t.processed.getLast? := by simpa [entries] using hentry
      simpa using h.before entry hold
    · have hlast : entry ∈ (entries t.position cursor taken).getLast? := by
        rw [hlist] at hentry ⊢
        rw [List.getLast?_append_of_ne_nil _ (by simp [entries])] at hentry
        exact hentry
      rw [← hlist, ← getLast?_entries hlast]
      exact seqLessThan_succ

theorem Follows.drain (h : t.depacketizer.drained = [] → Follows t cursor) :
    Follows (t.drain cursor) (cursor + UInt16.ofNat t.depacketizer.drained.length) := by
  intro entry hentry
  change entry ∈ (t.processed ++ entries t.position cursor t.depacketizer.drained).getLast? at hentry
  rcases hlist : t.depacketizer.drained with _ | ⟨packet, rest⟩
  · rw [hlist] at hentry
    have hold : entry ∈ t.processed.getLast? := by simpa [entries] using hentry
    simpa using h hlist entry hold
  · rw [hlist, List.getLast?_append_of_ne_nil _ (by simp [entries])] at hentry
    exact getLast?_entries hentry

/-- Of more than 128 packets within half a period, the first is well below its end. -/
theorem lowest_near {d : HevcDepacketizer} {lowest : UInt16} (hsize : d.reorder.size > maxReorderBuffer)
    (hnear : ∀ key ∈ d.reorder, ahead cursor key ≤ 2 ^ 15)
    (hleast : ∀ key ∈ d.reorder, ahead cursor lowest ≤ ahead cursor key) :
    ahead cursor lowest + 1 < 2 ^ 15 := by
  have hcard := size_le_card (m := d.reorder) (s := Finset.Icc (ahead cursor lowest) (2 ^ 15))
    (f := ahead cursor) (fun key _ key' _ heq => ahead_inj heq)
    (fun key hkey => Finset.mem_Icc.mpr ⟨hleast key hkey, hnear key hkey⟩)
  rw [Nat.card_Icc] at hcard
  unfold maxReorderBuffer at hsize
  omega

theorem Ordered.skipTo (h : Ordered t cursor) (hfollows : Follows t cursor) {lowest : UInt16}
    (hsize : t.depacketizer.reorder.size > maxReorderBuffer)
    (hleast : ∀ key ∈ t.depacketizer.reorder, ahead cursor lowest ≤ ahead cursor key) :
    Ordered (t.skipTo cursor lowest) lowest := by
  have hmoved : ∀ key ∈ t.depacketizer.reorder,
      ahead lowest key = ahead cursor key - ahead cursor lowest := by
    intro key hkey
    have heq := ahead_moved (hleast key hkey)
    rwa [add_ahead] at heq
  constructor
  · rfl
  · intro key hkey
    have hnear := h.near key hkey
    rw [hmoved key hkey]
    omega
  · intro key packet hpacket
    have hkey := mem_of_getElem? hpacket
    have hle := hleast key hkey
    have heq : (t.skipTo cursor lowest).position + (ahead lowest key : ℤ) =
        t.position + ahead cursor key := by
      show t.position + (ahead cursor lowest : ℤ) + _ = _
      rw [hmoved key hkey]
      omega
    rw [heq]
    exact h.buffered key packet hpacket
  · intro entry hentry
    have hlt := h.below entry hentry
    show entry.number < t.position + (ahead cursor lowest : ℤ)
    omega
  · exact h.sorted
  · exact h.received
  · exact h.serial
  · intro entry hentry
    have hcursor : entry.seq + 1 = cursor := hfollows entry hentry
    have hnear := lowest_near hsize h.near hleast
    -- one step to the cursor, and fewer than half a period from there
    have hone : ahead entry.seq cursor = 1 := by
      rw [← hcursor]
      exact ahead_add (k := 1) (by omega)
    have hsum : ahead entry.seq lowest = ahead entry.seq cursor + ahead cursor lowest :=
      ahead_trans (by omega)
    rw [seqLessThan_iff, hsum]
    omega

theorem Ordered.insert (h : Ordered t cursor) (hstale : seqLessThan seq cursor = false)
    (packet : Packet) : Ordered (t.insert cursor seq packet) cursor := by
  have hnumber : numberOf t.position cursor seq = t.position + ahead cursor seq := by
    unfold numberOf
    rw [if_neg (by rw [hstale]; exact Bool.false_ne_true)]
  constructor
  · exact begun_insert_nextSeq h.next seq packet
  · intro key hkey
    obtain ⟨other, hother⟩ := Option.isSome_iff_exists.mp
      (Std.TreeMap.mem_iff_isSome_getElem?.mp hkey)
    rw [show (t.insert cursor seq packet).depacketizer.reorder[key]? = _ from
      getElem?_inserted key] at hother
    split at hother
    · rename_i heq
      rw [← heq]
      rw [Bool.eq_false_iff, ne_eq, seqLessThan_start] at hstale
      omega
    · exact h.near key (mem_of_getElem? hother)
  · intro key other hother
    rw [show (t.insert cursor seq packet).depacketizer.reorder[key]? = _ from
      getElem?_inserted key] at hother
    show _ ∈ t.arrived ++ [_]
    split at hother
    · rename_i heq
      cases hother
      rw [← heq, hnumber]
      exact List.mem_append_right _ (List.mem_singleton_self _)
    · exact List.mem_append_left _ (h.buffered key other hother)
  · exact h.below
  · exact h.sorted
  · intro entry hentry
    exact List.mem_append_left _ (h.received entry hentry)
  · exact h.serial
  · exact h.before

/-- The first packet of a run. -/
theorem ordered_first (hs : Settled t.depacketizer) (hnext : t.depacketizer.nextSeq = none)
    (hprocessed : t.processed = []) (seq : UInt16) (packet : Packet) :
    Ordered (t.insert seq seq packet) seq := by
  have hempty (key : UInt16) : t.depacketizer.reorder[key]? = none := by
    apply Std.TreeMap.getElem?_of_isEmpty
    rw [Std.TreeMap.isEmpty_eq_size_eq_zero, beq_iff_eq]
    exact hs.fresh hnext
  have hnumber : numberOf t.position seq seq = t.position + ahead seq seq := by
    unfold numberOf
    rw [if_neg (by rw [seqLessThan_iff, ahead_self]; omega)]
  have hprocessed' : (t.insert seq seq packet).processed = [] := hprocessed
  have honly : ∀ key other, (t.insert seq seq packet).depacketizer.reorder[key]? = some other →
      seq = key ∧ packet = other := by
    intro key other hother
    rw [show (t.insert seq seq packet).depacketizer.reorder[key]? = _ from
      getElem?_inserted key, hempty] at hother
    split at hother
    · rename_i heq
      exact ⟨heq, by simpa using hother⟩
    · cases hother
  constructor
  · show some (t.depacketizer.nextSeq.getD seq) = some seq
    rw [hnext]
    rfl
  · intro key hkey
    obtain ⟨other, hother⟩ := Option.isSome_iff_exists.mp
      (Std.TreeMap.mem_iff_isSome_getElem?.mp hkey)
    rw [← (honly key other hother).1, ahead_self]
    omega
  · intro key other hother
    obtain ⟨hkey, hpacket⟩ := honly key other hother
    rw [← hkey, ← hpacket]
    show _ ∈ t.arrived ++ [_]
    rw [hnumber]
    exact List.mem_append_right _ (List.mem_singleton_self _)
  all_goals rw [hprocessed']
  · simp
  · exact List.Pairwise.nil
  · simp
  · exact List.IsChain.nil
  · simp

/-- The cursor is not set yet, or the trace is in order. -/
def InOrder (t : Trace) : Prop :=
  (t.depacketizer.nextSeq = none ∧ t.processed = []) ∨
    ∃ cursor, Ordered t cursor ∧ Follows t cursor

theorem inOrder_skipGap (h : Ordered t cursor) (hfollows : Follows t cursor)
    (hsize : t.depacketizer.reorder.size ≤ maxReorderBuffer + 1)
    (hchosen : t.depacketizer.reorder.size > maxReorderBuffer → ∀ lowest,
      t.depacketizer.reorder.keys.head? = some lowest →
        ∀ key ∈ t.depacketizer.reorder, ahead cursor lowest ≤ ahead cursor key) :
    InOrder t.skipGap := by
  unfold Trace.skipGap
  split
  · rename_i hgt
    obtain ⟨lowest, hlowest⟩ := head_keys_of_pos (d := t.depacketizer) (by omega)
    rw [hlowest, h.next]
    dsimp only [Option.getD_some]
    have hskipped := h.skipTo hfollows hgt (hchosen hgt lowest hlowest)
    refine Or.inr ⟨_, hskipped.drain ?_, Follows.drain ?_⟩
    · show t.depacketizer.reorder.size < 2 ^ 16
      unfold maxReorderBuffer at hsize
      omega
    · intro hnil
      exact absurd hnil (skipped_drained (HevcDepacketizer.drainInOrder_drained hskipped.next)
        (head_keys hlowest).1)
  · exact Or.inr ⟨cursor, h, hfollows⟩

theorem inOrder_push {arrival : UInt16 × Packet} (hs : Settled t.depacketizer) (h : InOrder t)
    (hchosen : EarliestChosen t.depacketizer arrival) : InOrder (t.push arrival) := by
  obtain ⟨seq, packet⟩ := arrival
  have hbounded := hs.bounded
  have hle : (t.insert (t.depacketizer.nextSeq.getD seq) seq packet).depacketizer.reorder.size ≤
      t.depacketizer.reorder.size + 1 := size_insert_le (t.depacketizer.begun seq) seq packet
  -- what is left to do after the packet was put into the map
  have hrest : (t.depacketizer.begun seq).stale seq = false →
      Ordered (t.insert (t.depacketizer.nextSeq.getD seq) seq packet)
        (t.depacketizer.nextSeq.getD seq) →
      ((t.insert (t.depacketizer.nextSeq.getD seq) seq packet).depacketizer.drained = [] →
        Follows (t.insert (t.depacketizer.nextSeq.getD seq) seq packet)
          (t.depacketizer.nextSeq.getD seq)) →
      InOrder ((t.insert (t.depacketizer.nextSeq.getD seq) seq packet).drain
        (t.depacketizer.nextSeq.getD seq)).skipGap := by
    intro hstale hinserted hfollows
    have hdrained := hinserted.drain (by unfold maxReorderBuffer at hbounded; omega)
    have hkept := (HevcDepacketizer.drainInOrder_drained hinserted.next).size
    apply inOrder_skipGap hdrained (Follows.drain hfollows)
    · show (t.insert _ seq packet).depacketizer.drainInOrder.reorder.size ≤ _
      omega
    · intro hgt lowest hlowest
      exact hchosen hstale hgt _ lowest hdrained.next hlowest
  unfold Trace.push
  dsimp only
  rcases h with ⟨hnext, hprocessed⟩ | ⟨cursor, hordered, hfollows⟩
  · have hstale : (t.depacketizer.begun seq).stale seq = false := not_stale_begun hnext
    rw [if_neg (by rw [hstale]; exact Bool.false_ne_true)]
    have hcursor : t.depacketizer.nextSeq.getD seq = seq := by
      rw [hnext]
      rfl
    apply hrest hstale
    · rw [hcursor]
      exact ordered_first hs hnext hprocessed seq packet
    · intro _ entry hentry
      change entry ∈ t.processed.getLast? at hentry
      rw [hprocessed] at hentry
      cases hentry
  · have hcursor : t.depacketizer.nextSeq.getD seq = cursor := by
      rw [hordered.next]
      rfl
    split
    · have hbegun : t.depacketizer.begun seq = t.depacketizer := by
        unfold HevcDepacketizer.begun
        rw [hcursor, ← hordered.next]
      rw [hbegun]
      refine Or.inr ⟨cursor, ?_, hfollows⟩
      exact { hordered with
        buffered := fun key packet hget =>
          List.mem_append_left _ (hordered.buffered key packet hget)
        received := fun entry hentry =>
          List.mem_append_left _ (hordered.received entry hentry) }
    · rename_i hstale
      have hstale : (t.depacketizer.begun seq).stale seq = false := by simpa using hstale
      apply hrest hstale
      · rw [hcursor]
        rw [stale_begun hordered.next] at hstale
        exact hordered.insert hstale packet
      · intro _
        rw [hcursor]
        exact hfollows

end Order

/-- The payloads are processed in serial order, each received packet at most once. -/
structure ProcessedInOrder (t : Trace) : Prop where
  serial : (t.processed.map Entry.seq).IsChain fun a b => seqLessThan a b = true
  sorted : (t.processed.map Entry.number).Pairwise (· < ·)
  received : ∀ entry ∈ t.processed, entry ∈ t.arrived

theorem settled_run (arrivals : List (UInt16 × Packet)) :
    Settled (Trace.run arrivals).depacketizer := by
  induction arrivals using List.reverseRecOn with
  | nil => exact settled_new
  | append_singleton arrivals arrival ih =>
    rw [Trace.run_concat, Trace.depacketizer_push]
    exact settled_push ih

theorem inOrder_run (arrivals : List (UInt16 × Packet))
    (h : ∀ before arrival after, arrivals = before ++ arrival :: after →
      EarliestChosen (Trace.run before).depacketizer arrival) : InOrder (Trace.run arrivals) := by
  induction arrivals using List.reverseRecOn with
  | nil => exact Or.inl ⟨rfl, rfl⟩
  | append_singleton arrivals arrival ih =>
    rw [Trace.run_concat]
    apply inOrder_push (settled_run arrivals)
    · apply ih
      intro before other after heq
      exact h before other (after ++ [arrival]) (by rw [heq]; simp)
    · exact h arrivals arrival [] rfl

theorem InOrder.noneBehind {t : Trace} (h : InOrder t) : NoneBehind t.depacketizer := by
  intro cursor hnext key hkey
  rcases h with ⟨hnone, -⟩ | ⟨cursor', hordered, -⟩
  · rw [hnone] at hnext
    cases hnext
  · rw [hordered.next] at hnext
    cases hnext
    have hnear := hordered.near key hkey
    rw [Bool.eq_false_iff, ne_eq, seqLessThan_start]
    omega

theorem InOrder.processed {t : Trace} (h : InOrder t) : ProcessedInOrder t := by
  rcases h with ⟨-, hnil⟩ | ⟨cursor, hordered, -⟩
  · constructor
    · rw [hnil]
      exact List.IsChain.nil
    · rw [hnil]
      exact List.Pairwise.nil
    · rw [hnil]
      simp
  · exact ⟨hordered.serial, hordered.sorted, hordered.received⟩

/-- A run processes its packets in order, gives up gaps at the earliest waiting packet and
leaves nothing behind its cursor, exactly if no stall straddles the wrap of the sequence
numbers. -/
theorem order_iff (arrivals : List (UInt16 × Packet)) :
    (ProcessedInOrder (Trace.run arrivals) ∧
      ∀ before arrival after, arrivals = before ++ arrival :: after →
        EarliestChosen (Trace.run before).depacketizer arrival ∧
        NoneBehind (Trace.run (before ++ [arrival])).depacketizer) ↔
    ∀ before arrival after, arrivals = before ++ arrival :: after →
      Stalls (Trace.run before).depacketizer arrival.1 →
        ¬ Straddles (Trace.run before).depacketizer arrival.1 := by
  constructor
  · rintro ⟨-, h⟩ before arrival after heq
    exact (earliestChosen_iff (settled_run before)).mp (h before arrival after heq).1
  · intro h
    have hchosen : ∀ before arrival after, arrivals = before ++ arrival :: after →
        EarliestChosen (Trace.run before).depacketizer arrival := by
      intro before arrival after heq
      exact (earliestChosen_iff (settled_run before)).mpr (h before arrival after heq)
    refine ⟨(inOrder_run arrivals hchosen).processed, ?_⟩
    intro before arrival after heq
    refine ⟨hchosen before arrival after heq, (inOrder_run _ ?_).noneBehind⟩
    intro first other rest hsplit
    apply hchosen first other (rest ++ after)
    have happend := congrArg (· ++ after) hsplit
    rw [heq]
    simpa using happend

/-- The packets 65500, 65502 to 65535 and 0 to 94: the gap at 65501 is given up. -/
def wrappingStall : List (UInt16 × Packet) :=
  (65500, 0, []) :: (List.range 129).map fun i => (UInt16.ofNat (65502 + i), 0, [])

/-- The cursor moves to the packet 0, and the ones before the wrap are left behind it. -/
theorem wrapping_stall_leaves_behind :
    ¬ ∀ arrivals : List (UInt16 × Packet),
      ProcessedInOrder (Trace.run arrivals) ∧
      ∀ before arrival after, arrivals = before ++ arrival :: after →
        EarliestChosen (Trace.run before).depacketizer arrival ∧
        NoneBehind (Trace.run (before ++ [arrival])).depacketizer := by
  intro h
  have hbehind := ((h wrappingStall).2 (wrappingStall.dropLast) (UInt16.ofNat (65502 + 128), 0, [])
    [] (by decide +kernel)).2
  rw [Trace.depacketizer_run] at hbehind
  have hmem : (65502 : UInt16) ∈ ((wrappingStall.dropLast ++
      [(UInt16.ofNat (65502 + 128), ((0, []) : Packet))]).foldl
        (fun d arrival => d.push arrival.1 arrival.2) HevcDepacketizer.new).reorder := by
    decide +kernel
  have hless := hbehind 95 (by decide +kernel) 65502 hmem
  revert hless
  decide

end XitForge.CoreDevice.Hevc
