import XitForge.CoreDevice.HevcReassembly

/-!
A stream of NAL units whose packets arrive in any order, some of them late, twice or not at
all. The index of the packet that the cursor waits for is followed through the calls of
`push`; at a gap the cursor jumps over indices and the fragment buffer is emptied.
-/
namespace XitForge.CoreDevice.Hevc

open SerialNumber

namespace Stream

variable (stream : Stream) (first : UInt16)

/-- A packet with its sequence number, where the numbers count on from `first`. -/
def arrival (i : Fin stream.packets.length) : UInt16 × Packet :=
  (first + UInt16.ofNat i, stream.packets[i])

def arrivals (indices : List (Fin stream.packets.length)) : List (UInt16 × Packet) :=
  indices.map (stream.arrival first)

/-- The items that are written while packets arrive. -/
def items (indices : List (Fin stream.packets.length)) : List Item :=
  HevcDepacketizer.new.itemsOf (stream.arrivals first indices)

end Stream

variable {stream : Stream} {first : UInt16}

/-- What was put together of the packets before the index `n`. -/
structure Assembled (stream : Stream) (n : ℕ) (s : NalAssembler) (items : List Item) : Prop where
  linked : ∃ start, Linked start (stream.slots.drop n) none ∧ Matches s start
  sublist : (units items).Sublist ((stream.slots.take n).flatMap Slot.completes)

/-- A trace whose cursor waits for the packet with the index `n`; the numbers of the trace
begin at the index `origin`. -/
structure Reassembled (stream : Stream) (first : UInt16) (origin : ℕ) (t : Trace)
    (items : List Item) (cursor : UInt16) (n : ℕ) : Prop where
  next : t.depacketizer.nextSeq = some cursor
  number : (n : ℤ) = origin + t.position
  cursor_eq : cursor = first + UInt16.ofNat n
  waiting : ∀ key packet, t.depacketizer.reorder[key]? = some packet →
    stream.packets[n + ahead cursor key]? = some packet
  assembled : Assembled stream n t.depacketizer.nal items

section Steps

variable {origin n : ℕ} {t : Trace} {s : NalAssembler} {items : List Item} {cursor seq : UInt16}
  {packet : Packet}

theorem Assembled.deliverAll (h : Assembled stream n s items) {taken : List Packet}
    (htaken : taken = (stream.packets.drop n).take taken.length) :
    Assembled stream (n + taken.length) (s.deliverAll taken)
      (items ++ s.deliverAllItems taken) := by
  obtain ⟨start, hlinked, hmatches⟩ := h.linked
  have hsplit : stream.slots.drop n =
      (stream.slots.drop n).take taken.length ++ stream.slots.drop (n + taken.length) := by
    rw [← List.drop_drop, List.take_append_drop]
  have hpayloads : taken.map Prod.snd =
      ((stream.slots.drop n).take taken.length).map Slot.payload := by
    rw [List.map_take, List.map_drop, stream.slots_payloads, ← List.map_drop, ← List.map_take,
      ← htaken]
  have hsound : ∀ slot ∈ (stream.slots.drop n).take taken.length, slot.Sound := by
    intro slot hslot
    exact stream.sound slot (List.mem_of_mem_drop (List.mem_of_mem_take hslot))
  rw [hsplit] at hlinked
  obtain ⟨hsublist, hfinish⟩ := deliverAll_matches hsound hpayloads hlinked hmatches
  refine ⟨hfinish, ?_⟩
  rw [units_append, List.take_add, List.flatMap_append]
  exact h.sublist.append hsublist

/-- Indices that are jumped over. -/
theorem Assembled.skip (h : Assembled stream n s items) {m : ℕ} (hle : n ≤ m) :
    Assembled stream m s.resetFu items := by
  obtain ⟨start, hlinked⟩ := stream.linked.drop m
  refine ⟨⟨start, hlinked, fun hactive => Bool.noConfusion hactive⟩, ?_⟩
  obtain ⟨more, rfl⟩ := Nat.exists_eq_add_of_le hle
  rw [List.take_add, List.flatMap_append]
  exact h.sublist.trans (List.sublist_append_left _ _)

/-- A packet that is not behind the cursor has the index that its number says. -/
theorem index_of_near {i : ℕ} (hbehind : n < i + 2 ^ 15) (hahead : i < n + 2 ^ 16)
    (hnot : seqLessThan (first + UInt16.ofNat i) (first + UInt16.ofNat n) = false) :
    i = n + ahead (first + UInt16.ofNat n) (first + UInt16.ofNat i) := by
  by_cases hle : n ≤ i
  · rw [ahead_add_ofNat hle hahead]
    omega
  · have hdistance : ahead (first + UInt16.ofNat i) (first + UInt16.ofNat n) = n - i :=
      ahead_add_ofNat (Nat.le_of_not_le hle) (by omega)
    rw [Bool.eq_false_iff, ne_eq, seqLessThan_iff, hdistance] at hnot
    omega

theorem Reassembled.drain (h : Reassembled stream first origin t items cursor n)
    (hsize : t.depacketizer.reorder.size < 2 ^ 16) :
    Reassembled stream first origin (t.drain cursor) (items ++ t.depacketizer.drainItems)
      (cursor + UInt16.ofNat t.depacketizer.drained.length)
      (n + t.depacketizer.drained.length) := by
  have hdrained := HevcDepacketizer.drainInOrder_drained h.next
  have hkept := hdrained.size
  have htaken : t.depacketizer.drained =
      (stream.packets.drop n).take t.depacketizer.drained.length := by
    apply List.ext_getElem?
    intro j
    by_cases hj : j < t.depacketizer.drained.length
    · have hpacket := h.waiting _ _ (hdrained.inOrder j hj)
      rw [ahead_add (by omega)] at hpacket
      rw [List.getElem?_take_of_lt hj, List.getElem?_drop, hpacket, List.getElem?_eq_getElem hj]
    · rw [List.getElem?_eq_none (Nat.le_of_not_lt hj), List.getElem?_eq_none]
      rw [List.length_take]
      omega
  constructor
  · exact hdrained.next
  · show ((n + t.depacketizer.drained.length : ℕ) : ℤ) =
      origin + (t.position + t.depacketizer.drained.length)
    have hnumber := h.number
    push_cast
    omega
  · rw [h.cursor_eq, add_ofNat_add]
  · intro key packet hget
    have hrest := hdrained.rest key
    rw [show (t.drain cursor).depacketizer = t.depacketizer.drainInOrder from rfl, hrest] at hget
    split_ifs at hget with hlt
    have hle : t.depacketizer.drained.length ≤ ahead cursor key := Nat.le_of_not_lt hlt
    rw [ahead_moved hle, Nat.add_assoc, Nat.add_sub_cancel' hle]
    exact h.waiting key packet hget
  · show Assembled stream _ t.depacketizer.drainInOrder.nal _
    rw [hdrained.nal]
    exact h.assembled.deliverAll htaken

/-- The cursor moves to the earliest packet that waits. -/
theorem Reassembled.skipTo (h : Reassembled stream first origin t items cursor n) {lowest : UInt16}
    (hleast : ∀ key ∈ t.depacketizer.reorder, ahead cursor lowest ≤ ahead cursor key) :
    Reassembled stream first origin (t.skipTo cursor lowest) items lowest
      (n + ahead cursor lowest) := by
  constructor
  · rfl
  · show ((n + ahead cursor lowest : ℕ) : ℤ) = origin + (t.position + ahead cursor lowest)
    have hnumber := h.number
    push_cast
    omega
  · rw [← add_ofNat_add, ← h.cursor_eq, add_ahead]
  · intro key packet hget
    have hle := hleast key (mem_of_getElem? hget)
    have hmoved := ahead_moved hle
    rw [add_ahead] at hmoved
    rw [hmoved, Nat.add_assoc, Nat.add_sub_cancel' hle]
    exact h.waiting key packet hget
  · exact h.assembled.skip (Nat.le_add_right ..)

theorem Reassembled.insert (h : Reassembled stream first origin t items cursor n)
    (hpacket : stream.packets[n + ahead cursor seq]? = some packet) :
    Reassembled stream first origin (t.insert cursor seq packet) items cursor n := by
  constructor
  · exact begun_insert_nextSeq h.next _ _
  · exact h.number
  · exact h.cursor_eq
  · intro key other hget
    rw [show (t.insert cursor seq packet).depacketizer.reorder[key]? = _ from
      getElem?_inserted key] at hget
    split_ifs at hget with heq
    · rw [← heq, hpacket, hget]
    · exact h.waiting key other hget
  · exact h.assembled

theorem Reassembled.skipGap (h : Reassembled stream first origin t items cursor n)
    (hsize : t.depacketizer.reorder.size ≤ maxReorderBuffer + 1)
    (hchosen : t.depacketizer.reorder.size > maxReorderBuffer → ∀ lowest,
      t.depacketizer.reorder.keys.head? = some lowest →
        ∀ key ∈ t.depacketizer.reorder, ahead cursor lowest ≤ ahead cursor key) :
    ∃ cursor' n', Reassembled stream first origin t.skipGap
      (items ++ t.depacketizer.skipGapItems) cursor' n' := by
  unfold Trace.skipGap HevcDepacketizer.skipGapItems
  split_ifs with hgt
  · obtain ⟨lowest, hlowest⟩ := head_keys_of_pos (d := t.depacketizer) (by omega)
    rw [hlowest, h.next]
    dsimp only [Option.getD_some]
    refine ⟨_, _, (h.skipTo (hchosen hgt lowest hlowest)).drain ?_⟩
    show t.depacketizer.reorder.size < 2 ^ 16
    unfold maxReorderBuffer at hsize
    omega
  · rw [List.append_nil]
    exact ⟨cursor, n, h⟩

/-- What follows after a packet was put into the map. -/
theorem Reassembled.settle (h : Reassembled stream first origin t items cursor n)
    (hsize : t.depacketizer.reorder.size ≤ maxReorderBuffer + 1)
    (hchosen : t.depacketizer.drainInOrder.reorder.size > maxReorderBuffer →
      ∀ cursor lowest, t.depacketizer.drainInOrder.nextSeq = some cursor →
        t.depacketizer.drainInOrder.reorder.keys.head? = some lowest →
        ∀ key ∈ t.depacketizer.drainInOrder.reorder, ahead cursor lowest ≤ ahead cursor key) :
    ∃ cursor' n', Reassembled stream first origin (t.drain cursor).skipGap
      (items ++ (t.depacketizer.drainItems ++ t.depacketizer.drainInOrder.skipGapItems))
      cursor' n' := by
  have hless : t.depacketizer.reorder.size < 2 ^ 16 := by
    unfold maxReorderBuffer at hsize
    omega
  have hdrained := h.drain hless
  have hkept := (HevcDepacketizer.drainInOrder_drained h.next).size
  rw [← List.append_assoc]
  apply hdrained.skipGap
  · show t.depacketizer.drainInOrder.reorder.size ≤ _
    omega
  · intro hgt lowest hlowest
    exact hchosen hgt _ lowest hdrained.next hlowest

end Steps

section Pushes

variable {origin n : ℕ} {t : Trace} {items : List Item} {cursor : UInt16}
  {i : Fin stream.packets.length}

/-- A packet that is near the cursor arrives. -/
theorem Reassembled.push (h : Reassembled stream first origin t items cursor n)
    (hs : Settled t.depacketizer) (hbehind : n < i + 2 ^ 15) (hahead : i < n + 2 ^ 16)
    (hchosen : EarliestChosen t.depacketizer (stream.arrival first i)) :
    ∃ cursor' n', Reassembled stream first origin (t.push (stream.arrival first i))
      (items ++ t.depacketizer.pushItems (stream.arrival first i).1 (stream.arrival first i).2)
      cursor' n' := by
  have hcursor : t.depacketizer.nextSeq.getD (first + UInt16.ofNat i) = cursor := by
    rw [h.next]
    rfl
  have hbegun : t.depacketizer.begun (first + UInt16.ofNat i) = t.depacketizer := by
    unfold HevcDepacketizer.begun
    rw [hcursor, ← h.next]
  unfold Trace.push HevcDepacketizer.pushItems Stream.arrival
  dsimp only
  split_ifs with hstale
  · rw [List.append_nil, hbegun]
    exact ⟨cursor, n, h.next, h.number, h.cursor_eq, h.waiting, h.assembled⟩
  · have hstale : (t.depacketizer.begun (first + UInt16.ofNat i)).stale (first + UInt16.ofNat i) =
        false := by simpa using hstale
    have hnot : seqLessThan (first + UInt16.ofNat i) cursor = false := by
      rwa [stale_begun h.next] at hstale
    have hpacket : stream.packets[n + ahead cursor (first + UInt16.ofNat i)]? =
        some stream.packets[i] := by
      rw [h.cursor_eq] at hnot ⊢
      rw [← index_of_near hbehind hahead hnot]
      exact List.getElem?_eq_getElem i.isLt
    rw [hcursor]
    apply (h.insert hpacket).settle
    · exact Nat.le_trans (size_insert_le _ _ _) (Nat.add_le_add_right hs.bounded 1)
    · exact hchosen hstale

theorem assembled_start (n : ℕ) : Assembled stream n {} [] := by
  obtain ⟨start, hlinked⟩ := stream.linked.drop n
  exact ⟨⟨start, hlinked, fun hactive => Bool.noConfusion hactive⟩, List.nil_sublist _⟩

/-- The first packet that arrives sets the cursor. -/
theorem reassembled_first (i : Fin stream.packets.length)
    (hchosen : EarliestChosen .new (stream.arrival first i)) :
    ∃ cursor n, Reassembled stream first i (Trace.start.push (stream.arrival first i))
      (HevcDepacketizer.new.pushItems (stream.arrival first i).1 (stream.arrival first i).2)
      cursor n := by
  have hstale : (HevcDepacketizer.new.begun (stream.arrival first i).1).stale
      (stream.arrival first i).1 = false := not_stale_begun rfl
  have hbegun : Reassembled stream first i
      ⟨HevcDepacketizer.new.begun (stream.arrival first i).1, 0, [], []⟩ []
      (stream.arrival first i).1 i := by
    constructor
    · rfl
    · exact (add_zero _).symm
    · rfl
    · intro key packet hget
      exact absurd hget (by simp [HevcDepacketizer.begun, HevcDepacketizer.new])
    · exact assembled_start i
  have hpacket : stream.packets[(i : ℕ) + ahead (stream.arrival first i).1
      (stream.arrival first i).1]? = some (stream.arrival first i).2 := by
    rw [ahead_self, Nat.add_zero]
    exact List.getElem?_eq_getElem i.isLt
  have hinserted := hbegun.insert hpacket
  unfold Trace.push HevcDepacketizer.pushItems
  dsimp only
  rw [show Trace.start.depacketizer = .new from rfl, if_neg (ne_true_of_eq_false hstale),
    if_neg (ne_true_of_eq_false hstale)]
  apply hinserted.settle
  · exact Nat.le_trans (size_insert_le _ _ _) (Nat.le_add_left ..)
  · exact hchosen hstale

end Pushes

namespace Stream

variable (stream : Stream) (first : UInt16)

/-- The index of the packet that the cursor waits for after packets have arrived. -/
def awaited : List (Fin stream.packets.length) → ℤ
  | [] => 0
  | start :: rest => start + (Trace.run (stream.arrivals first (start :: rest))).position

/-- Every packet arrives while it is less than half a period behind the packet that the
cursor waits for and less than a period ahead of it, and no gap is given up across the wrap
of the sequence numbers. -/
structure InReach (indices : List (Fin stream.packets.length)) : Prop where
  near : ∀ before (i : Fin stream.packets.length) after, indices = before ++ i :: after →
    before ≠ [] → stream.awaited first before < i + 2 ^ 15 ∧
      (i : ℤ) < stream.awaited first before + 2 ^ 16
  period : ∀ before i after, indices = before ++ i :: after →
    Stalls (Trace.run (stream.arrivals first before)).depacketizer (stream.arrival first i).1 →
      ¬ Straddles (Trace.run (stream.arrivals first before)).depacketizer
        (stream.arrival first i).1

end Stream

section Sizes

variable (d : HevcDepacketizer)

theorem size_skipGap_le : d.skipGap.reorder.size ≤ d.reorder.size := by
  unfold HevcDepacketizer.skipGap
  split_ifs
  · cases d.reorder.keys.head? with
    | none => exact Nat.le_refl _
    | some lowest =>
      have hdrained := HevcDepacketizer.drainInOrder_drained (d := d.skipTo lowest) rfl
      have hkept := hdrained.size
      rw [show (d.skipTo lowest).reorder = d.reorder from rfl] at hkept
      dsimp only
      omega
  · exact Nat.le_refl _

theorem size_push_le (seq : UInt16) (packet : Packet) :
    (d.push seq packet).reorder.size ≤ d.reorder.size + 1 := by
  unfold HevcDepacketizer.push
  dsimp only
  split_ifs
  · exact Nat.le_add_right _ 1
  · have hdrained := HevcDepacketizer.drainInOrder_drained
      (rfl : ((d.begun seq).insert seq packet).nextSeq = some (d.nextSeq.getD seq))
    have hkept := hdrained.size
    have hinserted : ((d.begun seq).insert seq packet).reorder.size ≤ d.reorder.size + 1 :=
      size_insert_le (d.begun seq) seq packet
    have hskipped := size_skipGap_le ((d.begun seq).insert seq packet).drainInOrder
    omega

end Sizes

section Runs

variable {start : Fin stream.packets.length} {indices : List (Fin stream.packets.length)}

theorem Stream.InReach.of_append {more : List (Fin stream.packets.length)}
    (h : stream.InReach first (indices ++ more)) : stream.InReach first indices where
  near before i after heq := by
    apply h.near before i (after ++ more)
    rw [heq, List.append_assoc, List.cons_append]
  period before i after heq := by
    apply h.period before i (after ++ more)
    rw [heq, List.append_assoc, List.cons_append]

/-- What the cursor waits for, and what was put together before it, after any run. -/
theorem reassembled_run (h : stream.InReach first (start :: indices)) :
    ∃ cursor n, Reassembled stream first start
      (Trace.run (stream.arrivals first (start :: indices)))
      (stream.items first (start :: indices)) cursor n := by
  have hchosen : ∀ before i after, start :: indices = before ++ i :: after →
      EarliestChosen (Trace.run (stream.arrivals first before)).depacketizer
        (stream.arrival first i) := by
    intro before i after heq
    exact (earliestChosen_iff (settled_run _)).mpr (h.period before i after heq)
  induction indices using List.reverseRecOn with
  | nil =>
    have hfirst := reassembled_first start (hchosen [] start [] rfl)
    unfold Stream.items
    rw [show stream.arrivals first [start] = [stream.arrival first start] from rfl,
      HevcDepacketizer.itemsOf, HevcDepacketizer.itemsOf, List.append_nil]
    exact hfirst
  | append_singleton indices i ih =>
    rw [← List.cons_append] at h hchosen
    obtain ⟨cursor, n, hn⟩ := ih h.of_append (by
      intro before j after heq
      apply hchosen before j (after ++ [i])
      rw [heq, List.append_assoc, List.cons_append])
    obtain ⟨hbehind, hahead⟩ := h.near (start :: indices) i [] rfl (List.cons_ne_nil _ _)
    have hawaited : stream.awaited first (start :: indices) = n := hn.number.symm
    rw [hawaited] at hbehind hahead
    have hpush := hn.push (settled_run _) (i := i) (by omega) (by omega)
      (hchosen (start :: indices) i [] rfl)
    have harrivals : stream.arrivals first (start :: (indices ++ [i])) =
        stream.arrivals first (start :: indices) ++ [stream.arrival first i] := by
      rw [← List.cons_append]
      exact List.map_append
    have hitems : stream.items first (start :: (indices ++ [i])) =
        stream.items first (start :: indices) ++
          (Trace.run (stream.arrivals first (start :: indices))).depacketizer.pushItems
            (stream.arrival first i).1 (stream.arrival first i).2 := by
      unfold Stream.items
      rw [harrivals, HevcDepacketizer.itemsOf_append, Trace.depacketizer_run,
        HevcDepacketizer.itemsOf, HevcDepacketizer.itemsOf, List.append_nil]
      rfl
    rw [hitems, harrivals, Trace.run_concat]
    exact hpush

/-- Whatever is lost, only units of the stream come out, whole and in order. -/
theorem units_sublist (h : stream.InReach first indices) :
    (units (stream.items first indices)).Sublist stream.nals := by
  cases indices with
  | nil => exact List.nil_sublist _
  | cons start indices =>
    obtain ⟨cursor, n, hn⟩ := reassembled_run h
    rw [← stream.slots_completes]
    exact hn.assembled.sublist.trans
      ((List.take_sublist n stream.slots).flatMap _)

/-- Each packet adds one at most to those that wait. -/
theorem size_run_le (arrivals : List (UInt16 × Packet)) :
    (Trace.run arrivals).depacketizer.reorder.size ≤ arrivals.length := by
  induction arrivals using List.reverseRecOn with
  | nil => exact Nat.le_refl _
  | append_singleton arrivals arrival ih =>
    rw [Trace.run_concat, Trace.depacketizer_push, List.length_append, List.length_singleton]
    exact Nat.le_trans (size_push_le _ _ _) (Nat.add_le_add_right ih 1)

end Runs

section InTurn

variable {d : HevcDepacketizer} {cursor : UInt16}

theorem not_stale_inTurn (hnext : d.nextSeq.getD cursor = cursor) :
    (d.begun cursor).stale cursor = false := by
  unfold HevcDepacketizer.stale HevcDepacketizer.begun
  rw [hnext]
  show seqLessThan cursor cursor = false
  rw [Bool.eq_false_iff, ne_eq, seqLessThan_iff, ahead_self]
  omega

/-- Only the packet itself is drained, and none waits behind it. -/
theorem drained_inTurn (hnext : d.nextSeq.getD cursor = cursor) (hempty : d.reorder.size = 0)
    (packet : Packet) :
    let inserted := (d.begun cursor).insert cursor packet
    HevcDepacketizer.Drained inserted inserted.drainInOrder cursor [packet] ∧
      inserted.drained = [packet] := by
  have hbegun : ((d.begun cursor).insert cursor packet).nextSeq = some cursor := by
    show some (d.nextSeq.getD cursor) = some cursor
    rw [hnext]
  have hdrained := HevcDepacketizer.drainInOrder_drained hbegun
  have hfirst : ((d.begun cursor).insert cursor packet).reorder[cursor]? = some packet := by
    rw [getElem?_inserted, if_pos rfl]
  have hpos := List.length_pos_of_ne_nil (skipped_drained hdrained (mem_of_getElem? hfirst))
  have hle : ((d.begun cursor).insert cursor packet).reorder.size ≤ d.reorder.size + 1 :=
    size_insert_le (d.begun cursor) cursor packet
  have hkept := hdrained.size
  obtain ⟨taken, htaken⟩ := List.length_eq_one_iff.mp
    (by omega : ((d.begun cursor).insert cursor packet).drained.length = 1)
  have hhead := hdrained.inOrder 0 hpos
  rw [show cursor + UInt16.ofNat 0 = cursor by simp, hfirst] at hhead
  simp only [htaken, List.getElem_cons_zero, Option.some.injEq] at hhead
  rw [← hhead] at htaken
  exact ⟨htaken ▸ hdrained, htaken⟩

/-- A packet that arrives in its turn is taken at once. -/
theorem push_inTurn (hnext : d.nextSeq.getD cursor = cursor) (hempty : d.reorder.size = 0)
    (packet : Packet) :
    d.pushItems cursor packet = d.nal.deliverItems packet ∧
      (d.push cursor packet).nextSeq = some (cursor + 1) ∧
      (d.push cursor packet).reorder.size = 0 ∧
      (d.push cursor packet).nal = d.nal.deliver packet := by
  have hstale := not_stale_inTurn hnext
  obtain ⟨hdrained, htaken⟩ := drained_inTurn hnext hempty packet
  have hsize : ((d.begun cursor).insert cursor packet).drainInOrder.reorder.size = 0 := by
    have hle : ((d.begun cursor).insert cursor packet).reorder.size ≤ d.reorder.size + 1 :=
      size_insert_le (d.begun cursor) cursor packet
    have hkept := hdrained.size
    rw [List.length_singleton] at hkept
    omega
  have hnot : ¬ ((d.begun cursor).insert cursor packet).drainInOrder.reorder.size >
      maxReorderBuffer := by
    rw [hsize]
    exact Nat.not_lt_zero _
  have hpush : d.push cursor packet = ((d.begun cursor).insert cursor packet).drainInOrder := by
    unfold HevcDepacketizer.push HevcDepacketizer.skipGap
    dsimp only
    rw [if_neg (ne_true_of_eq_false hstale), if_neg hnot]
  rw [hpush]
  refine ⟨?_, hdrained.next, hsize, hdrained.nal⟩
  unfold HevcDepacketizer.pushItems HevcDepacketizer.skipGapItems HevcDepacketizer.drainItems
  dsimp only
  rw [if_neg (ne_true_of_eq_false hstale), if_neg hnot, htaken, List.append_nil]
  exact List.append_nil _

/-- Packets that arrive in turn. -/
theorem itemsOf_inTurn (hnext : d.nextSeq.getD cursor = cursor) (hempty : d.reorder.size = 0)
    (packets : List Packet) :
    d.itemsOf (packets.mapIdx fun k packet => (cursor + UInt16.ofNat k, packet)) =
      d.nal.deliverAllItems packets := by
  induction packets generalizing d cursor with
  | nil => rfl
  | cons packet packets ih =>
    obtain ⟨hitems, hcursor, hsize, hnal⟩ := push_inTurn hnext hempty packet
    have hshift : (fun (k : ℕ) (packet : Packet) => (cursor + UInt16.ofNat (k + 1), packet)) =
        fun k packet => (cursor + 1 + UInt16.ofNat k, packet) := by
      funext k packet
      rw [add_one_add_ofNat]
    rw [List.mapIdx_cons, hshift, HevcDepacketizer.itemsOf]
    dsimp only
    rw [show cursor + UInt16.ofNat 0 = cursor by simp, hitems,
      ih (d := d.push cursor packet) (by rw [hcursor]; rfl) hsize, hnal]
    rfl

/-- Where nothing is lost, all units come out. -/
theorem units_inTurn (stream : Stream) (first : UInt16) :
    units (stream.items first (List.finRange stream.packets.length)) = stream.nals := by
  have harrivals : stream.arrivals first (List.finRange stream.packets.length) =
      stream.packets.mapIdx fun k packet => (first + UInt16.ofNat k, packet) := by
    apply List.ext_getElem
    · simp [Stream.arrivals]
    · intro k _ _
      simp [Stream.arrivals, Stream.arrival]
  unfold Stream.items
  rw [harrivals, itemsOf_inTurn rfl rfl, ← stream.slots_completes]
  apply deliverAll_whole stream.sound stream.slots_payloads.symm stream.linked
  exact ⟨rfl, fun hactive => Bool.noConfusion hactive⟩

end InTurn

/-- The depacketizer writes delimiters, parameter sets and NAL units. Where the packets come
in order, the units are those of the stream; where some are lost, late or come twice, they
are some of those, each one whole. -/
theorem reassembly (stream : Stream) (first : UInt16) :
    units (stream.items first (List.finRange stream.packets.length)) = stream.nals ∧
    ∀ indices,
      (HevcDepacketizer.new.pushAll (stream.arrivals first indices)).nal.out =
        annexb (stream.items first indices) ∧
      (stream.InReach first indices →
        (units (stream.items first indices)).Sublist stream.nals) := by
  refine ⟨units_inTurn stream first, ?_⟩
  intro indices
  exact ⟨HevcDepacketizer.out_pushAll .new _, units_sublist⟩

/-- The packets of carriers, all with the same timestamp. -/
def Stream.ofCarriers (carriers : List Carrier) : Stream where
  carriers := carriers
  packets := (carriers.flatMap Carrier.payloads).map fun payload => (0, payload)
  payloads := by rw [List.map_map]; exact List.map_id _

/-- A unit in two fragments and one in a packet of its own. -/
def twoUnits : Stream := .ofCarriers
  [.fragmented 0x26 1 [0xaa] [] [0xbb], .single ⟨0x02, 1, [0xcc]⟩ (by decide)]

/-- The last fragment comes late, and the first one twice. -/
def twoUnitsLate : List (Fin twoUnits.packets.length) :=
  [⟨0, by decide⟩, ⟨2, by decide⟩, ⟨0, by decide⟩, ⟨1, by decide⟩]

theorem reassembly_late :
    (units (twoUnits.items 65535 twoUnitsLate)).Sublist twoUnits.nals := by
  apply ((reassembly twoUnits 65535).2 twoUnitsLate).2
  constructor
  · intro before i after heq hne
    match before with
    | [_] =>
      cases heq
      decide +kernel
    | [_, _] =>
      cases heq
      decide +kernel
    | [_, _, _] =>
      cases heq
      decide +kernel
    | _ :: _ :: _ :: _ :: _ => simp [twoUnitsLate] at heq
  · intro before i after heq h
    obtain ⟨cursor, -, -, -, -, hsize⟩ := h
    have hle := size_run_le (twoUnits.arrivals 65535 before)
    have hlength := congrArg List.length heq
    simp [twoUnitsLate, Stream.arrivals, maxReorderBuffer] at hle hlength hsize
    omega

/-- Two units in fragments, with others in between. -/
def farUnits (between : ℕ) : Stream := .ofCarriers
  (.fragmented 0x26 1 [0xaa] [] [0xbb] ::
    (List.replicate between (.single ⟨0x02, 1, [0xcc]⟩ (by decide)) ++
      [.fragmented 0x26 1 [0xdd] [] [0xee]]))

theorem farUnits_packets (between : ℕ) : (farUnits between).packets =
    (0, fragmentPayload 0x26 1 0x80 [0xaa]) :: (0, fragmentPayload 0x26 1 0x40 [0xbb]) ::
      (List.replicate between (0, [0x02, 1, 0xcc]) ++
        [(0, fragmentPayload 0x26 1 0x80 [0xdd]), (0, fragmentPayload 0x26 1 0x40 [0xee])]) := by
  simp [farUnits, Stream.ofCarriers, Carrier.payloads, Nal.bytes, List.flatMap_replicate,
    List.flatten_replicate_singleton, List.map_replicate]

theorem farUnits_length (between : ℕ) : (farUnits between).packets.length = between + 4 := by
  rw [farUnits_packets]
  simp

/-- All packets between the first fragment of one unit and the last one of another are lost. -/
def farFragments (between : ℕ) : List (Fin (farUnits between).packets.length) :=
  [⟨0, by rw [farUnits_length]; omega⟩, ⟨between + 3, by rw [farUnits_length]; omega⟩]

theorem farUnits_arrivals (between : ℕ) :
    (farUnits between).arrivals 0 (farFragments between) =
      [(0, 0, fragmentPayload 0x26 1 0x80 [0xaa]),
        (UInt16.ofNat (between + 3), 0, fragmentPayload 0x26 1 0x40 [0xee])] := by
  simp [Stream.arrivals, Stream.arrival, farFragments, farUnits_packets, List.getElem_append_right]

/-- As many packets are lost as the sequence numbers have a period: the fragments of two
units are put together. -/
theorem foreign_fragment : ¬ ∀ (stream : Stream) (first : UInt16)
    (indices : List (Fin stream.packets.length)), indices.Pairwise (· < ·) →
      ∀ nal ∈ units (stream.items first indices), nal ∈ stream.nals := by
  intro h
  have hunits : units ((farUnits 65534).items 0 (farFragments 65534)) =
      [[0x26, 1, 0xaa, 0xee]] := by
    unfold Stream.items
    rw [farUnits_arrivals]
    decide +kernel
  have hmem := h (farUnits 65534) 0 (farFragments 65534) (by simp [farFragments])
    [0x26, 1, 0xaa, 0xee] (by rw [hunits]; exact List.mem_singleton_self _)
  have hnals (between : ℕ) : [0x26, 1, 0xaa, 0xee] ∉ (farUnits between).nals := by
    simp [farUnits, Stream.ofCarriers, Stream.nals, Carrier.nals, Nal.bytes, List.flatMap_replicate,
      List.flatten_replicate_singleton]
  exact hnals 65534 hmem

end XitForge.CoreDevice.Hevc
