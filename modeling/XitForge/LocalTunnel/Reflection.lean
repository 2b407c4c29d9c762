import XitForge.OnesComplement
import XitForge.RustSlice

/-!
The packet tunnel that reflects IPv4 packets: what the system sends to a peer comes back
to it as if the peer had sent it. An access outside the bytes of a packet is a panic.
-/
namespace XitForge.LocalTunnel

open ByteStream OnesComplement RustEval RustSlice

def afInet : ℤ := 2

/-- `intValue` of a number object. -/
def intValue (number : ℤ) : ℤ := number.bmod (2 ^ 32)

/-- The three copies of four bytes. -/
def swapAddresses (packet : Bytes) : Eval Unit Bytes := do
  let source ← indices packet 12 4
  let destination ← indices packet 16 4
  let bytes ← copyInto packet 12 destination
  copyInto bytes 16 source

/-- One round of the loop: the copy that is written back, if there is one. -/
def reflect (packet : Bytes) (family : ℤ) : Eval Unit (Option Bytes) :=
  if intValue family ≠ afInet ∨ packet.length < 20 then .ok none
  else do
    let first ← index packet 0
    let headerLength := (first.toNat &&& 15) * 4
    let high ← index packet 2
    let low ← index packet 3
    let totalLength := high.toNat <<< 8 ||| low.toNat
    if first.toNat >>> 4 ≠ 4 ∨ headerLength < 20 ∨ packet.length < headerLength ∨
        totalLength < headerLength ∨ packet.length < totalLength then .ok none
    else do
      let copy ← swapAddresses packet
      .ok (some copy)

def reflectAll : List (Bytes × ℤ) → Eval Unit (List (Bytes × ℤ))
  | [] => .ok []
  | (packet, family) :: rest => do
    let copy ← reflect packet family
    let output ← reflectAll rest
    .ok ((copy.map (·, family)).toList ++ output)

/-- The handler of `readPackets`: what it hands to `writePackets`, which it does not call
without packets, and whether it reads on. -/
def readPackets (running : Bool) (packets : List Bytes) (protocols : List ℤ) :
    Eval Unit (Option (List (Bytes × ℤ)) × Bool) :=
  if running then do
    let output ← reflectAll (packets.zip protocols)
    .ok (if output = [] then none else some output, true)
  else .ok (none, false)

/-- An IPv4 packet, and bytes behind its total length. -/
structure Datagram where
  first : UInt8
  service : UInt8
  high : UInt8
  low : UInt8
  /-- Identification, flags, offset and time to live. -/
  middle : Bytes
  protocol : UInt8
  checksum : Bytes
  source : Bytes
  destination : Bytes
  /-- Options, payload and what is behind them. -/
  rest : Bytes
  length_middle : middle.length = 5
  length_checksum : checksum.length = 2
  length_source : source.length = 4
  length_destination : destination.length = 4
  version : first.toNat / 16 = 4
  twenty_le : 20 ≤ first.toNat % 16 * 4
  header_le : first.toNat % 16 * 4 ≤ high.toNat * 256 + low.toNat
  total_le : high.toNat * 256 + low.toNat ≤ 20 + rest.length

namespace Datagram

def headerLength (d : Datagram) : ℕ := d.first.toNat % 16 * 4

def totalLength (d : Datagram) : ℕ := d.high.toNat * 256 + d.low.toNat

/-- The twelve bytes before the addresses. -/
def front (d : Datagram) : Bytes :=
  d.first :: d.service :: d.high :: d.low :: (d.middle ++ d.protocol :: d.checksum)

def bytes (d : Datagram) : Bytes := d.front ++ (d.source ++ (d.destination ++ d.rest))

def exchanged (d : Datagram) : Datagram :=
  { d with
    source := d.destination
    destination := d.source
    length_source := d.length_destination
    length_destination := d.length_source }

def HeaderVerifies (d : Datagram) : Prop := Verifies (d.bytes.take d.headerLength)

def segment (d : Datagram) : Bytes := (d.bytes.take d.totalLength).drop d.headerLength

/-- The pseudo-header of TCP and UDP. -/
def pseudoHeader (d : Datagram) : Bytes :=
  d.source ++ (d.destination ++ (0 :: d.protocol :: beBytes 2 (d.totalLength - d.headerLength)))

/-- The checksum of a TCP or UDP segment, with the pseudo-header in front. -/
def TransportVerifies (d : Datagram) : Prop :=
  (d.protocol = 6 ∨ d.protocol = 17) ∧ Verifies (d.pseudoHeader ++ d.segment)

variable (d : Datagram)

theorem length_front : d.front.length = 12 := by
  simp [front, d.length_middle, d.length_checksum]

theorem length_bytes : d.bytes.length = 20 + d.rest.length := by
  simp [bytes, d.length_front, d.length_source, d.length_destination]
  omega

/-- Of as many bytes as a header has at least, both addresses are there. -/
theorem take_bytes {n : ℕ} (h : 20 ≤ n) :
    d.bytes.take n = d.front ++ (d.source ++ (d.destination ++ d.rest.take (n - 20))) := by
  have hlength : (d.front ++ (d.source ++ d.destination)).length = 20 := by
    simp [d.length_front, d.length_source, d.length_destination]
  have hsplit : d.bytes = (d.front ++ (d.source ++ d.destination)) ++ d.rest := by
    simp [bytes]
  rw [hsplit, List.take_append, List.take_of_length_le (by omega), hlength]
  simp

theorem headerVerifies_exchanged : d.exchanged.HeaderVerifies ↔ d.HeaderVerifies := by
  unfold HeaderVerifies
  rw [d.take_bytes (n := d.headerLength) d.twenty_le,
    d.exchanged.take_bytes (n := d.exchanged.headerLength) d.twenty_le]
  apply verifies_exchange
  · rw [length_front]
    decide
  · rw [d.exchanged.length_source]
    decide
  · rw [d.exchanged.length_destination]
    decide

theorem segment_exchanged : d.exchanged.segment = d.segment := by
  have hbehind (e : Datagram) : e.segment =
      ((e.rest.take (e.totalLength - 20)).drop (e.headerLength - 20)) := by
    have hlength : (e.front ++ (e.source ++ e.destination)).length = 20 := by
      simp [e.length_front, e.length_source, e.length_destination]
    have hheader : e.headerLength = (e.front ++ (e.source ++ e.destination)).length +
        (e.headerLength - 20) := by
      rw [hlength]
      exact (Nat.add_sub_cancel' e.twenty_le).symm
    have htake := e.take_bytes (e.twenty_le.trans e.header_le)
    have hsplit : (e.bytes.take e.totalLength) = (e.front ++ (e.source ++ e.destination)) ++
        e.rest.take (e.totalLength - 20) := by
      rw [totalLength, htake]
      simp
    rw [segment, hsplit, hheader, List.drop_length_add_append, ← hheader]
  rw [hbehind, hbehind]
  rfl

theorem transportVerifies_exchanged : d.exchanged.TransportVerifies ↔ d.TransportVerifies := by
  unfold TransportVerifies
  rw [segment_exchanged]
  refine and_congr_right fun _ => ?_
  have hsource : 2 ∣ d.source.length := by
    rw [d.length_source]
    decide
  have hdestination : 2 ∣ d.destination.length := by
    rw [d.length_destination]
    decide
  have hnil : 2 ∣ ([] : Bytes).length := Nat.dvd_zero 2
  have hexchange := verifies_exchange hnil hdestination hsource
    (0 :: d.protocol :: beBytes 2 (d.totalLength - d.headerLength) ++ d.segment)
  have hpseudo (e : Datagram) : e.pseudoHeader ++ d.segment = e.source ++ (e.destination ++
      (0 :: e.protocol :: beBytes 2 (e.totalLength - e.headerLength) ++ d.segment)) := by
    rw [pseudoHeader, List.append_assoc, List.append_assoc]
  rw [hpseudo, hpseudo]
  exact hexchange

/-- The addresses change places, and nothing else does. -/
theorem swapAddresses_bytes : swapAddresses d.bytes = .ok d.exchanged.bytes := by
  have hlengths : d.source.length = d.destination.length := by
    rw [d.length_source, d.length_destination]
  have hsource := @indices_append Unit d.front d.source (d.destination ++ d.rest)
  have hdestination := @indices_append Unit (d.front ++ d.source) d.destination d.rest
  have hfirst := @copyInto_append Unit _ _ d.front (d.destination ++ d.rest) hlengths
  have hsecond := @copyInto_append Unit _ _ (d.front ++ d.destination) d.rest hlengths.symm
  simp only [List.length_append, d.length_front, d.length_source, d.length_destination,
    List.append_assoc] at hsource hdestination hfirst hsecond
  unfold swapAddresses bytes
  rw [hsource, Eval.ok_bind, hdestination, Eval.ok_bind, hfirst, Eval.ok_bind, hsecond]
  rfl

end Datagram

section Filter

variable {packet : Bytes} {family : ℤ}

theorem and_fifteen (n : ℕ) : n &&& 15 = n % 16 := Nat.and_two_pow_sub_one_eq_mod n 4

theorem word_eq (high low : UInt8) :
    high.toNat <<< 8 ||| low.toNat = high.toNat * 256 + low.toNat := by
  rw [← Nat.shiftLeft_add_eq_or_of_lt low.toNat_lt, Nat.shiftLeft_eq]

theorem exists_datagram {first service high low : UInt8} {tail : Bytes}
    (hlength : 16 ≤ tail.length) (hversion : first.toNat / 16 = 4)
    (htwenty : 20 ≤ first.toNat % 16 * 4)
    (hheader : first.toNat % 16 * 4 ≤ high.toNat * 256 + low.toNat)
    (htotal : high.toNat * 256 + low.toNat ≤ tail.length + 4) :
    ∃ d : Datagram, d.bytes = first :: service :: high :: low :: tail := by
  obtain ⟨protocol, behind, hbehind⟩ : ∃ protocol behind, tail.drop 5 = protocol :: behind := by
    apply List.exists_cons_of_length_pos
    rw [List.length_drop]
    omega
  have hcut : behind.length + 6 = tail.length := by
    have h := congrArg List.length hbehind
    rw [List.length_drop, List.length_cons] at h
    omega
  refine ⟨⟨first, service, high, low, tail.take 5, protocol, behind.take 2,
    (behind.drop 2).take 4, (behind.drop 6).take 4, behind.drop 10, ?_, ?_, ?_, ?_, hversion,
    htwenty, hheader, ?_⟩, ?_⟩
  · rw [List.length_take_of_le (by omega)]
  · rw [List.length_take_of_le (by omega)]
  · rw [List.length_take_of_le (by rw [List.length_drop]; omega)]
  · rw [List.length_take_of_le (by rw [List.length_drop]; omega)]
  · rw [List.length_drop]
    omega
  · have hdestination : (behind.drop 6).take 4 ++ behind.drop 10 = behind.drop 6 :=
      drop_cut (show 6 ≤ 10 by omega)
    have hsource : (behind.drop 2).take 4 ++ behind.drop 6 = behind.drop 2 :=
      drop_cut (show 2 ≤ 6 by omega)
    have htail : tail = tail.take 5 ++ protocol :: behind := by
      rw [← hbehind, List.take_append_drop]
    simp only [Datagram.bytes, Datagram.front, List.cons_append, List.append_assoc,
      hdestination, hsource, List.take_append_drop]
    rw [← htail]

theorem reflect_datagram (d : Datagram) (h : intValue family = afInet) :
    reflect d.bytes family = .ok (some d.exchanged.bytes) := by
  have hlength := d.length_bytes
  have hversion := d.version
  have htwenty := d.twenty_le
  have hheader := d.header_le
  have htotal := d.total_le
  have hfirst : (index d.bytes 0 : Eval Unit UInt8) = .ok d.first := rfl
  have hhigh : (index d.bytes 2 : Eval Unit UInt8) = .ok d.high := rfl
  have hlow : (index d.bytes 3 : Eval Unit UInt8) = .ok d.low := rfl
  unfold reflect
  rw [if_neg (by rw [not_or]; exact ⟨not_not.mpr h, by omega⟩), hfirst, Eval.ok_bind, hhigh,
    Eval.ok_bind, hlow, Eval.ok_bind]
  dsimp only
  rw [and_fifteen, word_eq, Nat.shiftRight_eq_div_pow, if_neg (by omega),
    d.swapAddresses_bytes]
  rfl

theorem reflect_other (h : intValue family = afInet → ∀ d : Datagram, d.bytes ≠ packet) :
    reflect packet family = .ok none := by
  unfold reflect
  split
  · rfl
  · rename_i hguard
    rw [not_or, not_not, Nat.not_lt] at hguard
    obtain ⟨hfamily, hlength⟩ := hguard
    match packet, hlength with
    | first :: service :: high :: low :: tail, hlength =>
      have hfirst : (index (first :: service :: high :: low :: tail) 0 : Eval Unit UInt8) =
          .ok first := rfl
      have hhigh : (index (first :: service :: high :: low :: tail) 2 : Eval Unit UInt8) =
          .ok high := rfl
      have hlow : (index (first :: service :: high :: low :: tail) 3 : Eval Unit UInt8) =
          .ok low := rfl
      rw [hfirst, Eval.ok_bind, hhigh, Eval.ok_bind, hlow, Eval.ok_bind]
      dsimp only
      simp only [List.length_cons] at hlength ⊢
      rw [and_fifteen, word_eq, Nat.shiftRight_eq_div_pow]
      split
      · rfl
      · rename_i hfields
        obtain ⟨d, hd⟩ := @exists_datagram first service high low tail (by omega) (by omega)
          (by omega) (by omega) (by omega)
        exact absurd hd (h hfamily d)

end Filter

/-- What is written for the packets of a batch, in their order: a packet of the family is
written with its addresses exchanged if it is an IPv4 packet, and passed over otherwise. -/
inductive Reflects : List (Bytes × ℤ) → List (Bytes × ℤ) → Prop
  | nil : Reflects [] []
  | written {batch output : List (Bytes × ℤ)} {family : ℤ} (d : Datagram)
      (hfamily : intValue family = afInet) (h : Reflects batch output) :
      Reflects ((d.bytes, family) :: batch) ((d.exchanged.bytes, family) :: output)
  | passed {batch output : List (Bytes × ℤ)} {packet : Bytes} {family : ℤ}
      (hpassed : intValue family = afInet → ∀ d : Datagram, d.bytes ≠ packet)
      (h : Reflects batch output) : Reflects ((packet, family) :: batch) output

theorem reflectAll_reflects (batch : List (Bytes × ℤ)) :
    ∃ output, reflectAll batch = .ok output ∧ Reflects batch output := by
  induction batch with
  | nil => exact ⟨[], rfl, .nil⟩
  | cons entry batch ih =>
    obtain ⟨packet, family⟩ := entry
    obtain ⟨output, hrest, hreflects⟩ := ih
    by_cases h : intValue family = afInet ∧ ∃ d : Datagram, d.bytes = packet
    · obtain ⟨hfamily, d, rfl⟩ := h
      refine ⟨(d.exchanged.bytes, family) :: output, ?_, .written d hfamily hreflects⟩
      rw [reflectAll, reflect_datagram d hfamily, Eval.ok_bind, hrest]
      rfl
    · have hpassed : intValue family = afInet → ∀ d : Datagram, d.bytes ≠ packet :=
        fun hfamily d hd => h ⟨hfamily, d, hd⟩
      refine ⟨output, ?_, .passed hpassed hreflects⟩
      rw [reflectAll, reflect_other hpassed, Eval.ok_bind, hrest]
      rfl

/-- The handler writes exactly the IPv4 packets of a batch, with the addresses exchanged.
That keeps the checksums, and done twice it gives the packet back. -/
theorem readPackets_reflects (packets : List Bytes) (protocols : List ℤ) :
    (∃ output, Reflects (packets.zip protocols) output ∧
      readPackets true packets protocols = .ok (if output = [] then none else some output, true)) ∧
    ∀ d : Datagram, (d.exchanged.HeaderVerifies ↔ d.HeaderVerifies) ∧
      (d.exchanged.TransportVerifies ↔ d.TransportVerifies) ∧
      reflect d.exchanged.bytes afInet = .ok (some d.bytes) := by
  obtain ⟨output, hall, hreflects⟩ := reflectAll_reflects (packets.zip protocols)
  refine ⟨⟨output, hreflects, ?_⟩, fun d => ⟨?_, ?_, ?_⟩⟩
  · unfold readPackets
    rw [if_pos rfl, hall]
    rfl
  · exact d.headerVerifies_exchanged
  · exact d.transportVerifies_exchanged
  · exact reflect_datagram d.exchanged rfl

end XitForge.LocalTunnel
