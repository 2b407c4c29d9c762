import Mathlib.Algebra.Order.Group.Nat
import Mathlib.Data.Finset.Card
import Mathlib.Data.List.Nodup
import Std.Data.TreeMap.Lemmas

/-!
Serial numbers of 16 bits, which wrap around. `ahead start n` counts the steps from
`start` up to `n`; every other relation is read off it.
-/
namespace XitForge.SerialNumber

/-- The number of increments that lead from `start` to `n`. -/
def ahead (start n : UInt16) : ℕ := (n - start).toNat

/-- The comparison of RFC 1982: `a` is before `b`. -/
def seqLessThan (a b : UInt16) : Bool :=
  let diff := b - a
  diff != 0 && diff < 0x8000

variable {start a b n : UInt16} {k : ℕ}

theorem ahead_lt : ahead start n < 2 ^ 16 := (n - start).toNat_lt

theorem ahead_eq : ahead start n = (2 ^ 16 - start.toNat + n.toNat) % 2 ^ 16 :=
  UInt16.toNat_sub n start

@[simp] theorem ahead_self : ahead start start = 0 := by
  have hlt := start.toNat_lt
  rw [ahead_eq]
  omega

theorem ahead_eq_zero : ahead start n = 0 ↔ n = start := by
  have hstart := start.toNat_lt
  have hn := n.toNat_lt
  rw [ahead_eq, ← UInt16.toNat_inj]
  omega

/-- Two numbers at the same distance are equal. -/
theorem ahead_inj (h : ahead start a = ahead start b) : a = b := by
  have hstart := start.toNat_lt
  have ha := a.toNat_lt
  have hb := b.toNat_lt
  rw [ahead_eq, ahead_eq] at h
  rw [← UInt16.toNat_inj]
  omega

theorem ahead_add (h : k < 2 ^ 16) : ahead start (start + UInt16.ofNat k) = k := by
  have hstart := start.toNat_lt
  rw [ahead_eq, UInt16.toNat_add, UInt16.toNat_ofNat']
  omega

theorem add_ofNat_add (start : UInt16) (n k : ℕ) :
    start + UInt16.ofNat n + UInt16.ofNat k = start + UInt16.ofNat (n + k) := by
  rw [UInt16.ofNat_add, UInt16.add_assoc]

theorem add_one_add_ofNat (start : UInt16) (k : ℕ) :
    start + 1 + UInt16.ofNat k = start + UInt16.ofNat (k + 1) := by
  rw [Nat.add_comm]
  exact add_ofNat_add start 1 k

/-- The distance of two numbers that are counted on from a third one. -/
theorem ahead_add_ofNat {i n : ℕ} (hle : n ≤ i) (hlt : i < n + 2 ^ 16) :
    ahead (start + UInt16.ofNat n) (start + UInt16.ofNat i) = i - n := by
  obtain ⟨k, rfl⟩ := Nat.exists_eq_add_of_le hle
  rw [← add_ofNat_add, ahead_add (by omega), Nat.add_sub_cancel_left]

theorem add_ahead : start + UInt16.ofNat (ahead start n) = n := by
  apply ahead_inj
  exact ahead_add ahead_lt

/-- Seen from a start that has moved, a number is nearer by the distance moved. -/
theorem ahead_moved (h : k ≤ ahead start n) :
    ahead (start + UInt16.ofNat k) n = ahead start n - k := by
  have hlt : ahead start n < 2 ^ 16 := ahead_lt
  have hstart := start.toNat_lt
  have hn := n.toNat_lt
  rw [ahead_eq] at h hlt ⊢
  rw [ahead_eq, UInt16.toNat_add, UInt16.toNat_ofNat']
  omega

/-- A number that the start has passed is ahead again, most of a period away. -/
theorem ahead_passed (h : ahead start n < k) (hk : k ≤ 2 ^ 16) :
    ahead (start + UInt16.ofNat k) n = 2 ^ 16 - k + ahead start n := by
  have hstart := start.toNat_lt
  have hn := n.toNat_lt
  rw [ahead_eq] at h ⊢
  rw [ahead_eq, UInt16.toNat_add, UInt16.toNat_ofNat']
  omega

/-- Distances add up as long as they stay within the period. -/
theorem ahead_trans (h : ahead a b + ahead b n < 2 ^ 16) : ahead a n = ahead a b + ahead b n := by
  have ha := a.toNat_lt
  have hb := b.toNat_lt
  have hn := n.toNat_lt
  rw [ahead_eq, ahead_eq] at h
  rw [ahead_eq, ahead_eq, ahead_eq]
  omega

theorem seqLessThan_iff : seqLessThan a b = true ↔ 0 < ahead a b ∧ ahead a b < 2 ^ 15 := by
  unfold seqLessThan ahead
  simp only [Bool.and_eq_true, bne_iff_ne, ne_eq, ← UInt16.toNat_inj, UInt16.toNat_zero,
    decide_eq_true_eq, UInt16.lt_iff_toNat_lt]
  show ¬ _ = 0 ∧ _ < 2 ^ 15 ↔ _
  omega

/-- What is before the start is more than half of the numbers ahead of it. -/
theorem seqLessThan_start : seqLessThan n start = true ↔ 2 ^ 15 < ahead start n := by
  have hstart := start.toNat_lt
  have hn := n.toNat_lt
  rw [seqLessThan_iff, ahead_eq, ahead_eq]
  omega

section Map

variable {α : Type} {m : Std.TreeMap UInt16 α}

theorem compare_eq : compare a b = .eq ↔ a = b := Std.LawfulEqCmp.compare_eq_iff_eq

theorem getElem?_insert (key : UInt16) (value : α) :
    (m.insert key value)[n]? = if key = n then some value else m[n]? := by
  rw [Std.TreeMap.getElem?_insert]
  exact if_congr compare_eq rfl rfl

theorem getElem?_erase (key : UInt16) : (m.erase key)[n]? = if key = n then none else m[n]? := by
  rw [Std.TreeMap.getElem?_erase]
  exact if_congr compare_eq rfl rfl

theorem mem_of_getElem? {value : α} (h : m[n]? = some value) : n ∈ m := by
  rw [Std.TreeMap.mem_iff_isSome_getElem?, h]
  rfl

/-- The first key is the least one. -/
theorem head_keys (h : m.keys.head? = some n) : n ∈ m ∧ ∀ key ∈ m, n.toNat ≤ key.toNat := by
  obtain ⟨rest, hkeys⟩ : ∃ rest, m.keys = n :: rest := by
    cases hlist : m.keys with
    | nil =>
      rw [hlist] at h
      cases h
    | cons first rest =>
      rw [hlist] at h
      cases h
      exact ⟨rest, rfl⟩
  have hordered := Std.TreeMap.ordered_keys (t := m)
  rw [hkeys, List.pairwise_cons] at hordered
  constructor
  · rw [← Std.TreeMap.mem_keys, hkeys]
    exact List.mem_cons_self ..
  · intro key hkey
    rw [← Std.TreeMap.mem_keys, hkeys] at hkey
    rcases List.mem_cons.mp hkey with rfl | hrest
    · exact Nat.le_refl _
    · have hlt := UInt16.lt_iff_toNat_lt.mp (compareOfLessAndEq_eq_lt.mp (hordered.1 key hrest))
      omega

/-- A map is not larger than a set that its keys lead into, one by one. -/
theorem size_le_card {s : Finset ℕ} {f : UInt16 → ℕ}
    (hinj : ∀ key ∈ m, ∀ key' ∈ m, f key = f key' → key = key') (hmem : ∀ key ∈ m, f key ∈ s) :
    m.size ≤ s.card := by
  have hnodup : (m.keys.map f).Nodup := by
    apply List.Nodup.map_on
    · intro key hkey key' hkey' heq
      exact hinj key (Std.TreeMap.mem_keys.mp hkey) key' (Std.TreeMap.mem_keys.mp hkey') heq
    · exact Std.TreeMap.nodup_keys
  have hsubset : (m.keys.map f).toFinset ⊆ s := by
    intro value hvalue
    rw [List.mem_toFinset, List.mem_map] at hvalue
    obtain ⟨key, hkey, rfl⟩ := hvalue
    exact hmem key (Std.TreeMap.mem_keys.mp hkey)
  have hcard := Finset.card_le_card hsubset
  rw [List.toFinset_card_of_nodup hnodup, List.length_map, Std.TreeMap.length_keys] at hcard
  exact hcard

end Map

end XitForge.SerialNumber

