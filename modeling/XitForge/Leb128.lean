import Mathlib.Algebra.Order.Group.Nat
import Mathlib.Tactic.Ring

/-!
Numbers as groups of seven bits, the lowest group first. Every byte but the last one has
its high bit set.
-/
namespace XitForge.Leb128

abbrev Bytes := List UInt8

def encode (v : ℕ) : Bytes :=
  if v < 128 then [UInt8.ofNat v] else UInt8.ofNat (v % 128 + 128) :: encode (v / 128)

theorem encode_of_lt {v : ℕ} (h : v < 128) : encode v = [UInt8.ofNat v] := by
  rw [encode, if_pos h]

theorem encode_of_le {v : ℕ} (h : 128 ≤ v) :
    encode v = UInt8.ofNat (v % 128 + 128) :: encode (v / 128) := by
  rw [encode, if_neg (Nat.not_lt.mpr h)]

theorem length_encode_pos (v : ℕ) : 0 < (encode v).length := by
  rw [encode]
  split
  · exact Nat.one_pos
  · exact Nat.succ_pos _

section Bits

/-- The low seven bits of a byte. -/
theorem toNat_and_low (byte : UInt8) : (byte &&& 0x7f).toNat = byte.toNat % 128 := by
  rw [UInt8.toNat_and]
  exact Nat.and_two_pow_sub_one_eq_mod byte.toNat 7

theorem and_high_eq_zero (byte : UInt8) : byte &&& 0x80 = 0 ↔ byte.toNat < 128 := by
  have hbits : ∀ n < 256, (n &&& 0x80 = 0 ↔ n < 128) := by decide +kernel
  rw [← UInt8.toNat_inj, UInt8.toNat_and]
  exact hbits byte.toNat byte.toNat_lt

theorem or_high {n : ℕ} (h : n < 128) : UInt8.ofNat n ||| 0x80 = UInt8.ofNat (n + 128) := by
  revert n
  decide +kernel

/-- The next group goes above the bits that are there. -/
theorem or_shiftLeft {result group shift bits : ℕ} (hresult : result < 2 ^ shift)
    (hgroup : group * 2 ^ shift < 2 ^ bits) :
    result ||| group <<< shift % 2 ^ bits = result + group * 2 ^ shift := by
  rw [Nat.shiftLeft_eq, Nat.mod_eq_of_lt hgroup, Nat.or_comm, Nat.mul_comm,
    ← Nat.two_pow_add_eq_or_of_lt hresult, Nat.add_comm]

end Bits

section Groups

variable {v shift width : ℕ}

theorem two_pow_next (shift : ℕ) : 2 ^ (shift + 7) = 128 * 2 ^ shift := by
  rw [Nat.add_comm, pow_add]
  rfl

/-- A number is its low group and the others, each at its place. -/
theorem low_add_high (v shift : ℕ) :
    v % 128 * 2 ^ shift + v / 128 * 2 ^ (shift + 7) = v * 2 ^ shift := by
  rw [two_pow_next, ← Nat.mul_assoc, Nat.mul_comm (v / 128) 128, ← Nat.add_mul, Nat.mod_add_div]

/-- Bits below a place and a group at it stay below the next place. -/
theorem add_low_lt {low : ℕ} (h : low < 2 ^ shift) (v : ℕ) :
    low + v % 128 * 2 ^ shift < 2 ^ (shift + 7) := by
  have hle : v % 128 * 2 ^ shift ≤ 127 * 2 ^ shift := Nat.mul_le_mul_right _ (by omega)
  rw [two_pow_next]
  omega

/-- A number with a second group leaves room for it. -/
theorem next_lt_width (hv : 128 ≤ v) (h : v * 2 ^ shift < 2 ^ width) : shift + 7 < width := by
  rw [← Nat.pow_lt_pow_iff_right (Nat.one_lt_two), two_pow_next]
  exact Nat.lt_of_le_of_lt (Nat.mul_le_mul_right _ hv) h

end Groups

end XitForge.Leb128
