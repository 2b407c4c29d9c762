import Mathlib.Algebra.Field.ZMod
import Mathlib.Algebra.Polynomial.Div

/-!
Cyclic redundancy checks that shift the low bit out first. The register is a polynomial
over the field of two elements, its low bit the leading coefficient; shifting the bits of
a message in leaves the remainder of the message by the generator.
-/
namespace XitForge.Crc

open Polynomial

variable {w : ℕ} (mask : BitVec w)

section Register

/-- One bit is shifted out. -/
def shift (c : BitVec w) : BitVec w := (c >>> 1) ^^^ (if c.getLsbD 0 then mask else 0)

def shifts : ℕ → BitVec w → BitVec w
  | 0, c => c
  | k + 1, c => shifts k (shift mask c)

def bit (b : Bool) : BitVec w := (BitVec.ofBool b).setWidth w

/-- One bit of the message is taken up. -/
def step (c : BitVec w) (b : Bool) : BitVec w := shift mask (c ^^^ bit b)

/-- The first bits of a word, the lowest first. -/
def bits : ℕ → BitVec w → List Bool
  | 0, _ => []
  | k + 1, y => y.getLsbD 0 :: bits k (y >>> 1)

theorem getLsbD_bit (b : Bool) (i : ℕ) :
    (bit b : BitVec w).getLsbD i = (decide (i < w) && (decide (i = 0) && b)) := by
  unfold bit
  rw [BitVec.getLsbD_setWidth, BitVec.getLsbD_ofBool]

/-- A word that is taken up at once gives its lowest bit and keeps the others. -/
theorem shift_xor (c y : BitVec w) :
    shift mask (c ^^^ y) = step mask c (y.getLsbD 0) ^^^ (y >>> 1) := by
  have hlow : (c ^^^ y).getLsbD 0 = (c ^^^ bit (y.getLsbD 0)).getLsbD 0 := by
    rw [BitVec.getLsbD_xor, BitVec.getLsbD_xor, getLsbD_bit]
    by_cases hw : 0 < w
    · simp [hw]
    · simp [BitVec.getLsbD_of_ge y 0 (by omega)]
  unfold step shift
  rw [hlow]
  apply BitVec.eq_of_getLsbD_eq
  intro i hi
  simp only [BitVec.getLsbD_xor, BitVec.getLsbD_ushiftRight, getLsbD_bit]
  cases c.getLsbD (1 + i) <;> cases y.getLsbD (1 + i) <;>
    cases (if (c.getLsbD 0 ^^ (decide (0 < w) && (decide (0 = 0) && y.getLsbD 0))) = true then mask
      else 0).getLsbD i <;> simp

/-- The bits of a word can be taken up before they are shifted out. -/
theorem shifts_xor (k : ℕ) (c y : BitVec w) :
    shifts mask k (c ^^^ y) = (bits k y).foldl (step mask) c ^^^ (y >>> k) := by
  induction k generalizing c y with
  | zero => rfl
  | succ k ih =>
    rw [shifts, shift_xor, ih, bits, List.foldl_cons, ← BitVec.shiftRight_add,
      Nat.add_comm 1 k]

end Register

section Polynomials

/-- The low bit is the coefficient of the highest power. -/
noncomputable def registerPoly (c : BitVec w) : (ZMod 2)[X] :=
  ∑ i ∈ Finset.range w, if c.getLsbD i then X ^ (w - 1 - i) else 0

/-- The first bit is the coefficient of the highest power. -/
noncomputable def messagePoly : List Bool → (ZMod 2)[X]
  | [] => 0
  | b :: message => (if b then X ^ message.length else 0) + messagePoly message

noncomputable def generator : (ZMod 2)[X] := X ^ w + registerPoly mask

theorem add_self_poly (p : (ZMod 2)[X]) : p + p = 0 := CharTwo.add_self_eq_zero p

theorem registerPoly_xor (a b : BitVec w) :
    registerPoly (a ^^^ b) = registerPoly a + registerPoly b := by
  unfold registerPoly
  rw [← Finset.sum_add_distrib]
  refine Finset.sum_congr rfl fun i _ => ?_
  rw [BitVec.getLsbD_xor]
  cases a.getLsbD i <;> cases b.getLsbD i <;> simp [add_self_poly]

theorem registerPoly_bit (hw : 0 < w) (b : Bool) :
    X * registerPoly (bit b : BitVec w) = if b then X ^ w else 0 := by
  unfold registerPoly
  rw [Finset.sum_eq_single 0]
  · rw [getLsbD_bit]
    cases b with
    | false => simp
    | true =>
      simp only [hw, decide_true, Bool.and_self, if_true]
      rw [← pow_succ']
      congr 1
      omega
  · intro i _ hi
    rw [getLsbD_bit]
    simp [hi]
  · intro hnot
    exact absurd (Finset.mem_range.mpr hw) hnot

theorem degree_registerPoly_lt (hw : 0 < w) (c : BitVec w) : (registerPoly c).degree < w := by
  refine lt_of_le_of_lt (degree_sum_le _ _) ?_
  refine (Finset.sup_lt_iff (WithBot.bot_lt_coe w)).mpr fun i hi => ?_
  split
  · rw [degree_X_pow]
    have hlt : w - 1 - i < w := by omega
    exact Nat.cast_lt.mpr hlt
  · rw [degree_zero]
    exact WithBot.bot_lt_coe w

/-- Shifting multiplies by `X`, but for the bit that falls out. -/
theorem registerPoly_ushiftRight (c : BitVec w) : registerPoly (c >>> 1) =
    X * registerPoly c + if c.getLsbD 0 then X ^ w else 0 := by
  cases w with
  | zero => simp [registerPoly]
  | succ n =>
    have hlast : (c >>> 1).getLsbD n = false := by
      rw [BitVec.getLsbD_ushiftRight]
      exact BitVec.getLsbD_of_ge c (1 + n) (by omega)
    have hsum : X * registerPoly c = (∑ i ∈ Finset.range n,
        if (c >>> 1).getLsbD i then (X : (ZMod 2)[X]) ^ (n - i) else 0) +
          if c.getLsbD 0 then X ^ (n + 1) else 0 := by
      unfold registerPoly
      rw [Finset.sum_range_succ', mul_add, Finset.mul_sum]
      congr 1
      · refine Finset.sum_congr rfl fun i hi => ?_
        have hlt := Finset.mem_range.mp hi
        rw [BitVec.getLsbD_ushiftRight, Nat.add_comm 1 i, mul_ite, mul_zero, ← pow_succ',
          show n + 1 - 1 - (i + 1) + 1 = n - i by omega]
      · rw [mul_ite, mul_zero, ← pow_succ', Nat.sub_zero, Nat.add_sub_cancel]
    rw [hsum, add_assoc, add_self_poly, add_zero, registerPoly, Finset.sum_range_succ, hlast,
      Nat.add_sub_cancel]
    simp

theorem registerPoly_shift (c : BitVec w) : registerPoly (shift mask c) =
    X * registerPoly c + if c.getLsbD 0 then generator mask else 0 := by
  unfold shift
  rw [registerPoly_xor, registerPoly_ushiftRight]
  cases c.getLsbD 0 with
  | false => simp [registerPoly]
  | true =>
    simp only [if_true, generator]
    rw [add_assoc]

/-- What is shifted in is the message, up to multiples of the generator. -/
theorem dvd_foldl_step (hw : 0 < w) (c : BitVec w) (message : List Bool) :
    generator mask ∣ registerPoly (message.foldl (step mask) c) -
      (X ^ message.length * registerPoly c + X ^ w * messagePoly message) := by
  induction message generalizing c with
  | nil => simp [messagePoly]
  | cons b message ih =>
    have hstep : registerPoly (step mask c b) = X * registerPoly c + (if b then X ^ w else 0) +
        if (c ^^^ bit b).getLsbD 0 then generator mask else 0 := by
      rw [step, registerPoly_shift, registerPoly_xor, mul_add, registerPoly_bit hw]
    have hmultiple : generator mask ∣ X ^ message.length *
        if (c ^^^ bit b).getLsbD 0 then generator mask else 0 := by
      split
      · exact dvd_mul_left _ _
      · rw [mul_zero]
        exact dvd_zero _
    have hrest := dvd_add (ih (step mask c b)) hmultiple
    rw [List.foldl_cons]
    convert hrest using 1
    rw [hstep, messagePoly, List.length_cons, pow_succ]
    generalize (if (c ^^^ bit b).getLsbD 0 then generator mask else 0) = fallen
    cases b with
    | false =>
      simp only [Bool.false_eq_true, if_false]
      ring
    | true =>
      simp only [if_true]
      ring

/-- The register holds the remainder of what it held and the message behind it. -/
theorem registerPoly_foldl_step (hw : 0 < w) (c : BitVec w) (message : List Bool) :
    registerPoly (message.foldl (step mask) c) =
      (X ^ message.length * registerPoly c + X ^ w * messagePoly message) %ₘ generator mask := by
  have hmonic : (generator mask).Monic :=
    monic_X_pow_add (degree_registerPoly_lt hw mask)
  have hdegree : (generator mask).degree = w := by
    unfold generator
    rw [degree_add_eq_left_of_degree_lt, degree_X_pow]
    rw [degree_X_pow]
    exact degree_registerPoly_lt hw mask
  rw [← modByMonic_eq_of_dvd_sub hmonic (dvd_foldl_step mask hw c message)]
  refine ((modByMonic_eq_self_iff hmonic).mpr ?_).symm
  rw [hdegree]
  exact degree_registerPoly_lt hw _

end Polynomials

section Bytes

/-- The bits of a byte, the lowest first. -/
def byteBits (byte : UInt8) : List Bool := (List.range 8).map byte.toBitVec.getLsbD

theorem bits_eq (k : ℕ) (y : BitVec w) : bits k y = (List.range k).map y.getLsbD := by
  induction k generalizing y with
  | zero => rfl
  | succ k ih =>
    rw [bits, ih, List.range_succ_eq_map, List.map_cons, List.map_map]
    congr 1
    refine List.map_congr_left fun i _ => ?_
    rw [BitVec.getLsbD_ushiftRight, Nat.add_comm]
    rfl

theorem bits_byte (hw : 8 ≤ w) (byte : UInt8) :
    bits 8 (byte.toBitVec.setWidth w) = byteBits byte := by
  rw [bits_eq, byteBits]
  refine List.map_congr_left fun i hi => ?_
  have hlt := List.mem_range.mp hi
  rw [BitVec.getLsbD_setWidth, decide_eq_true (by omega : i < w), Bool.true_and]

/-- A byte can be taken up at once. -/
theorem shifts_byte (hw : 8 ≤ w) (c : BitVec w) (byte : UInt8) :
    shifts mask 8 (c ^^^ byte.toBitVec.setWidth w) = (byteBits byte).foldl (step mask) c := by
  have hempty : byte.toBitVec.setWidth w >>> 8 = 0 := by
    apply BitVec.eq_of_getLsbD_eq
    intro i _
    rw [BitVec.getLsbD_ushiftRight, BitVec.getLsbD_setWidth, BitVec.getLsbD_of_ge _ _ (by omega)]
    simp
  rw [shifts_xor, hempty, bits_byte hw]
  exact BitVec.xor_zero

theorem foldl_bytes (hw : 8 ≤ w) (c : BitVec w) (bytes : List UInt8) :
    bytes.foldl (fun c byte => shifts mask 8 (c ^^^ byte.toBitVec.setWidth w)) c =
      (bytes.flatMap byteBits).foldl (step mask) c := by
  induction bytes generalizing c with
  | nil => rfl
  | cons byte bytes ih =>
    rw [List.foldl_cons, shifts_byte mask hw, ih, List.flatMap_cons, List.foldl_append]

end Bytes

section Crc32

noncomputable def crc32Generator : (ZMod 2)[X] :=
  X ^ 32 + X ^ 26 + X ^ 23 + X ^ 22 + X ^ 16 + X ^ 12 + X ^ 11 + X ^ 10 + X ^ 8 + X ^ 7 + X ^ 5 +
    X ^ 4 + X ^ 2 + X + 1

theorem generator_crc32 : generator 0xedb88320#32 = crc32Generator := by
  simp [generator, registerPoly, crc32Generator, Finset.sum_range_succ]
  ring

/-- The complement of the remainder of the message, behind a register of ones. -/
def IsCrc32 (data : List UInt8) (crc : UInt32) : Prop :=
  registerPoly (~~~crc.toBitVec) = (X ^ (8 * data.length) * registerPoly (BitVec.allOnes 32) +
    X ^ 32 * messagePoly (data.flatMap byteBits)) %ₘ crc32Generator

/-- The complement of the remainder of the message alone, behind an empty register. -/
def IsPlainCrc32 (data : List UInt8) (crc : UInt32) : Prop :=
  registerPoly (~~~crc.toBitVec) = (X ^ 32 * messagePoly (data.flatMap byteBits)) %ₘ crc32Generator

theorem registerPoly_foldl_bytes (c : BitVec 32) (data : List UInt8) :
    registerPoly (data.foldl
      (fun c byte => shifts 0xedb88320#32 8 (c ^^^ byte.toBitVec.setWidth 32)) c) =
        (X ^ (8 * data.length) * registerPoly c +
          X ^ 32 * messagePoly (data.flatMap byteBits)) %ₘ crc32Generator := by
  have hlength : (data.flatMap byteBits).length = 8 * data.length := by
    rw [List.length_flatMap, List.map_congr_left (g := fun _ => 8)]
    · rw [List.map_const', List.sum_replicate, smul_eq_mul, Nat.mul_comm]
    · intro byte _
      rw [byteBits, List.length_map, List.length_range]
  rw [foldl_bytes _ (by omega), registerPoly_foldl_step _ (by omega), hlength, generator_crc32]

theorem isCrc32_of_foldl {data : List UInt8} {crc : UInt32}
    (h : ~~~crc.toBitVec = data.foldl
      (fun c byte => shifts 0xedb88320#32 8 (c ^^^ byte.toBitVec.setWidth 32)) (BitVec.allOnes 32)) :
    IsCrc32 data crc := by
  unfold IsCrc32
  rw [h, registerPoly_foldl_bytes]

theorem isPlainCrc32_of_foldl {data : List UInt8} {crc : UInt32}
    (h : ~~~crc.toBitVec = data.foldl
      (fun c byte => shifts 0xedb88320#32 8 (c ^^^ byte.toBitVec.setWidth 32)) 0#32) :
    IsPlainCrc32 data crc := by
  have hempty : registerPoly 0#32 = 0 := by simp [registerPoly]
  unfold IsPlainCrc32
  rw [h, registerPoly_foldl_bytes, hempty, mul_zero, zero_add]

end Crc32

end XitForge.Crc
