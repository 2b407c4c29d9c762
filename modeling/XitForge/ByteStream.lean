import Mathlib.Algebra.Order.Group.Nat
import Mathlib.Data.List.Induction
import Mathlib.Data.Nat.ModEq
import Mathlib.Tactic.Ring

/-!
Numbers and pieces of a fixed length at the front of a byte stream.
-/
namespace XitForge.ByteStream

abbrev Bytes := List UInt8

/-- The `width` low bytes of a number, the most significant first. -/
def beBytes : ℕ → ℕ → Bytes
  | 0, _ => []
  | width + 1, n => beBytes width (n / 256) ++ [UInt8.ofNat n]

def beValue (bytes : Bytes) : ℕ := bytes.foldl (fun acc byte => acc * 256 + byte.toNat) 0

@[simp] theorem length_beBytes (width n : ℕ) : (beBytes width n).length = width := by
  induction width generalizing n with
  | zero => rfl
  | succ width ih => rw [beBytes, List.length_append, ih, List.length_singleton]

theorem beValue_concat (bytes : Bytes) (byte : UInt8) :
    beValue (bytes ++ [byte]) = beValue bytes * 256 + byte.toNat := by
  unfold beValue
  rw [List.foldl_append]
  rfl

theorem beValue_beBytes {width n : ℕ} (h : n < 256 ^ width) : beValue (beBytes width n) = n := by
  induction width generalizing n with
  | zero =>
    have hzero : n = 0 := by simpa using h
    rw [hzero]
    rfl
  | succ width ih =>
    have hdiv : n / 256 < 256 ^ width := by
      apply Nat.div_lt_of_lt_mul
      rw [pow_succ] at h
      omega
    rw [beBytes, beValue_concat, ih hdiv, UInt8.toNat_ofNat']
    omega

/-- Of a number that is too large only the low bytes are left. -/
theorem beValue_beBytes_mod (width n : ℕ) : beValue (beBytes width n) = n % 256 ^ width := by
  induction width generalizing n with
  | zero => exact (Nat.mod_one n).symm
  | succ width ih =>
    have hsplit : n % 256 ^ (width + 1) = n % 256 + 256 * (n / 256 % 256 ^ width) := by
      rw [pow_succ', Nat.mod_mul]
    rw [beBytes, beValue_concat, ih, UInt8.toNat_ofNat', hsplit, Nat.mul_comm, Nat.add_comm]

theorem beValue_lt (bytes : Bytes) : beValue bytes < 256 ^ bytes.length := by
  induction bytes using List.reverseRecOn with
  | nil => exact Nat.one_pos
  | append_singleton bytes byte ih =>
    have hbyte := byte.toNat_lt
    rw [beValue_concat, List.length_append, List.length_singleton, pow_succ]
    omega

theorem beValue_append (front rest : Bytes) :
    beValue (front ++ rest) = beValue front * 256 ^ rest.length + beValue rest := by
  induction rest using List.reverseRecOn with
  | nil => simp [beValue]
  | append_singleton rest byte ih =>
    rw [← List.append_assoc, beValue_concat, ih, beValue_concat, List.length_append,
      List.length_singleton]
    ring

/-- The first `count` bytes and what is behind them. -/
def splitExact (count : ℕ) (stream : Bytes) : Option (Bytes × Bytes) :=
  if count ≤ stream.length then some (stream.take count, stream.drop count) else none

theorem splitExact_append {front : Bytes} {count : ℕ} (h : front.length = count) (rest : Bytes) :
    splitExact count (front ++ rest) = some (front, rest) := by
  unfold splitExact
  rw [if_pos (by rw [List.length_append]; omega), ← h, List.take_left, List.drop_left]

theorem splitExact_eq_some {count : ℕ} {stream front rest : Bytes}
    (h : splitExact count stream = some (front, rest)) :
    stream = front ++ rest ∧ front.length = count := by
  unfold splitExact at h
  split at h
  · rename_i hle
    cases h
    exact ⟨(List.take_append_drop count stream).symm, List.length_take_of_le hle⟩
  · cases h

/-- A big-endian `u32`. -/
def splitU32 (stream : Bytes) : Option (ℕ × Bytes) :=
  (splitExact 4 stream).map fun (front, rest) => (beValue front, rest)

theorem splitU32_append {n : ℕ} (h : n < 2 ^ 32) (rest : Bytes) :
    splitU32 (beBytes 4 n ++ rest) = some (n, rest) := by
  unfold splitU32
  rw [splitExact_append (length_beBytes 4 n), Option.map_some]
  show some (beValue (beBytes 4 n), rest) = _
  rw [beValue_beBytes (by omega)]

theorem splitU32_eq_some {n : ℕ} {stream rest : Bytes} (h : splitU32 stream = some (n, rest)) :
    ∃ front, stream = front ++ rest ∧ front.length = 4 ∧ beValue front = n := by
  unfold splitU32 at h
  rw [Option.map_eq_some_iff] at h
  obtain ⟨⟨front, rest'⟩, hsplit, heq⟩ := h
  cases heq
  obtain ⟨hstream, hlength⟩ := splitExact_eq_some hsplit
  exact ⟨front, hstream, hlength, rfl⟩

section LittleEndian

/-- The `width` low bytes of a number, the least significant first. -/
def leBytes (width n : ℕ) : Bytes := (beBytes width n).reverse

def leValue (bytes : Bytes) : ℕ := beValue bytes.reverse

@[simp] theorem length_leBytes (width n : ℕ) : (leBytes width n).length = width := by
  rw [leBytes, List.length_reverse, length_beBytes]

theorem leValue_leBytes {width n : ℕ} (h : n < 256 ^ width) : leValue (leBytes width n) = n := by
  rw [leValue, leBytes, List.reverse_reverse, beValue_beBytes h]

/-- Little-endian numbers, one behind the other, each with its width. -/
def fields (layout : List (ℕ × ℕ)) : Bytes := layout.flatMap fun field => leBytes field.1 field.2

def splitFields : List ℕ → Bytes → Option (List ℕ × Bytes)
  | [], stream => some ([], stream)
  | width :: widths, stream => do
    let (front, rest) ← splitExact width stream
    let (values, rest) ← splitFields widths rest
    return (leValue front :: values, rest)

theorem length_fields (layout : List (ℕ × ℕ)) :
    (fields layout).length = (layout.map Prod.fst).sum := by
  unfold fields
  rw [List.length_flatMap]
  congr 1
  exact List.map_congr_left fun field _ => length_leBytes field.1 field.2

theorem splitFields_append (layout : List (ℕ × ℕ)) (h : ∀ field ∈ layout, field.2 < 256 ^ field.1)
    (rest : Bytes) :
    splitFields (layout.map Prod.fst) (fields layout ++ rest) = some (layout.map Prod.snd, rest) := by
  induction layout with
  | nil => rfl
  | cons field layout ih =>
    have hfirst : splitExact field.1 (leBytes field.1 field.2 ++ (fields layout ++ rest)) =
        some (leBytes field.1 field.2, fields layout ++ rest) :=
      splitExact_append (length_leBytes field.1 field.2) _
    have hrest := ih fun other hother => h other (List.mem_cons_of_mem _ hother)
    have hsplit : fields (field :: layout) ++ rest =
        leBytes field.1 field.2 ++ (fields layout ++ rest) := by
      rw [fields, List.flatMap_cons, List.append_assoc]
      rfl
    rw [hsplit]
    simp only [List.map_cons, splitFields, hfirst, hrest, Option.bind_eq_bind, Option.bind_some,
      leValue_leBytes (h field (List.mem_cons_self))]
    rfl

end LittleEndian

end XitForge.ByteStream
