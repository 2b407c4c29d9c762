import XitForge.ByteStream
import Mathlib.Algebra.BigOperators.Group.List.Basic

/-!
Sums of words of 16 bits in ones' complement, and the checksums that are made of them.
-/
namespace XitForge.OnesComplement

open ByteStream

/-- Addition with the carry brought around. -/
def add (a b : ℕ) : ℕ := if a + b < 2 ^ 16 then a + b else a + b - (2 ^ 16 - 1)

def sum (ws : List ℕ) : ℕ := ws.foldl add 0

/-- Big-endian words, the last one padded with a zero byte. -/
def words : Bytes → List ℕ
  | [] => []
  | [last] => [last.toNat * 256]
  | high :: low :: rest => (high.toNat * 256 + low.toNat) :: words rest

/-- The bytes hold a checksum of themselves. -/
def Verifies (bytes : Bytes) : Prop := sum (words bytes) = 0xFFFF

/-- The sum of words whose sum as numbers this is. -/
def residue (n : ℕ) : ℕ := if n = 0 then 0 else (n - 1) % (2 ^ 16 - 1) + 1

theorem add_residue {m w : ℕ} (h : w < 2 ^ 16) : add (residue m) w = residue (m + w) := by
  unfold add residue
  split_ifs <;> omega

theorem foldl_add {ws : List ℕ} (h : ∀ w ∈ ws, w < 2 ^ 16) (m : ℕ) :
    ws.foldl add (residue m) = residue (m + ws.sum) := by
  induction ws generalizing m with
  | nil => rfl
  | cons w ws ih =>
    have hrest : ∀ w ∈ ws, w < 2 ^ 16 := fun w hw => h w (List.mem_cons_of_mem _ hw)
    rw [List.foldl_cons, add_residue (h w List.mem_cons_self), ih hrest, List.sum_cons,
      Nat.add_assoc]

theorem sum_eq {ws : List ℕ} (h : ∀ w ∈ ws, w < 2 ^ 16) : sum ws = residue ws.sum := by
  have hsum := foldl_add h 0
  rw [Nat.zero_add] at hsum
  exact hsum

/-- The order of the words does not matter. -/
theorem sum_perm {ws ws' : List ℕ} (hperm : ws.Perm ws') (h : ∀ w ∈ ws, w < 2 ^ 16) :
    sum ws = sum ws' := by
  rw [sum_eq h, sum_eq fun w hw => h w (hperm.mem_iff.mpr hw), hperm.sum_eq]

theorem word_lt (bytes : Bytes) : ∀ w ∈ words bytes, w < 2 ^ 16 := by
  induction bytes using words.induct with
  | case1 => exact nofun
  | case2 last =>
    intro w hw
    have hlast := last.toNat_lt
    rw [words, List.mem_singleton] at hw
    omega
  | case3 high low rest ih =>
    intro w hw
    have hhigh := high.toNat_lt
    have hlow := low.toNat_lt
    rw [words, List.mem_cons] at hw
    rcases hw with hw | hw
    · omega
    · exact ih w hw

/-- Bytes in front of others, cut between two words. -/
theorem words_append {front : Bytes} (h : 2 ∣ front.length) (rest : Bytes) :
    words (front ++ rest) = words front ++ words rest := by
  induction front using words.induct with
  | case1 => rfl
  | case2 last => simp at h
  | case3 high low front ih =>
    rw [List.length_cons, List.length_cons] at h
    rw [List.cons_append, List.cons_append, words, ih (by omega), words, List.cons_append]

/-- Two pieces that are exchanged, with whole words between the cuts. -/
theorem verifies_exchange {front first second : Bytes} (hfront : 2 ∣ front.length)
    (hfirst : 2 ∣ first.length) (hsecond : 2 ∣ second.length) (rest : Bytes) :
    Verifies (front ++ (first ++ (second ++ rest))) ↔
      Verifies (front ++ (second ++ (first ++ rest))) := by
  have hperm : (words (front ++ (first ++ (second ++ rest)))).Perm
      (words (front ++ (second ++ (first ++ rest)))) := by
    rw [words_append hfront, words_append hfirst, words_append hsecond, words_append hfront,
      words_append hsecond, words_append hfirst]
    apply List.Perm.append_left
    rw [← List.append_assoc, ← List.append_assoc]
    exact List.perm_append_comm.append_right _
  unfold Verifies
  rw [sum_perm hperm (word_lt _)]

end XitForge.OnesComplement
