import Mathlib.Algebra.Group.Nat.Defs
import Mathlib.Logic.Basic

/-!
Results of Rust functions. A call returns `Ok`, returns `Err`, or panics: an
arithmetic underflow that makes a length, an index past the end of a slice and
a failed `unwrap` all end in a panic, which no caller of this code catches.
-/
namespace XitForge.RustEval

inductive Eval (ε α : Type) where
  | ok (value : α)
  | err (error : ε)
  | panic
  deriving DecidableEq, Repr

namespace Eval

variable {ε α β : Type}

/-- The `?` operator: an error or a panic ends the enclosing function. -/
protected def bind : Eval ε α → (α → Eval ε β) → Eval ε β
  | ok value, next => next value
  | err error, _ => err error
  | panic, _ => panic

instance : Monad (Eval ε) where
  pure := ok
  bind := Eval.bind

@[simp] theorem pure_eq (value : α) : (pure value : Eval ε α) = ok value := rfl

@[simp] theorem ok_bind (value : α) (next : α → Eval ε β) : (ok value >>= next) = next value := rfl

@[simp] theorem err_bind (error : ε) (next : α → Eval ε β) :
    ((err error : Eval ε α) >>= next) = err error := rfl

@[simp] theorem panic_bind (next : α → Eval ε β) :
    ((panic : Eval ε α) >>= next) = panic := rfl

/-- A sequence that returns passed through a value of its first part. -/
theorem bind_eq_ok {first : Eval ε α} {next : α → Eval ε β} {result : β} :
    (first >>= next) = ok result ↔ ∃ value, first = ok value ∧ next value = ok result := by
  cases first with
  | ok value =>
    constructor
    · intro h
      exact ⟨value, rfl, h⟩
    · intro hgiven
      obtain ⟨value', hvalue, hnext⟩ := hgiven
      cases hvalue
      exact hnext
  | err error => simp
  | panic => simp

/-- No panic, and a value of `post` if the call returns `Ok`. -/
def Returns (result : Eval ε α) (post : α → Prop) : Prop :=
  match result with
  | ok value => post value
  | err _ => True
  | panic => False

@[simp] theorem returns_ok {value : α} {post : α → Prop} :
    (ok value : Eval ε α).Returns post ↔ post value := Iff.rfl

@[simp] theorem returns_err {error : ε} {post : α → Prop} :
    (err error : Eval ε α).Returns post ↔ True := Iff.rfl

@[simp] theorem returns_panic {post : α → Prop} :
    (panic : Eval ε α).Returns post ↔ False := Iff.rfl

theorem Returns.ne_panic {result : Eval ε α} {post : α → Prop} (h : result.Returns post) :
    result ≠ panic := by
  intro heq
  subst heq
  exact h

theorem Returns.mono {result : Eval ε α} {post post' : α → Prop} (h : result.Returns post)
    (hpost : ∀ value, post value → post' value) : result.Returns post' := by
  cases result with
  | ok value => exact hpost value h
  | err error => trivial
  | panic => exact h

theorem Returns.bind {first : Eval ε α} {next : α → Eval ε β} {post : α → Prop} {post' : β → Prop}
    (h : first.Returns post) (hnext : ∀ value, post value → (next value).Returns post') :
    (first >>= next).Returns post' := by
  cases first with
  | ok value => exact hnext value h
  | err error => trivial
  | panic => exact h

theorem Returns.ite {condition : Prop} [Decidable condition] {first second : Eval ε α}
    {post : α → Prop} (h : first.Returns post) (h' : second.Returns post) :
    (if condition then first else second).Returns post := by
  split
  · exact h
  · exact h'

/-- `a + b` of unsigned integers of a width. `checks` tells whether the build panics
on overflow or wraps around. -/
def add (bits : ℕ) (checks : Bool) (a b : ℕ) : Eval ε ℕ :=
  if a + b < 2 ^ bits then ok (a + b)
  else if checks then panic
  else ok ((a + b) % 2 ^ bits)

/-- `a - b` of unsigned integers of a width. -/
def sub (bits : ℕ) (checks : Bool) (a b : ℕ) : Eval ε ℕ :=
  if b ≤ a then ok (a - b)
  else if checks then panic
  else ok (a + 2 ^ bits - b)

theorem add_of_lt {bits : ℕ} {checks : Bool} {a b : ℕ} (h : a + b < 2 ^ bits) :
    (add bits checks a b : Eval ε ℕ) = ok (a + b) := if_pos h

theorem add_checked_of_le {bits a b : ℕ} (h : 2 ^ bits ≤ a + b) :
    (add bits true a b : Eval ε ℕ) = panic := by
  unfold add
  rw [if_neg (Nat.not_lt.mpr h), if_pos rfl]

theorem sub_of_le {bits : ℕ} {checks : Bool} {a b : ℕ} (h : b ≤ a) :
    (sub bits checks a b : Eval ε ℕ) = ok (a - b) := if_pos h

theorem sub_checked_of_lt {bits a b : ℕ} (h : a < b) :
    (sub bits true a b : Eval ε ℕ) = panic := by
  unfold sub
  rw [if_neg (Nat.not_le.mpr h), if_pos rfl]

/-- Where the build with checks does not panic, the other one does the same. -/
def Agrees (call : Bool → Eval ε α) : Prop := call true ≠ panic → call false = call true

theorem agrees_const (result : Eval ε α) : Agrees fun _ => result := fun _ => rfl

theorem agrees_add (bits a b : ℕ) : Agrees fun checks => (add bits checks a b : Eval ε ℕ) := by
  intro h
  dsimp only at h ⊢
  by_cases hlt : a + b < 2 ^ bits
  · rw [add_of_lt hlt, add_of_lt hlt]
  · exact absurd (add_checked_of_le (Nat.not_lt.mp hlt)) h

theorem agrees_sub (bits a b : ℕ) : Agrees fun checks => (sub bits checks a b : Eval ε ℕ) := by
  intro h
  dsimp only at h ⊢
  by_cases hle : b ≤ a
  · rw [sub_of_le hle, sub_of_le hle]
  · exact absurd (sub_checked_of_lt (Nat.not_le.mp hle)) h

theorem Agrees.bind {first : Bool → Eval ε α} {next : Bool → α → Eval ε β} (h : Agrees first)
    (hnext : ∀ value, Agrees fun checks => next checks value) :
    Agrees fun checks => first checks >>= next checks := by
  intro hpanic
  have hfirst : first true ≠ panic := by
    intro heq
    apply hpanic
    simp [heq]
  dsimp only
  rw [h hfirst]
  dsimp only at hpanic
  cases hvalue : first true with
  | ok value =>
    rw [hvalue] at hpanic
    exact hnext value hpanic
  | err error => rfl
  | panic => exact absurd hvalue hfirst

theorem Agrees.ite {condition : Prop} [Decidable condition] {first second : Bool → Eval ε α}
    (h : Agrees first) (h' : Agrees second) :
    Agrees fun checks => if condition then first checks else second checks := by
  by_cases hcondition : condition
  · simpa only [if_pos hcondition] using h
  · simpa only [if_neg hcondition] using h'

theorem Agrees.forall_ne_panic {call : Bool → Eval ε α} (h : Agrees call) :
    (∀ checks, call checks ≠ panic) ↔ call true ≠ panic := by
  constructor
  · intro hall
    exact hall true
  · intro hchecked checks
    cases checks with
    | true => exact hchecked
    | false =>
      rw [h hchecked]
      exact hchecked

end Eval

end XitForge.RustEval
