import Mathlib.Data.List.Basic
import Mathlib.Data.List.TakeWhile

/-!
Lists taken apart: at a prefix, and at the first and at the last place of a separator.
-/
namespace XitForge.Separators

section While

variable {α : Type} {p : α → Bool} {front : List α}

/-- The front of a list up to the first element that stops it. -/
theorem takeWhile_stop {stop : α} (hfront : ∀ x ∈ front, p x = true) (hstop : p stop = false)
    (rest : List α) : (front ++ stop :: rest).takeWhile p = front := by
  rw [List.takeWhile_append_of_pos hfront, List.takeWhile_cons_of_neg (by simp [hstop]),
    List.append_nil]

theorem dropWhile_stop {stop : α} (hfront : ∀ x ∈ front, p x = true) (hstop : p stop = false)
    (rest : List α) : (front ++ stop :: rest).dropWhile p = stop :: rest := by
  rw [List.dropWhile_append_of_pos hfront, List.dropWhile_cons_of_neg (by simp [hstop])]

theorem dropWhile_head {xs rest : List α} {stop : α} (h : xs.dropWhile p = stop :: rest) :
    p stop = false := by
  have hhead := List.head?_dropWhile_not p xs
  rw [h] at hhead
  exact hhead

theorem head?_takeWhile_ne {xs : List α} {x : α} (h : xs.head? ≠ some x) :
    (xs.takeWhile p).head? ≠ some x := by
  cases xs with
  | nil => exact h
  | cons y ys =>
    rw [List.takeWhile_cons]
    split
    · exact h
    · simp

end While

variable {α : Type} [DecidableEq α]

/-- What is behind a prefix. -/
def stripPrefix : List α → List α → Option (List α)
  | [], xs => some xs
  | _ :: _, [] => none
  | p :: ps, x :: xs => if p = x then stripPrefix ps xs else none

/-- What is before the first separator, and what is behind it. -/
def splitOnce (sep : α) : List α → Option (List α × List α)
  | [] => none
  | x :: xs =>
    if x = sep then some ([], xs)
    else (splitOnce sep xs).map fun parts => (x :: parts.1, parts.2)

/-- What is before the last separator, and what is behind it. -/
def rsplitOnce (sep : α) : List α → Option (List α × List α)
  | [] => none
  | x :: xs =>
    match rsplitOnce sep xs with
    | some (before, behind) => some (x :: before, behind)
    | none => if x = sep then some ([], xs) else none

/-- What is behind the last separator, or everything where there is none. -/
def behindLast (sep : α) (xs : List α) : List α :=
  match rsplitOnce sep xs with
  | some (_, behind) => behind
  | none => xs

variable {sep : α} {front before behind xs rest : List α}

theorem eq_append_of_stripPrefix (h : stripPrefix front xs = some rest) : xs = front ++ rest := by
  induction front generalizing xs with
  | nil => exact Option.some.inj h
  | cons p front ih =>
    cases xs with
    | nil => simp [stripPrefix] at h
    | cons x xs =>
      unfold stripPrefix at h
      split at h
      · rename_i heq
        rw [heq, ih h, List.cons_append]
      · simp at h

theorem splitOnce_append (h : sep ∉ before) (behind : List α) :
    splitOnce sep (before ++ sep :: behind) = some (before, behind) := by
  induction before with
  | nil => rw [List.nil_append, splitOnce, if_pos rfl]
  | cons x before ih =>
    rw [List.mem_cons, not_or] at h
    rw [List.cons_append, splitOnce, if_neg (Ne.symm h.1), ih h.2]
    rfl

theorem rsplitOnce_eq_none : rsplitOnce sep xs = none ↔ sep ∉ xs := by
  induction xs with
  | nil => simp [rsplitOnce]
  | cons x xs ih =>
    rw [rsplitOnce, List.mem_cons, not_or]
    cases hrest : rsplitOnce sep xs with
    | none =>
      have hxs := ih.mp hrest
      by_cases hx : x = sep
      · simp [hx]
      · simp [hx, Ne.symm hx, hxs]
    | some parts => simp [← ih, hrest]

theorem exists_rsplitOnce (h : sep ∈ xs) :
    ∃ before behind, rsplitOnce sep xs = some (before, behind) := by
  cases hparts : rsplitOnce sep xs with
  | none => exact absurd h (rsplitOnce_eq_none.mp hparts)
  | some parts => exact ⟨parts.1, parts.2, rfl⟩

theorem rsplitOnce_append (h : sep ∉ behind) (before : List α) :
    rsplitOnce sep (before ++ sep :: behind) = some (before, behind) := by
  induction before with
  | nil => rw [List.nil_append, rsplitOnce, rsplitOnce_eq_none.mpr h, if_pos rfl]
  | cons x before ih => rw [List.cons_append, rsplitOnce, ih]

theorem eq_append_of_rsplitOnce (h : rsplitOnce sep xs = some (before, behind)) :
    xs = before ++ sep :: behind ∧ sep ∉ behind := by
  induction xs generalizing before with
  | nil => simp [rsplitOnce] at h
  | cons x xs ih =>
    rw [rsplitOnce] at h
    cases hrest : rsplitOnce sep xs with
    | none =>
      rw [hrest] at h
      obtain ⟨rfl, hparts⟩ := Option.ite_none_right_eq_some.mp h
      cases hparts
      exact ⟨rfl, rsplitOnce_eq_none.mp hrest⟩
    | some parts =>
      rw [hrest] at h
      cases h
      obtain ⟨hxs, hbehind⟩ := ih hrest
      exact ⟨by rw [List.cons_append, ← hxs], hbehind⟩

theorem behindLast_of_notMem (h : sep ∉ xs) : behindLast sep xs = xs := by
  unfold behindLast
  rw [rsplitOnce_eq_none.mpr h]

theorem notMem_behindLast (sep : α) (xs : List α) : sep ∉ behindLast sep xs := by
  unfold behindLast
  split
  · rename_i hparts
    exact (eq_append_of_rsplitOnce hparts).2
  · rename_i hnone
    exact rsplitOnce_eq_none.mp hnone

theorem behindLast_subset (sep : α) (xs : List α) : behindLast sep xs ⊆ xs := by
  unfold behindLast
  split
  · rename_i hparts
    rw [(eq_append_of_rsplitOnce hparts).1]
    exact fun x hx => List.mem_append_right _ (List.mem_cons_of_mem _ hx)
  · exact List.Subset.refl _

end XitForge.Separators
