import Mathlib.Data.List.Basic
import Mathlib.Data.Nat.Find

/-!
Lists that a delimiter cuts into segments, at its leftmost occurrences that do not overlap.
-/
namespace XitForge.Delimiters

variable {α : Type}

/-- The delimiter stands at an index of the list. -/
def Occurs (delim xs : List α) (i : ℕ) : Prop := delim <+: xs.drop i

/-- The first index where the delimiter stands. -/
def Leftmost (delim xs : List α) (i : ℕ) : Prop :=
  Occurs delim xs i ∧ ∀ j, j < i → ¬ Occurs delim xs j

/-- The segments before the delimiters, and what is behind the last one. -/
inductive Segments (delim : List α) : List α → List (List α) → List α → Prop
  | last {xs : List α} (h : ∀ i, ¬ Occurs delim xs i) : Segments delim xs [] xs
  | next {xs : List α} {i : ℕ} {segments : List (List α)} {last : List α}
      (h : Leftmost delim xs i)
      (hrest : Segments delim (xs.drop (i + delim.length)) segments last) :
      Segments delim xs (xs.take i :: segments) last

variable {delim xs ys : List α} {i : ℕ}

theorem Occurs.le_length (h : Occurs delim xs i) (hdelim : delim ≠ []) :
    i + delim.length ≤ xs.length := by
  have hlength := List.IsPrefix.length_le h
  rw [List.length_drop] at hlength
  have hpos := List.length_pos_iff.mpr hdelim
  omega

theorem Occurs.append (h : Occurs delim xs i) (hdelim : delim ≠ []) (ys : List α) :
    Occurs delim (xs ++ ys) i := by
  have hle := h.le_length hdelim
  unfold Occurs
  rw [List.drop_append_of_le_length (by omega)]
  exact List.IsPrefix.trans h (List.prefix_append _ _)

/-- What stands within the front of a list stands there without the rest. -/
theorem Occurs.of_append (h : Occurs delim (xs ++ ys) i) (hle : i + delim.length ≤ xs.length) :
    Occurs delim xs i := by
  unfold Occurs at h ⊢
  rw [List.drop_append_of_le_length (by omega)] at h
  refine List.prefix_of_prefix_length_le h (List.prefix_append _ _) ?_
  rw [List.length_drop]
  omega

/-- More of the list does not move the first delimiter. -/
theorem Leftmost.append (h : Leftmost delim xs i) (hdelim : delim ≠ []) (ys : List α) :
    Leftmost delim (xs ++ ys) i := by
  refine ⟨h.1.append hdelim ys, fun j hj hoccurs => h.2 j hj (hoccurs.of_append ?_)⟩
  have hle := h.1.le_length hdelim
  omega

theorem Leftmost.unique {j : ℕ} (h : Leftmost delim xs i) (h' : Leftmost delim xs j) : i = j := by
  rcases Nat.lt_trichotomy i j with hlt | heq | hlt
  · exact absurd h.1 (h'.2 i hlt)
  · exact heq
  · exact absurd h'.1 (h.2 j hlt)

/-- A list is cut in one way only. -/
theorem Segments.unique {segments segments' : List (List α)} {last last' : List α}
    (h : Segments delim xs segments last) (h' : Segments delim xs segments' last') :
    segments = segments' ∧ last = last' := by
  induction h generalizing segments' with
  | last hnone =>
    cases h' with
    | last _ => exact ⟨rfl, rfl⟩
    | next hfirst _ => exact absurd hfirst.1 (hnone _)
  | next hfirst _ ih =>
    cases h' with
    | last hnone => exact absurd hfirst.1 (hnone _)
    | next hfirst' hrest' =>
      obtain rfl := hfirst.unique hfirst'
      obtain ⟨hsegments, hlast⟩ := ih hrest'
      exact ⟨by rw [hsegments], hlast⟩

/-- Every list is cut. -/
theorem exists_segments (hdelim : delim ≠ []) (xs : List α) :
    ∃ segments last, Segments delim xs segments last := by
  classical
  induction hlength : xs.length using Nat.strong_induction_on generalizing xs with
  | h length ih =>
    by_cases hnone : ∀ i, ¬ Occurs delim xs i
    · exact ⟨[], xs, .last hnone⟩
    · simp only [not_forall, not_not] at hnone
      have hfirst : Leftmost delim xs (Nat.find hnone) :=
        ⟨Nat.find_spec hnone, fun _ hj => Nat.find_min hnone hj⟩
      have hle := hfirst.1.le_length hdelim
      have hpos := List.length_pos_iff.mpr hdelim
      obtain ⟨segments, last, hrest⟩ := ih (xs.drop (Nat.find hnone + delim.length)).length
        (by rw [List.length_drop]; omega) _ rfl
      exact ⟨_, last, .next hfirst hrest⟩

/-- The pieces of that length, from each index where one fits. -/
def windows (size : ℕ) (xs : List α) : List (List α) :=
  (List.range (xs.length + 1 - size)).map fun i => (xs.drop i).take size

theorem getElem_windows {size : ℕ} (h : i < (windows size xs).length) :
    (windows size xs)[i] = (xs.drop i).take size := by
  simp [windows]

theorem occurs_iff_take (delim xs : List α) (i : ℕ) :
    Occurs delim xs i ↔ (xs.drop i).take delim.length = delim := by
  rw [Occurs, List.prefix_iff_eq_take]
  exact eq_comm

section Search

variable [DecidableEq α]

/-- The index of the first window that is the delimiter. -/
def position (delim xs : List α) : Option ℕ :=
  (windows delim.length xs).findIdx? fun window => decide (window = delim)

theorem position_eq_some (h : position delim xs = some i) : Leftmost delim xs i := by
  obtain ⟨hlt, hwindow, hbefore⟩ := List.findIdx?_eq_some_iff_getElem.mp h
  refine ⟨?_, fun j hj => ?_⟩
  · rw [occurs_iff_take, ← getElem_windows hlt]
    exact of_decide_eq_true hwindow
  · rw [occurs_iff_take, ← getElem_windows (Nat.lt_trans hj hlt)]
    exact fun heq => hbefore j hj (decide_eq_true heq)

theorem position_eq_none (h : position delim xs = none) (hdelim : delim ≠ []) :
    ¬ Occurs delim xs i := by
  intro hoccurs
  have hle := hoccurs.le_length hdelim
  have hmem : (xs.drop i).take delim.length ∈ windows delim.length xs :=
    List.mem_map_of_mem (List.mem_range.mpr (by omega))
  have hne := List.findIdx?_eq_none_iff.mp h _ hmem
  rw [decide_eq_false_iff_not, ← occurs_iff_take] at hne
  exact hne hoccurs

theorem position_of_leftmost (h : Leftmost delim xs i) (hdelim : delim ≠ []) :
    position delim xs = some i := by
  cases hpos : position delim xs with
  | some j => rw [(position_eq_some hpos).unique h]
  | none => exact absurd h.1 (position_eq_none hpos hdelim)

/-- The segments of a list and what is behind the last one. -/
def split (delim : List α) (hdelim : delim ≠ []) (xs : List α) : List (List α) :=
  match _hpos : position delim xs with
  | some i => xs.take i :: split delim hdelim (xs.drop (i + delim.length))
  | none => [xs]
termination_by xs.length
decreasing_by
  have hle := (position_eq_some _hpos).1.le_length hdelim
  have hpositive := List.length_pos_iff.mpr hdelim
  rw [List.length_drop]
  omega

theorem split_eq {segments : List (List α)} {last : List α} (hdelim : delim ≠ [])
    (h : Segments delim xs segments last) : split delim hdelim xs = segments ++ [last] := by
  induction h with
  | @last xs hnone =>
    rw [split]
    split
    · rename_i hpos
      exact absurd (position_eq_some hpos).1 (hnone _)
    · rfl
  | @next xs i segments last hfirst hrest ih =>
    rw [split]
    split
    · rename_i j hpos
      obtain rfl := (position_eq_some hpos).unique hfirst
      rw [ih, List.cons_append]
    · rename_i hpos
      exact absurd hfirst.1 (position_eq_none hpos hdelim)

end Search

section Lines

variable {first second : α} {line rest : List α}

theorem occurs_append_iff (front delim xs : List α) (i : ℕ) :
    Occurs delim (front ++ xs) (front.length + i) ↔ Occurs delim xs i := by
  unfold Occurs
  rw [List.drop_length_add_append]

theorem Occurs.of_append_delim {delim' : List α} (h : Occurs (delim ++ delim') xs i) :
    Occurs delim xs i ∧ Occurs delim' xs (i + delim.length) := by
  obtain ⟨rest, hrest⟩ := h
  rw [List.append_assoc] at hrest
  refine ⟨⟨delim' ++ rest, hrest⟩, rest, ?_⟩
  rw [← List.drop_drop, ← hrest, List.drop_left]

theorem occurs_pair : Occurs [first, second] xs i ↔
    xs[i]? = some first ∧ xs[i + 1]? = some second := by
  have hfirst : xs[i]? = (xs.drop i)[0]? := by rw [List.getElem?_drop, Nat.add_zero]
  have hsecond : xs[i + 1]? = (xs.drop i)[1]? := by rw [List.getElem?_drop]
  rw [Occurs, hfirst, hsecond]
  constructor
  · intro h
    obtain ⟨rest, hrest⟩ := h
    rw [← hrest]
    exact ⟨rfl, rfl⟩
  · intro h
    obtain ⟨h0, h1⟩ := h
    match hdrop : xs.drop i, h0, h1 with
    | x :: y :: rest, h0, h1 =>
      cases h0
      cases h1
      exact ⟨rest, rfl⟩

/-- What ends a line does not stand before its end. -/
theorem not_occurs_line (hne : first ≠ second) (hline : ∀ i, ¬ Occurs [first, second] line i)
    (hlt : i < line.length) (rest : List α) :
    ¬ Occurs [first, second] (line ++ first :: rest) i := by
  intro h
  by_cases hle : i + 2 ≤ line.length
  · exact hline i (h.of_append hle)
  · have hend : i + 1 = line.length := by omega
    have hsecond := (occurs_pair.mp h).2
    rw [hend, List.getElem?_append_right (Nat.le_refl _), Nat.sub_self,
      List.getElem?_cons_zero, Option.some.injEq] at hsecond
    exact hne hsecond

theorem leftmost_line (hne : first ≠ second) (hline : ∀ i, ¬ Occurs [first, second] line i)
    (rest : List α) : Leftmost [first, second] (line ++ first :: second :: rest) line.length := by
  refine ⟨?_, fun i hi => not_occurs_line hne hline hi _⟩
  unfold Occurs
  rw [List.drop_left]
  exact ⟨rest, rfl⟩

/-- The text of lines, with what ends a line between them. -/
def joined (first second : α) : List (List α) → List α
  | [] => []
  | [line] => line
  | line :: lines => line ++ first :: second :: joined first second lines

theorem joined_cons (line : List α) {lines : List (List α)} (h : lines ≠ []) :
    joined first second (line :: lines) = line ++ first :: second :: joined first second lines := by
  cases lines with
  | nil => exact absurd rfl h
  | cons next lines => rfl

theorem joined_cons_append (line : List α) (lines : List (List α)) (rest : List α) :
    ∃ more, joined first second (line :: lines) ++ first :: rest = line ++ first :: more := by
  cases lines with
  | nil => exact ⟨rest, rfl⟩
  | cons next lines =>
    refine ⟨second :: (joined first second (next :: lines) ++ first :: rest), ?_⟩
    rw [joined_cons line (List.cons_ne_nil next lines), List.append_assoc]
    rfl

theorem segments_joined (hne : first ≠ second) {lines : List (List α)} {last : List α}
    (hlines : ∀ line ∈ lines ++ [last], ∀ i, ¬ Occurs [first, second] line i) :
    Segments [first, second] (joined first second (lines ++ [last])) lines last := by
  induction lines with
  | nil => exact .last (hlines last (by simp))
  | cons line lines ih =>
    have hrest := ih fun line hmem => hlines line (List.mem_cons_of_mem _ hmem)
    have hfirst := leftmost_line hne (hlines line (by simp))
      (joined first second (lines ++ [last]))
    rw [List.cons_append, joined_cons line (by simp)]
    have hdrop : (line ++ first :: second :: joined first second (lines ++ [last])).drop
        (line.length + [first, second].length) = joined first second (lines ++ [last]) := by
      rw [List.drop_length_add_append]
      rfl
    rw [← hdrop] at hrest
    have hnext := Segments.next hfirst hrest
    rwa [List.take_left] at hnext

theorem split_joined [DecidableEq α] (hne : first ≠ second) {lines : List (List α)}
    (hnil : lines ≠ []) (hlines : ∀ line ∈ lines, ∀ i, ¬ Occurs [first, second] line i)
    (hdelim : [first, second] ≠ []) :
    split [first, second] hdelim (joined first second lines) = lines := by
  rw [← List.dropLast_append_getLast hnil] at hlines ⊢
  exact split_eq hdelim (segments_joined hne hlines)

theorem not_occurs_empty_line (hne : first ≠ second) {lines : List (List α)}
    (hlines : ∀ line ∈ lines, line ≠ [] ∧ ∀ i, ¬ Occurs [first, second] line i) (rest : List α)
    (hlt : i < (joined first second lines).length) :
    ¬ Occurs [first, second, first, second] (joined first second lines ++ first :: rest) i := by
  intro h
  have hboth : Occurs [first, second] _ i ∧ Occurs [first, second] _ (i + 2) :=
    Occurs.of_append_delim h
  induction lines generalizing i with
  | nil => exact absurd hlt (Nat.not_lt_zero i)
  | cons line lines ih =>
    have hline := (hlines line List.mem_cons_self).2
    cases lines with
    | nil => exact not_occurs_line hne hline hlt rest hboth.1
    | cons next lines =>
      obtain ⟨hnext, hnextline⟩ := hlines next (by simp)
      obtain ⟨more, hmore⟩ : ∃ more, joined first second (next :: lines) ++ first :: rest =
          next ++ first :: more := joined_cons_append next lines rest
      rw [joined_cons line (List.cons_ne_nil next lines), List.length_append, List.length_cons,
        List.length_cons] at hlt
      rw [joined_cons line (List.cons_ne_nil next lines), List.append_assoc, List.cons_append,
        List.cons_append] at h hboth
      rcases Nat.lt_trichotomy i line.length with hi | hi | hi
      · exact not_occurs_line hne hline hi _ hboth.1
      · -- the next line would start with what ends a line
        subst hi
        have hstart := (occurs_append_iff line _ _ 2).mp hboth.2
        rw [hmore] at hstart
        exact not_occurs_line hne hnextline (List.length_pos_iff.mpr hnext) more hstart
      · obtain ⟨j, rfl⟩ : ∃ j, i = line.length + (j + 1) := ⟨i - line.length - 1, by omega⟩
        have hshift := (occurs_append_iff line _ _ (j + 1)).mp h
        cases j with
        | zero =>
          have hfirst := (occurs_pair.mp (Occurs.of_append_delim hshift).1).1
          exact hne (Option.some.inj hfirst).symm
        | succ j =>
          exact ih (fun line hmem => hlines line (List.mem_cons_of_mem _ hmem)) (by omega) hshift
            (Occurs.of_append_delim hshift)

/-- The first empty line stands behind lines that are not empty. -/
theorem leftmost_empty_line (hne : first ≠ second) {lines : List (List α)}
    (hlines : ∀ line ∈ lines, line ≠ [] ∧ ∀ i, ¬ Occurs [first, second] line i) (rest : List α) :
    Leftmost [first, second, first, second]
      (joined first second lines ++ first :: second :: first :: second :: rest)
      (joined first second lines).length := by
  refine ⟨?_, fun i hi => not_occurs_empty_line hne hlines _ hi⟩
  unfold Occurs
  rw [List.drop_left]
  exact ⟨rest, rfl⟩

end Lines

end XitForge.Delimiters
