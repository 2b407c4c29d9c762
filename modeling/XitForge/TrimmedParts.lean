import Mathlib.Data.List.Basic
import Mathlib.Data.List.DropRight
import Mathlib.Logic.Relation

/-!
Lists cut at separators, without the blanks around the parts and without the parts that have
nothing else. Separators may be repeated, and stand at either end.
-/
namespace XitForge.TrimmedParts

variable {α : Type}

/-- Without the blanks at both ends. -/
def trim (isBlank : α → Bool) (xs : List α) : List α := (xs.dropWhile isBlank).rdropWhile isBlank

section Trim

variable {isBlank : α → Bool} {xs blanks : List α}

theorem trim_blank_append (h : ∀ x ∈ blanks, isBlank x = true) (xs : List α) :
    trim isBlank (blanks ++ xs) = trim isBlank xs := by
  unfold trim
  rw [List.dropWhile_append_of_pos h]

theorem rdropWhile_append_blank (h : ∀ x ∈ blanks, isBlank x = true) (xs : List α) :
    (xs ++ blanks).rdropWhile isBlank = xs.rdropWhile isBlank := by
  unfold List.rdropWhile
  rw [List.reverse_append, List.dropWhile_append_of_pos]
  exact fun x hx => h x (List.mem_reverse.mp hx)

theorem trim_append_blank (h : ∀ x ∈ blanks, isBlank x = true) (xs : List α) :
    trim isBlank (xs ++ blanks) = trim isBlank xs := by
  unfold trim
  rw [List.dropWhile_append]
  by_cases hempty : (xs.dropWhile isBlank).isEmpty = true
  · rw [if_pos hempty, List.isEmpty_iff.mp hempty, List.dropWhile_eq_nil_iff.mpr h]
  · rw [if_neg hempty, rdropWhile_append_blank h]

/-- What is trimmed begins and ends with something that is no blank. -/
theorem trim_of_ends {first last : α} (hfirst : isBlank first = false)
    (hlast : isBlank last = false) (hhead : xs.head? = some first)
    (hend : xs.getLast? = some last) : trim isBlank xs = xs := by
  obtain ⟨rest, rfl⟩ := List.head?_eq_some_iff.mp hhead
  obtain ⟨front, hfront⟩ := List.getLast?_eq_some_iff.mp hend
  unfold trim
  rw [List.dropWhile_cons_of_neg (by simp [hfirst]), hfront,
    List.rdropWhile_concat_neg _ _ _ (by simp [hlast])]

theorem dropWhile_trim (xs : List α) :
    (trim isBlank xs).dropWhile isBlank = trim isBlank xs := by
  unfold trim
  cases hdrop : xs.dropWhile isBlank with
  | nil => rfl
  | cons first rest =>
    have hfirst : isBlank first = false := by
      have hhead := List.head?_dropWhile_not isBlank xs
      rw [hdrop] at hhead
      exact hhead
    cases hrest : (first :: rest).rdropWhile isBlank with
    | nil => rfl
    | cons other rest' =>
      have hprefix := List.rdropWhile_prefix isBlank (l := first :: rest)
      rw [hrest] at hprefix
      obtain ⟨tail, htail⟩ := hprefix
      cases htail
      rw [List.dropWhile_cons_of_neg (by simp [hfirst])]

theorem trim_trim (xs : List α) : trim isBlank (trim isBlank xs) = trim isBlank xs := by
  have hdrop : trim isBlank (trim isBlank xs) = (trim isBlank xs).rdropWhile isBlank :=
    congrArg (List.rdropWhile isBlank) (dropWhile_trim xs)
  rw [hdrop]
  exact List.rdropWhile_idempotent _ _

/-- The blanks that are taken off. -/
theorem exists_trim (xs : List α) : ∃ before behind, xs = before ++ trim isBlank xs ++ behind ∧
    (∀ x ∈ before, isBlank x = true) ∧ ∀ x ∈ behind, isBlank x = true := by
  refine ⟨xs.takeWhile isBlank, (xs.dropWhile isBlank).rtakeWhile isBlank, ?_, ?_, ?_⟩
  · unfold trim
    rw [List.append_assoc, List.rdropWhile_append_rtakeWhile, List.takeWhile_append_dropWhile]
  · exact fun x hx => List.mem_takeWhile_imp hx
  · exact fun x hx => List.mem_rtakeWhile_imp hx

end Trim

/-- The parts between separators that are not blank. -/
def parts (isSep isBlank : α → Bool) (xs : List α) : List (List α) :=
  ((xs.splitOnP isSep).map (trim isBlank)).filter (! List.isEmpty ·)

section Parts

variable {isSep isBlank : α → Bool} {xs : List α} {sep : α}

theorem parts_append_cons (hsep : isSep sep = true) (front rest : List α) :
    parts isSep isBlank (front ++ sep :: rest) =
      parts isSep isBlank front ++ parts isSep isBlank rest := by
  unfold parts
  rw [List.splitOnP_append_cons _ _ hsep, List.map_append, List.filter_append]

theorem parts_of_no_sep (h : ∀ x ∈ xs, isSep x = false) :
    parts isSep isBlank xs = [trim isBlank xs].filter (! List.isEmpty ·) := by
  unfold parts
  rw [List.splitOnP_eq_singleton h]
  rfl

theorem parts_nil : parts isSep isBlank ([] : List α) = [] := rfl

theorem parts_cons (hsep : isSep sep = true) (rest : List α) :
    parts isSep isBlank (sep :: rest) = parts isSep isBlank rest :=
  parts_append_cons hsep [] rest

theorem parts_concat (hsep : isSep sep = true) (front : List α) :
    parts isSep isBlank (front ++ [sep]) = parts isSep isBlank front := by
  rw [parts_append_cons hsep, parts_nil, List.append_nil]

/-- Separators in front of a list. -/
theorem parts_sep_append {seps : List α} (h : ∀ x ∈ seps, isSep x = true) (rest : List α) :
    parts isSep isBlank (seps ++ rest) = parts isSep isBlank rest := by
  induction seps with
  | nil => rfl
  | cons sep seps ih =>
    rw [List.cons_append, parts_cons (h sep List.mem_cons_self)]
    exact ih fun x hx => h x (List.mem_cons_of_mem _ hx)

theorem parts_append_sep {seps : List α} (h : ∀ x ∈ seps, isSep x = true) (front : List α) :
    parts isSep isBlank (front ++ seps) = parts isSep isBlank front := by
  induction seps using List.reverseRecOn with
  | nil => rw [List.append_nil]
  | append_singleton seps sep ih =>
    rw [← List.append_assoc, parts_concat (h sep (by simp))]
    exact ih fun x hx => h x (List.mem_append_left _ hx)

/-- Without the separators at both ends. -/
theorem parts_trim_sep (xs : List α) :
    parts isSep isBlank (trim isSep xs) = parts isSep isBlank xs := by
  obtain ⟨before, behind, heq, hbefore, hbehind⟩ := @exists_trim _ isSep xs
  conv_rhs => rw [heq]
  rw [parts_append_sep hbehind, parts_sep_append hbefore]

/-- Every separator written as another one. -/
theorem parts_map {isSep' : α → Bool} {f : α → α} (hsep : ∀ x, isSep' (f x) = isSep x)
    (hkeep : ∀ x, isSep x = false → f x = x) (xs : List α) :
    parts isSep' isBlank (xs.map f) = parts isSep isBlank xs := by
  have hsplit : (xs.map f).splitOnP isSep' = xs.splitOnP isSep := by
    induction xs with
    | nil => rfl
    | cons x xs ih =>
      rw [List.map_cons, List.splitOnP_cons_eq_if_modifyHead, hsep, ih,
        List.splitOnP_cons_eq_if_modifyHead]
      cases hx : isSep x with
      | true => rfl
      | false => rw [hkeep x hx]
  unfold parts
  rw [hsplit]

/-- Parts that are written one after the other. -/
theorem parts_intercalate (hsep : isSep sep = true) {components : List (List α)}
    (hnil : ∀ c ∈ components, c ≠ []) (htrim : ∀ c ∈ components, trim isBlank c = c)
    (hclean : ∀ c ∈ components, ∀ x ∈ c, isSep x = false) :
    parts isSep isBlank (List.intercalate [sep] components) = components := by
  induction components with
  | nil => rfl
  | cons first rest ih =>
    rw [List.forall_mem_cons] at hnil htrim hclean
    have hfirst : parts isSep isBlank first = [first] := by
      rw [parts_of_no_sep hclean.1, htrim.1]
      simp [hnil.1]
    cases rest with
    | nil => rw [List.intercalate_singleton, hfirst]
    | cons second rest =>
      rw [List.intercalate_cons_cons, List.append_assoc, List.singleton_append,
        parts_append_cons hsep, hfirst, ih hnil.2 htrim.2 hclean.2]
      rfl

theorem exists_first_sep (xs : List α) : (∀ x ∈ xs, isSep x = false) ∨
    ∃ front sep rest, xs = front ++ sep :: rest ∧ isSep sep = true ∧
      ∀ x ∈ front, isSep x = false := by
  induction xs with
  | nil => exact .inl nofun
  | cons x xs ih =>
    cases hx : isSep x with
    | true => exact .inr ⟨[], x, xs, rfl, hx, nofun⟩
    | false =>
      rcases ih with hall | ⟨front, sep, rest, rfl, hsep, hfront⟩
      · exact .inl (List.forall_mem_cons.mpr ⟨hx, hall⟩)
      · exact .inr ⟨x :: front, sep, rest, rfl, hsep, List.forall_mem_cons.mpr ⟨hx, hfront⟩⟩

theorem exists_last_sep (xs : List α) : (∀ x ∈ xs, isSep x = false) ∨
    ∃ front sep rest, xs = front ++ sep :: rest ∧ isSep sep = true ∧
      ∀ x ∈ rest, isSep x = false := by
  induction xs with
  | nil => exact .inl nofun
  | cons x xs ih =>
    rcases ih with hall | ⟨front, sep, rest, rfl, hsep, hrest⟩
    · cases hx : isSep x with
      | true => exact .inr ⟨[], x, xs, rfl, hx, hall⟩
      | false => exact .inl (List.forall_mem_cons.mpr ⟨hx, hall⟩)
    · exact .inr ⟨x :: front, sep, rest, rfl, hsep, hrest⟩

variable (hdisjoint : ∀ x, isBlank x = true → isSep x = false)
include hdisjoint

/-- Blanks before the first part. -/
theorem parts_blank_append {blanks : List α} (h : ∀ x ∈ blanks, isBlank x = true)
    (xs : List α) : parts isSep isBlank (blanks ++ xs) = parts isSep isBlank xs := by
  have hblanks : ∀ x ∈ blanks, isSep x = false := fun x hx => hdisjoint x (h x hx)
  have hpart {front : List α} (hfront : ∀ x ∈ front, isSep x = false) :
      parts isSep isBlank (blanks ++ front) = parts isSep isBlank front := by
    rw [parts_of_no_sep (List.forall_mem_append.mpr ⟨hblanks, hfront⟩), parts_of_no_sep hfront,
      trim_blank_append h]
  rcases @exists_first_sep _ isSep xs with hall | ⟨front, sep, rest, rfl, hsep, hfront⟩
  · exact hpart hall
  · rw [← List.append_assoc, parts_append_cons hsep, parts_append_cons hsep, hpart hfront]

theorem parts_append_blank {blanks : List α} (h : ∀ x ∈ blanks, isBlank x = true)
    (xs : List α) : parts isSep isBlank (xs ++ blanks) = parts isSep isBlank xs := by
  have hblanks : ∀ x ∈ blanks, isSep x = false := fun x hx => hdisjoint x (h x hx)
  have hpart {rest : List α} (hrest : ∀ x ∈ rest, isSep x = false) :
      parts isSep isBlank (rest ++ blanks) = parts isSep isBlank rest := by
    rw [parts_of_no_sep (List.forall_mem_append.mpr ⟨hrest, hblanks⟩), parts_of_no_sep hrest,
      trim_append_blank h]
  rcases @exists_last_sep _ isSep xs with hall | ⟨front, sep, rest, rfl, hsep, hrest⟩
  · exact hpart hall
  · rw [List.append_assoc, List.cons_append, parts_append_cons hsep, parts_append_cons hsep,
      hpart hrest]

theorem parts_trim (xs : List α) :
    parts isSep isBlank (trim isBlank xs) = parts isSep isBlank xs := by
  obtain ⟨before, behind, heq, hbefore, hbehind⟩ := @exists_trim _ isBlank xs
  conv_rhs => rw [heq]
  rw [parts_append_blank hdisjoint hbehind, parts_blank_append hdisjoint hbefore]

end Parts

section Respelled

variable (isSep isBlank : α → Bool)

/-- The same parts, written with more separators, with others or with more blanks. -/
inductive Respelled : List α → List α → Prop
  | front {sep : α} (hsep : isSep sep = true) (xs : List α) : Respelled xs (sep :: xs)
  | back {sep : α} (hsep : isSep sep = true) (xs : List α) : Respelled xs (xs ++ [sep])
  | repeated {sep sep' : α} (hsep : isSep sep = true) (hsep' : isSep sep' = true)
      (front rest : List α) : Respelled (front ++ sep :: rest) (front ++ sep :: sep' :: rest)
  | replaced {sep sep' : α} (hsep : isSep sep = true) (hsep' : isSep sep' = true)
      (front rest : List α) : Respelled (front ++ sep :: rest) (front ++ sep' :: rest)
  | blankFront {blanks : List α} (h : ∀ x ∈ blanks, isBlank x = true) (xs : List α) :
      Respelled xs (blanks ++ xs)
  | blankBack {blanks : List α} (h : ∀ x ∈ blanks, isBlank x = true) (xs : List α) :
      Respelled xs (xs ++ blanks)
  | blankBefore {sep : α} {blanks : List α} (hsep : isSep sep = true)
      (h : ∀ x ∈ blanks, isBlank x = true) (front rest : List α) :
      Respelled (front ++ sep :: rest) (front ++ (blanks ++ sep :: rest))
  | blankBehind {sep : α} {blanks : List α} (hsep : isSep sep = true)
      (h : ∀ x ∈ blanks, isBlank x = true) (front rest : List α) :
      Respelled (front ++ sep :: rest) (front ++ sep :: (blanks ++ rest))

variable {isSep isBlank} {xs ys : List α}

theorem Respelled.parts_eq (hdisjoint : ∀ x, isBlank x = true → isSep x = false)
    (h : Respelled isSep isBlank xs ys) : parts isSep isBlank xs = parts isSep isBlank ys := by
  cases h with
  | front hsep _ => rw [parts_cons hsep]
  | back hsep _ => rw [parts_concat hsep]
  | repeated hsep hsep' _ _ =>
    rw [parts_append_cons hsep, parts_append_cons hsep, parts_cons hsep']
  | replaced hsep hsep' _ _ => rw [parts_append_cons hsep, parts_append_cons hsep']
  | blankFront hblank _ => rw [parts_blank_append hdisjoint hblank]
  | blankBack hblank _ => rw [parts_append_blank hdisjoint hblank]
  | blankBefore hsep hblank front _ =>
    rw [← List.append_assoc, parts_append_cons hsep, parts_append_cons hsep,
      parts_append_blank hdisjoint hblank]
  | blankBehind hsep hblank _ _ =>
    rw [parts_append_cons hsep, parts_append_cons hsep, parts_blank_append hdisjoint hblank]

/-- Any number of changes, each of them made or undone. -/
theorem parts_eq_of_eqvGen (hdisjoint : ∀ x, isBlank x = true → isSep x = false)
    (h : Relation.EqvGen (Respelled isSep isBlank) xs ys) :
    parts isSep isBlank xs = parts isSep isBlank ys := by
  induction h with
  | rel _ _ h => exact h.parts_eq hdisjoint
  | refl _ => rfl
  | symm _ _ _ ih => exact ih.symm
  | trans _ _ _ _ _ ih ih' => exact ih.trans ih'

end Respelled

end XitForge.TrimmedParts
