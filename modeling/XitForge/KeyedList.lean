import Mathlib.Data.List.Nodup

/-!
Lists of keys and values that are read as maps, the first entry of a key being its value.
-/
namespace XitForge.KeyedList

variable {κ α β : Type} [DecidableEq κ]

def get (entries : List (κ × β)) (key : κ) : Option β :=
  (entries.find? fun entry => entry.1 == key).map Prod.snd

/-- A value in the place of the one of its key, or behind the others. -/
def insert (entries : List (κ × β)) (key : κ) (value : β) : List (κ × β) :=
  if key ∈ entries.map Prod.fst then
    entries.map fun entry => if entry.1 = key then (key, value) else entry
  else entries ++ [(key, value)]

def remove (entries : List (κ × β)) (key : κ) : List (κ × β) :=
  entries.filter fun entry => entry.1 != key

variable {entries : List (κ × β)} {key other : κ}

@[simp] theorem get_nil : get ([] : List (κ × β)) key = none := rfl

theorem get_cons (entry : κ × β) (entries : List (κ × β)) :
    get (entry :: entries) key = if entry.1 = key then some entry.2 else get entries key := by
  unfold get
  rw [List.find?_cons]
  by_cases h : entry.1 = key
  · rw [if_pos h, beq_iff_eq.mpr h]
    rfl
  · rw [if_neg h, beq_eq_false_iff_ne.mpr h]

theorem get_append (entries rest : List (κ × β)) :
    get (entries ++ rest) key = (get entries key).or (get rest key) := by
  induction entries with
  | nil => rfl
  | cons entry entries ih =>
    rw [List.cons_append, get_cons, get_cons, ih]
    split <;> rfl

theorem get_eq_none (h : key ∉ entries.map Prod.fst) : get entries key = none := by
  induction entries with
  | nil => rfl
  | cons entry entries ih =>
    rw [List.map_cons, List.mem_cons, not_or] at h
    rw [get_cons, if_neg (Ne.symm h.1), ih h.2]

theorem notMem_of_get (h : get entries key = none) : key ∉ entries.map Prod.fst := by
  induction entries with
  | nil => exact List.not_mem_nil
  | cons entry entries ih =>
    rw [get_cons] at h
    split at h
    · cases h
    · rename_i hne
      rw [List.map_cons, List.mem_cons, not_or]
      exact ⟨Ne.symm hne, ih h⟩

theorem mem_of_get {value : β} (h : get entries key = some value) : (key, value) ∈ entries := by
  induction entries with
  | nil => cases h
  | cons entry entries ih =>
    rw [get_cons] at h
    split at h
    · rename_i heq
      cases h
      rw [← heq]
      exact List.mem_cons_self
    · exact List.mem_cons_of_mem _ (ih h)

/-- An entry of a list with different keys is the value of its key. -/
theorem get_of_mem {value : β} (hkeys : (entries.map Prod.fst).Nodup)
    (h : (key, value) ∈ entries) : get entries key = some value := by
  induction entries with
  | nil => cases h
  | cons entry entries ih =>
    rw [List.map_cons, List.nodup_cons] at hkeys
    rw [get_cons]
    rcases List.mem_cons.mp h with rfl | h
    · rw [if_pos rfl]
    · have hne : entry.1 ≠ key := fun heq =>
        hkeys.1 (heq ▸ List.mem_map_of_mem (f := Prod.fst) h)
      rw [if_neg hne, ih hkeys.2 h]

theorem get_replace (entries : List (κ × β)) (key other : κ) (value : β) :
    get (entries.map fun entry => if entry.1 = key then (key, value) else entry) other =
      if other = key then (get entries key).map fun _ => value else get entries other := by
  induction entries with
  | nil => simp
  | cons entry entries ih =>
    rw [List.map_cons, get_cons, ih, get_cons, get_cons]
    by_cases hentry : entry.1 = key
    · rw [if_pos hentry, if_pos hentry]
      by_cases hother : other = key
      · rw [if_pos hother.symm, if_pos hother]
        rfl
      · rw [if_neg hother, if_neg (Ne.symm hother), hentry, if_neg (Ne.symm hother), if_neg hother]
    · rw [if_neg hentry, if_neg hentry]
      by_cases hother : other = key
      · rw [hother, if_neg hentry, if_pos rfl, if_pos rfl]
      · rw [if_neg hother, if_neg hother]

theorem get_insert (entries : List (κ × β)) (key other : κ) (value : β) :
    get (insert entries key value) other =
      if other = key then some value else get entries other := by
  unfold insert
  split
  · rename_i hmem
    have hsome : get entries key ≠ none := fun hnone => notMem_of_get hnone hmem
    obtain ⟨old, hold⟩ := Option.ne_none_iff_exists'.mp hsome
    rw [get_replace, hold]
    rfl
  · rename_i hmem
    rw [get_append, get_cons, get_nil]
    by_cases h : other = key
    · rw [h, get_eq_none hmem, if_pos rfl, Option.none_or]
    · rw [if_neg h, if_neg (Ne.symm h), Option.or_none]

theorem get_remove (entries : List (κ × β)) (key other : κ) :
    get (remove entries key) other = if other = key then none else get entries other := by
  unfold remove
  induction entries with
  | nil => simp
  | cons entry entries ih =>
    rw [List.filter_cons, get_cons]
    by_cases hentry : entry.1 = key
    · rw [if_neg (by simp [hentry]), ih]
      by_cases hother : other = key
      · rw [if_pos hother, if_pos hother]
      · rw [if_neg hother, if_neg hother, hentry, if_neg (Ne.symm hother)]
    · rw [if_pos (by simp [hentry]), get_cons, ih]
      by_cases hother : other = key
      · rw [hother, if_neg hentry, if_pos rfl, if_pos rfl]
      · rw [if_neg hother, if_neg hother]

/-- A loop over entries with different keys, whose steps change the values of their own
keys only. -/
theorem get_foldl {step : List (κ × β) → κ × α → List (κ × β)} {change : κ → α → Option β}
    (hstep : ∀ d entry other, get (step d entry) other =
      if other = entry.1 then (change entry.1 entry.2).or (get d other) else get d other)
    {changes : List (κ × α)} (hkeys : (changes.map Prod.fst).Nodup) (entries : List (κ × β)) :
    get (changes.foldl step entries) key =
      ((get changes key).bind (change key)).or (get entries key) := by
  induction changes generalizing entries with
  | nil => rfl
  | cons entry changes ih =>
    rw [List.map_cons, List.nodup_cons] at hkeys
    rw [List.foldl_cons, ih hkeys.2, hstep, get_cons]
    by_cases hentry : entry.1 = key
    · rw [if_pos hentry.symm, if_pos hentry]
      rw [hentry] at hkeys
      rw [get_eq_none hkeys.1, hentry]
      rfl
    · rw [if_neg (Ne.symm hentry), if_neg hentry]

end XitForge.KeyedList
