import XitForge.FileTree

/-!
What happens to whole subtrees of a directory tree: one is removed, one is moved to another
place, and the directories on the way to a path are made. Each operation is told by what
stands at a path behind it.
-/
namespace XitForge.FileTree

open Inode

variable {ν ε : Type} [DecidableEq ν] [Inode ε]

section Rekey

/-- No two paths come to one. -/
def Separates (f : List ν → Option (List ν)) : Prop :=
  ∀ path path' target, f path = some target → f path' = some target → path = path'

/-- The entries at other paths, and without those whose paths go nowhere. -/
def rekey (f : List ν → Option (List ν)) (hf : Separates f) (entries : Entries ν ε) :
    Entries ν ε where
  entries := entries.entries.filterMap fun entry => (f entry.1).map fun path => ⟨path, entry.2⟩
  nodupKeys := by
    rw [List.nodupKeys_iff_pairwise, List.pairwise_filterMap]
    refine (List.nodupKeys_iff_pairwise.mp entries.nodupKeys).imp ?_
    intro entry entry' hne moved hmoved moved' hmoved' heq
    obtain ⟨target, htarget, rfl⟩ := Option.map_eq_some_iff.mp hmoved
    obtain ⟨target', htarget', rfl⟩ := Option.map_eq_some_iff.mp hmoved'
    obtain rfl : target = target' := heq
    exact hne (hf _ _ _ htarget htarget')

variable {f : List ν → Option (List ν)} {hf : Separates f} {entries : Entries ν ε}

omit [Inode ε] in
theorem lookup_rekey {target : List ν} {entry : ε} :
    (rekey f hf entries).lookup target = some entry ↔
      ∃ path, f path = some target ∧ entries.lookup path = some entry := by
  rw [← Option.mem_def, AList.mem_lookup_iff]
  constructor
  · intro hmem
    obtain ⟨found, hfound, hmoved⟩ := List.mem_filterMap.mp hmem
    obtain ⟨path, hpath, heq⟩ := Option.map_eq_some_iff.mp hmoved
    cases heq
    exact ⟨found.1, hpath, AList.mem_lookup_iff.mpr hfound⟩
  · intro h
    obtain ⟨path, hpath, hentry⟩ := h
    refine List.mem_filterMap.mpr ⟨⟨path, entry⟩, AList.mem_lookup_iff.mp hentry, ?_⟩
    rw [hpath]
    rfl

end Rekey

section Removal

theorem separates_outside (path : List ν) :
    Separates fun other => if path <+: other then none else some other := by
  intro other other' target h h'
  dsimp only at h h'
  split at h
  · cases h
  · split at h'
    · cases h'
    · exact (Option.some.inj h).trans (Option.some.inj h').symm

theorem lookup_outside (tree : FileTree ν ε) (path other : List ν) :
    (rekey _ (separates_outside path) tree.entries).lookup other =
      if path <+: other then none else tree.lookup other := by
  refine Option.ext fun entry => ?_
  rw [lookup_rekey]
  constructor
  · intro h
    obtain ⟨found, hfound, hentry⟩ := h
    split at hfound
    · cases hfound
    · rename_i hother
      cases hfound
      rw [if_neg hother]
      exact hentry
  · intro h
    split at h
    · cases h
    · rename_i hother
      exact ⟨other, if_neg hother, h⟩

/-- A path and whatever stands below it go. -/
def removeAll (tree : FileTree ν ε) (path : List ν) : FileTree ν ε where
  entries := rekey _ (separates_outside path) tree.entries
  parents := by
    intro other entry hentry
    rw [lookup_outside] at hentry
    split at hentry
    · cases hentry
    · rename_i hother
      obtain ⟨hne, hparent⟩ := tree.parents other entry hentry
      refine ⟨hne, hparent.imp_right fun h => ?_⟩
      rw [lookup_outside, if_neg fun hbelow => hother (hbelow.trans (List.dropLast_prefix other))]
      exact h

/-- Nothing stands below an entry that is no directory. -/
theorem lookup_below (tree : FileTree ν ε) {path other : List ν} {entry : ε}
    (hentry : tree.lookup path = some entry) (hnodir : isDirectory entry = false)
    (hbelow : path <+: other) (hne : other ≠ path) : tree.lookup other = none := by
  cases hother : tree.lookup other with
  | none => rfl
  | some found =>
    obtain ⟨rest, rfl⟩ := hbelow
    have hrest : rest ≠ [] := fun hnil => hne (by rw [hnil, List.append_nil])
    have hpos := List.length_pos_iff.mpr (tree.parents path entry hentry).1
    have hlt : path.length < (path ++ rest).length := by
      have hlength := List.length_pos_iff.mpr hrest
      rw [List.length_append]
      omega
    obtain ⟨parent, hparent, hisdir⟩ := tree.isDirectory_take _ found hother path.length hpos hlt
    rw [List.take_left' rfl, hentry] at hparent
    cases hparent
    rw [hnodir] at hisdir
    cases hisdir

end Removal

section Moving

variable {old new : List ν}

/-- Where a path is after a move: below the new one, gone, or where it was. -/
def movedTo (old new path : List ν) : Option (List ν) :=
  if old <+: path then some (new ++ path.drop old.length)
  else if new <+: path then none
  else some path

theorem separates_movedTo (old new : List ν) : Separates (movedTo old new) := by
  intro path path' target h h'
  unfold movedTo at h h'
  split at h
  · rename_i hold
    obtain ⟨rest, rfl⟩ := hold
    cases h
    split at h'
    · rename_i hold'
      obtain ⟨rest', rfl⟩ := hold'
      have heq := Option.some.inj h'
      simp only [List.drop_left, List.append_cancel_left_eq] at heq
      rw [heq]
    · split at h'
      · cases h'
      · rename_i hnew'
        cases h'
        exact absurd (List.prefix_append new _) hnew'
  · split at h
    · cases h
    · rename_i hnew
      cases h
      split at h'
      · cases h'
        exact absurd (List.prefix_append new _) hnew
      · split at h'
        · cases h'
        · cases h'
          rfl

theorem lookup_movedTo (tree : FileTree ν ε) (old new other : List ν) :
    (rekey _ (separates_movedTo old new) tree.entries).lookup other =
      if new <+: other then tree.lookup (old ++ other.drop new.length)
      else if old <+: other then none
      else tree.lookup other := by
  refine Option.ext fun entry => ?_
  rw [lookup_rekey]
  constructor
  · intro h
    obtain ⟨path, hpath, hentry⟩ := h
    unfold movedTo at hpath
    split at hpath
    · rename_i hold
      obtain ⟨rest, rfl⟩ := hold
      cases hpath
      rw [if_pos (List.prefix_append new _), List.drop_left, List.drop_left]
      exact hentry
    · rename_i hold
      split at hpath
      · cases hpath
      · rename_i hnew
        cases hpath
        rw [if_neg hnew, if_neg hold]
        exact hentry
  · intro h
    split at h
    · rename_i hnew
      obtain ⟨rest, rfl⟩ := hnew
      rw [List.drop_left] at h
      refine ⟨old ++ rest, ?_, h⟩
      unfold movedTo
      rw [if_pos (List.prefix_append old rest), List.drop_left]
    · rename_i hnew
      split at h
      · cases h
      · rename_i hold
        refine ⟨other, ?_, h⟩
        unfold movedTo
        rw [if_neg hold, if_neg hnew]

/-- Whether an entry can be moved: a directory over an empty directory, another entry over one
that is no directory, or to where nothing stands yet; and nothing into itself. -/
def canMove (tree : FileTree ν ε) (old new : List ν) : Bool :=
  (tree.lookup old).any fun entry =>
    !new.isEmpty && tree.hasParent new && !decide (old <+: new) &&
      (tree.lookup new).all fun target =>
        if isDirectory entry then isDirectory target && (tree.names new).isEmpty
        else !isDirectory target

theorem canMove_place {tree : FileTree ν ε} (h : tree.canMove old new = true) :
    (∃ entry, tree.lookup old = some entry) ∧ new ≠ [] ∧ tree.hasParent new = true ∧
      ¬ old <+: new := by
  obtain ⟨entry, hentry, hcan⟩ := (Option.any_eq_true _ _).mp h
  simp only [Bool.and_eq_true, Bool.not_eq_true', decide_eq_false_iff_not] at hcan
  refine ⟨⟨entry, hentry⟩, ?_, hcan.1.1.2, hcan.1.2⟩
  intro hnil
  rw [hnil] at hcan
  cases hcan.1.1.1

/-- After a move every entry stands in a directory. -/
theorem parents_moved {tree : FileTree ν ε} (h : tree.canMove old new = true) :
    ∀ path entry, (rekey _ (separates_movedTo old new) tree.entries).lookup path = some entry →
      path ≠ [] ∧ (path.dropLast = [] ∨ ∃ parent,
        (rekey _ (separates_movedTo old new) tree.entries).lookup path.dropLast = some parent ∧
          isDirectory parent = true) := by
  obtain ⟨⟨moving, hmoving⟩, hne, hparent, hinto⟩ := canMove_place h
  have hold := (tree.parents old moving hmoving).1
  intro path entry hentry
  rw [lookup_movedTo] at hentry
  by_cases hnew : new <+: path
  · obtain ⟨rest, rfl⟩ := hnew
    rw [if_pos (List.prefix_append new rest), List.drop_left] at hentry
    refine ⟨fun hnil => hne (List.append_eq_nil_iff.mp hnil).1, ?_⟩
    by_cases hrest : rest = []
    · -- the entry itself, in the directory that it was moved to
      rw [hrest, List.append_nil]
      simp only [hasParent, Bool.or_eq_true, List.isEmpty_iff, Option.any_eq_true] at hparent
      refine hparent.imp_right fun hdir => ?_
      have hshort : ¬ new <+: new.dropLast := fun hbelow =>
        dropLast_ne_self hne ((List.dropLast_prefix new).eq_of_length_le hbelow.length_le)
      rw [lookup_movedTo, if_neg hshort,
        if_neg fun hbelow => hinto (hbelow.trans (List.dropLast_prefix new))]
      exact hdir
    · right
      rw [List.dropLast_append_of_ne_nil hrest, lookup_movedTo,
        if_pos (List.prefix_append new _), List.drop_left]
      obtain ⟨-, hroot | hdir⟩ := tree.parents _ entry hentry
      · rw [List.dropLast_append_of_ne_nil hrest] at hroot
        exact absurd (List.append_eq_nil_iff.mp hroot).1 hold
      · rwa [List.dropLast_append_of_ne_nil hrest] at hdir
  · rw [if_neg hnew] at hentry
    split at hentry
    · cases hentry
    · rename_i hother
      obtain ⟨hpath, hdir⟩ := tree.parents path entry hentry
      refine ⟨hpath, hdir.imp_right fun hdir => ?_⟩
      have hshort := List.dropLast_prefix path
      rw [lookup_movedTo, if_neg fun hbelow => hnew (hbelow.trans hshort),
        if_neg fun hbelow => hother (hbelow.trans hshort)]
      exact hdir

/-- A path, with what stands below it, becomes another one; onto itself nothing happens. -/
def rename (tree : FileTree ν ε) (old new : List ν) : Option (FileTree ν ε) :=
  if old = new then (tree.lookup old).map fun _ => tree
  else if h : tree.canMove old new = true then
    some ⟨rekey _ (separates_movedTo old new) tree.entries, parents_moved h⟩
  else none

end Moving

section Making

/-- `directory` at each of the paths from the base on that nothing stands at yet. -/
def makeAll (directory : ε) (now : ℕ) : List ν → List ν → FileTree ν ε → Option (FileTree ν ε)
  | _, [], tree => some tree
  | base, name :: rest, tree =>
    match tree.lookup (base ++ [name]) with
    | some entry =>
      if isDirectory entry then makeAll directory now (base ++ [name]) rest tree else none
    | none => (tree.place now (base ++ [name]) directory).bind
        (makeAll directory now (base ++ [name]) rest)

variable {directory : ε} {now : ℕ}

end Making

end XitForge.FileTree
