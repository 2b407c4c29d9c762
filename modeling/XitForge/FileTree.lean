import Mathlib.Data.List.AList
import Mathlib.Data.List.Induction

/-!
Directory trees as finite maps from paths to entries. An entry is there only if
its parent is the root or a directory, and an entry with children is neither
removed nor replaced; so a missing directory has nothing below it.
-/
namespace XitForge

/-- Entries that know whether they are directories and when they were changed. -/
class Inode (ε : Type) where
  isDirectory : ε → Bool
  touch : ℕ → ε → ε
  isDirectory_touch : ∀ now entry, isDirectory (touch now entry) = isDirectory entry

open Inode

abbrev Entries (ν ε : Type) := AList fun _ : List ν => ε

/-- Every entry stands in the root or in a directory; the root is not an entry. -/
structure FileTree (ν ε : Type) [DecidableEq ν] [Inode ε] where
  entries : Entries ν ε
  parents : ∀ path entry, entries.lookup path = some entry → path ≠ [] ∧
    (path.dropLast = [] ∨
      ∃ parent, entries.lookup path.dropLast = some parent ∧ isDirectory parent = true)

namespace FileTree

variable {ν ε : Type} [DecidableEq ν] [Inode ε]

def empty : FileTree ν ε := ⟨∅, by simp⟩

def lookup (tree : FileTree ν ε) (path : List ν) : Option ε := tree.entries.lookup path

/-- The names in a directory. -/
def names (tree : FileTree ν ε) (path : List ν) : List ν :=
  tree.entries.keys.filterMap fun key => if key.dropLast = path then key.getLast? else none

def hasParent (tree : FileTree ν ε) (path : List ν) : Bool :=
  path.dropLast.isEmpty || (tree.lookup path.dropLast).any isDirectory

/-- The parent of a path is marked as changed. -/
def touchParent (entries : Entries ν ε) (now : ℕ) (path : List ν) : Entries ν ε :=
  match entries.lookup path.dropLast with
  | some parent => entries.insert path.dropLast (touch now parent)
  | none => entries

theorem lookup_touchParent (entries : Entries ν ε) (now : ℕ) (path other : List ν) :
    (touchParent entries now path).lookup other =
      if other = path.dropLast then (entries.lookup other).map (touch now)
      else entries.lookup other := by
  unfold touchParent
  split
  · rename_i parent hparent
    split
    · rename_i hother
      rw [hother, AList.lookup_insert, hparent]
      rfl
    · rename_i hother
      exact AList.lookup_insert_ne hother
  · rename_i hparent
    split
    · rename_i hother
      rw [hother, hparent]
      rfl
    · rfl

omit [DecidableEq ν] in
theorem dropLast_ne_self {path : List ν} (h : path ≠ []) : path.dropLast ≠ path := by
  intro heq
  have hlength := congrArg List.length heq
  have hpos := List.length_pos_of_ne_nil h
  rw [List.length_dropLast] at hlength
  omega

/-- After a change of one entry that leaves no directory behind a child, and a
touch of its parent, every entry still stands in a directory. -/
theorem parents_of_lookup (tree : FileTree ν ε) (entries : Entries ν ε) (path : List ν)
    (now : ℕ) (value : Option ε)
    (hlookup : ∀ other, entries.lookup other =
      if other = path then value
      else if other = path.dropLast then (tree.lookup other).map (touch now)
      else tree.lookup other)
    (hplace : value ≠ none → path ≠ [] ∧ tree.hasParent path = true)
    (hchildren : (∃ entry, value = some entry ∧ isDirectory entry = true) ∨
      ∀ name, tree.lookup (path ++ [name]) = none) :
    ∀ other entry, entries.lookup other = some entry → other ≠ [] ∧
      (other.dropLast = [] ∨
        ∃ parent, entries.lookup other.dropLast = some parent ∧ isDirectory parent = true) := by
  intro other entry hentry
  have hdir : ∀ directory, directory ≠ path →
      (∃ parent, tree.lookup directory = some parent ∧ isDirectory parent = true) →
      ∃ parent, entries.lookup directory = some parent ∧ isDirectory parent = true := by
    intro directory hne h
    obtain ⟨parent, hparent, hisdir⟩ := h
    rw [hlookup, if_neg hne]
    split
    · exact ⟨touch now parent, by rw [hparent]; rfl, by rw [isDirectory_touch, hisdir]⟩
    · exact ⟨parent, hparent, hisdir⟩
  by_cases hother : other = path
  · rw [hlookup, if_pos hother] at hentry
    obtain ⟨hne, hparent⟩ := hplace (by rw [hentry]; exact Option.some_ne_none entry)
    rw [hother]
    refine ⟨hne, ?_⟩
    simp only [hasParent, Bool.or_eq_true, List.isEmpty_iff, Option.any_eq_true] at hparent
    rcases hparent with hroot | ⟨parent, hparent, hisdir⟩
    · exact Or.inl hroot
    · exact Or.inr (hdir _ (dropLast_ne_self hne) ⟨parent, hparent, hisdir⟩)
  · have hold : ∃ entry, tree.lookup other = some entry := by
      rw [hlookup, if_neg hother] at hentry
      split at hentry
      · obtain ⟨found, hfound, -⟩ := Option.map_eq_some_iff.mp hentry
        exact ⟨found, hfound⟩
      · exact ⟨entry, hentry⟩
    obtain ⟨found, hfound⟩ := hold
    obtain ⟨hne, hparent⟩ := tree.parents other found hfound
    refine ⟨hne, ?_⟩
    rcases hparent with hroot | hparent
    · exact Or.inl hroot
    · right
      by_cases hpath : other.dropLast = path
      · -- `other` is a child of the changed entry, which must be a directory
        rcases hchildren with ⟨directory, hvalue, hisdir⟩ | hnone
        · exact ⟨directory, by rw [hlookup, if_pos hpath, hvalue], hisdir⟩
        · have hname := hnone (other.getLast hne)
          rw [← hpath, List.dropLast_append_getLast hne] at hname
          exact absurd hfound (by rw [hname]; simp)
      · exact hdir _ hpath hparent

theorem lookup_child (tree : FileTree ν ε) (path : List ν) (name : ν) (entry : ε)
    (h : tree.lookup (path ++ [name]) = some entry) :
    path = [] ∨ ∃ parent, tree.lookup path = some parent ∧ isDirectory parent = true := by
  have hparent := (tree.parents _ _ h).2
  rwa [List.dropLast_concat] at hparent

/-- Nothing stands below a path that is not a directory. -/
theorem lookup_child_eq_none (tree : FileTree ν ε) (path : List ν) (name : ν) (hne : path ≠ [])
    (h : (tree.lookup path).any isDirectory = false) : tree.lookup (path ++ [name]) = none := by
  cases hchild : tree.lookup (path ++ [name]) with
  | none => rfl
  | some entry =>
    rcases tree.lookup_child path name entry hchild with hroot | ⟨parent, hparent, hisdir⟩
    · exact absurd hroot hne
    · simp [hparent, hisdir] at h

/-- Every proper prefix of a path that is there is a directory. -/
theorem isDirectory_take (tree : FileTree ν ε) :
    ∀ (path : List ν) (entry : ε), tree.lookup path = some entry → ∀ n, 0 < n → n < path.length →
      ∃ parent, tree.lookup (path.take n) = some parent ∧ isDirectory parent = true := by
  intro path
  induction path using List.reverseRecOn with
  | nil =>
    intro entry hentry n hpos hlt
    exact absurd hlt (Nat.not_lt_zero n)
  | append_singleton path name ih =>
    intro entry hentry n hpos hlt
    rw [List.length_append, List.length_singleton] at hlt
    rw [List.take_append_of_le_length (by omega)]
    rcases tree.lookup_child path name entry hentry with hroot | ⟨parent, hparent, hisdir⟩
    · rw [hroot, List.length_nil] at hlt
      omega
    · by_cases hlast : n = path.length
      · rw [hlast, List.take_length]
        exact ⟨parent, hparent, hisdir⟩
      · exact ih parent hparent n hpos (by omega)

theorem mem_names (tree : FileTree ν ε) (path : List ν) (name : ν) :
    name ∈ tree.names path ↔ (tree.lookup (path ++ [name])).isSome = true := by
  unfold names lookup
  rw [List.mem_filterMap, AList.lookup_isSome, AList.mem_keys]
  constructor
  · intro hgiven
    obtain ⟨key, hkey, hname⟩ := hgiven
    split at hname
    · rename_i hdrop
      rw [← hdrop, List.dropLast_append_getLast? name hname]
      exact hkey
    · cases hname
  · intro h
    exact ⟨path ++ [name], h, by simp⟩

/-- Where `place` may put an entry: in a directory, and over no directory. -/
def canPlace (tree : FileTree ν ε) (path : List ν) : Bool :=
  !path.isEmpty && tree.hasParent path && !(tree.lookup path).any isDirectory

theorem canPlace_iff (tree : FileTree ν ε) (path : List ν) :
    tree.canPlace path = true ↔ path ≠ [] ∧ tree.hasParent path = true ∧
      (tree.lookup path).any isDirectory = false := by
  simp [canPlace, and_assoc]

theorem placed_lookup (tree : FileTree ν ε) (now : ℕ) (path : List ν) (entry : ε)
    (other : List ν) :
    ((touchParent tree.entries now path).insert path entry).lookup other =
      if other = path then some entry
      else if other = path.dropLast then (tree.lookup other).map (touch now)
      else tree.lookup other := by
  split
  · rename_i hother
    rw [hother, AList.lookup_insert]
  · rename_i hother
    rw [AList.lookup_insert_ne hother, lookup_touchParent]
    rfl

/-- A new entry, or one in place of an entry that is no directory. -/
def place (tree : FileTree ν ε) (now : ℕ) (path : List ν) (entry : ε) : Option (FileTree ν ε) :=
  if h : tree.canPlace path = true then
    some
      { entries := (touchParent tree.entries now path).insert path entry
        parents := by
          obtain ⟨hne, hparent, hnodir⟩ := (canPlace_iff tree path).mp h
          exact parents_of_lookup tree _ path now (some entry) (placed_lookup tree now path entry)
            (fun _ => ⟨hne, hparent⟩)
            (Or.inr fun name => tree.lookup_child_eq_none path name hne hnodir) }
  else none

theorem lookup_place {tree placed : FileTree ν ε} {now : ℕ} {path : List ν} {entry : ε}
    (h : tree.place now path entry = some placed) (other : List ν) :
    placed.lookup other =
      if other = path then some entry
      else if other = path.dropLast then (tree.lookup other).map (touch now)
      else tree.lookup other := by
  unfold place at h
  split at h
  · cases h
    exact placed_lookup tree now path entry other
  · cases h

/-- The entry of a path that is no directory gets another value of that kind. -/
def rewrite (tree : FileTree ν ε) (path : List ν) (entry : ε) : Option (FileTree ν ε) :=
  if h : (tree.lookup path).any (fun old => !isDirectory old) = true then
    some
      { entries := tree.entries.insert path entry
        parents := by
          obtain ⟨old, hold, hnodir⟩ := (Option.any_eq_true _ _).mp h
          have hparent := tree.parents path old hold
          intro other found hfound
          by_cases hother : other = path
          · rw [hother]
            refine ⟨hparent.1, ?_⟩
            rw [AList.lookup_insert_ne (dropLast_ne_self hparent.1)]
            exact hparent.2
          · rw [AList.lookup_insert_ne hother] at hfound
            obtain ⟨hne, hdir⟩ := tree.parents other found hfound
            refine ⟨hne, ?_⟩
            rcases hdir with hroot | ⟨directory, hlookup, hisdir⟩
            · exact Or.inl hroot
            · by_cases hdrop : other.dropLast = path
              · rw [hdrop, show tree.entries.lookup path = some old from hold] at hlookup
                cases hlookup
                simp [hisdir] at hnodir
              · exact Or.inr ⟨directory, by rw [AList.lookup_insert_ne hdrop]; exact hlookup,
                  hisdir⟩ }
  else none

theorem lookup_rewrite {tree rewritten : FileTree ν ε} {path : List ν} {entry : ε}
    (h : tree.rewrite path entry = some rewritten) (other : List ν) :
    rewritten.lookup other = if other = path then some entry else tree.lookup other := by
  unfold rewrite at h
  split at h
  · cases h
    split
    · rename_i hother
      rw [hother]
      exact AList.lookup_insert _
    · rename_i hother
      exact AList.lookup_insert_ne hother
  · cases h

theorem removed_lookup (tree : FileTree ν ε) (now : ℕ) (path other : List ν) :
    ((touchParent tree.entries now path).erase path).lookup other =
      if other = path then none
      else if other = path.dropLast then (tree.lookup other).map (touch now)
      else tree.lookup other := by
  split
  · rename_i hother
    rw [hother, AList.lookup_erase]
  · rename_i hother
    rw [AList.lookup_erase_ne hother, lookup_touchParent]
    rfl

/-- An entry without children goes. -/
def remove (tree : FileTree ν ε) (now : ℕ) (path : List ν) : Option (FileTree ν ε) :=
  if h : (tree.lookup path).isSome = true ∧ tree.names path = [] then
    some
      { entries := (touchParent tree.entries now path).erase path
        parents := parents_of_lookup tree _ path now none (removed_lookup tree now path)
          (fun hvalue => absurd rfl hvalue) (Or.inr fun name => by
            rw [← Option.not_isSome_iff_eq_none, ← mem_names, h.2]
            exact List.not_mem_nil) }
  else none

theorem lookup_remove {tree removed : FileTree ν ε} {now : ℕ} {path : List ν}
    (h : tree.remove now path = some removed) (other : List ν) :
    removed.lookup other =
      if other = path then none
      else if other = path.dropLast then (tree.lookup other).map (touch now)
      else tree.lookup other := by
  unfold remove at h
  split at h
  · cases h
    exact removed_lookup tree now path other
  · cases h

theorem remove_isSome (tree : FileTree ν ε) (now : ℕ) (path : List ν) :
    (tree.remove now path).isSome = true ↔
      (tree.lookup path).isSome = true ∧ tree.names path = [] := by
  unfold remove
  split
  · rename_i h
    exact ⟨fun _ => h, fun _ => rfl⟩
  · rename_i h
    exact ⟨fun hsome => absurd hsome Bool.false_ne_true, fun hgood => absurd hgood h⟩

end FileTree

end XitForge
