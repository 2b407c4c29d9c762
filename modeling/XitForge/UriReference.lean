import XitForge.Separators

/-!
Relative references in the syntax of URIs, and what they come to against a base before
dot segments are removed.
-/
namespace XitForge.UriReference

open Separators

abbrev Text := List Char

/-- An authority ends before such a character. -/
def endsAuthority (c : Char) : Bool := c = '/' || c = '?' || c = '#'

/-- And a path before such a one. -/
def endsPath (c : Char) : Bool := c = '?' || c = '#'

structure Reference where
  authority : Option Text
  path : Text
  /-- The query and the fragment, each with the character that starts it. -/
  suffix : Text

/-- The parts of a text behind its authority. -/
def Reference.behind (authority : Option Text) (text : Text) : Reference :=
  ⟨authority, text.takeWhile (!endsPath ·), text.dropWhile (!endsPath ·)⟩

/-- The parts of a reference without a scheme. -/
def Reference.parse (text : Text) : Reference :=
  match stripPrefix ['/', '/'] text with
  | some rest =>
    .behind (some (rest.takeWhile (!endsAuthority ·))) (rest.dropWhile (!endsAuthority ·))
  | none => .behind none text

/-- A colon before the path ends its first segment would end a scheme. -/
def SchemeLess (text : Text) : Prop := ':' ∉ text.takeWhile (!endsAuthority ·)

instance (text : Text) : Decidable (SchemeLess text) := by
  unfold SchemeLess
  infer_instance

/-- A path up to its last slash. -/
def directory (path : Text) : Text :=
  match rsplitOnce '/' path with
  | some (before, _) => before ++ ['/']
  | none => []

def merge (base : Reference) (path : Text) : Text :=
  if base.authority.isSome ∧ base.path = [] then '/' :: path else directory base.path ++ path

/-- The authority and the path of what a reference refers to. -/
def target (base reference : Reference) : Option Text × Text :=
  match reference.authority with
  | some authority => (some authority, reference.path)
  | none =>
    (base.authority,
      if reference.path = [] then base.path
      else if reference.path.head? = some '/' then reference.path
      else merge base reference.path)

/-- Behind an authority an empty path is the same as a slash. -/
def orSlash (path : Text) : Text := if path = [] then ['/'] else path

section Parts

variable {path text : Text}

theorem directory_slash {last : Text} (h : '/' ∉ last) (before : Text) :
    directory (before ++ '/' :: last) = before ++ ['/'] := by
  unfold directory
  rw [rsplitOnce_append h]

/-- A path with a slash is its directory and its last segment. -/
theorem directory_append (h : '/' ∈ path) : directory path ++ behindLast '/' path = path := by
  obtain ⟨before, behind, hparts⟩ := exists_rsplitOnce h
  unfold directory behindLast
  rw [hparts]
  dsimp only
  rw [List.append_assoc, List.singleton_append, ← (eq_append_of_rsplitOnce hparts).1]

theorem exists_directory (h : '/' ∈ path) : ∃ before, directory path = before ++ ['/'] := by
  obtain ⟨before, behind, hparts⟩ := exists_rsplitOnce h
  unfold directory
  rw [hparts]
  exact ⟨before, rfl⟩

theorem directory_cons (tail : Text) : ∃ front, directory ('/' :: tail) = '/' :: front := by
  have hmem : '/' ∈ '/' :: tail := List.mem_cons_self
  obtain ⟨before, hbefore⟩ := exists_directory hmem
  have happend := directory_append hmem
  rw [hbefore] at happend ⊢
  cases before with
  | nil => exact ⟨[], rfl⟩
  | cons c before =>
    rw [List.cons_append, List.cons_append, List.cons.injEq] at happend
    exact ⟨before ++ ['/'], by rw [happend.1, List.cons_append]⟩

/-- The last slash of a path that ends before a suffix without slashes. -/
theorem directory_append_suffix {suffix : Text} (h : '/' ∈ path) (hsuffix : '/' ∉ suffix) :
    directory (path ++ suffix) = directory path := by
  obtain ⟨before, hbefore⟩ := exists_directory h
  have hpath := directory_append h
  have hlast : '/' ∉ behindLast '/' path ++ suffix := by
    rw [List.mem_append, not_or]
    exact ⟨notMem_behindLast _ _, hsuffix⟩
  rw [hbefore, List.append_assoc, List.singleton_append] at hpath
  have hall : path ++ suffix = before ++ '/' :: (behindLast '/' path ++ suffix) := by
    conv_lhs => rw [← hpath]
    rw [List.append_assoc, List.cons_append]
  rw [hbefore, hall, directory_slash hlast]

/-- The last slash of a suffix is the one of everything. -/
theorem directory_append_of_mem {suffix : Text} (h : '/' ∈ suffix) (path : Text) :
    directory (path ++ suffix) = path ++ directory suffix := by
  obtain ⟨before, hbefore⟩ := exists_directory h
  have hsuffix := directory_append h
  rw [hbefore, List.append_assoc, List.singleton_append] at hsuffix
  have hall : path ++ suffix = (path ++ before) ++ '/' :: behindLast '/' suffix := by
    conv_lhs => rw [← hsuffix]
    rw [List.append_assoc]
  rw [hbefore, hall, directory_slash (notMem_behindLast _ _), List.append_assoc]

theorem directory_eq_self (h : '/' ∈ path) :
    directory path = path ↔ path.getLast? = some '/' := by
  have hpath := directory_append h
  obtain ⟨before, hbefore⟩ := exists_directory h
  constructor
  · intro hself
    rw [← hself, hbefore, List.getLast?_concat]
  · intro hlast
    have hnil : behindLast '/' path = [] := by
      by_contra hne
      rw [← hpath, List.getLast?_append_of_ne_nil _ hne] at hlast
      exact notMem_behindLast '/' path (List.mem_of_getLast? hlast)
    rw [hnil, List.append_nil] at hpath
    exact hpath

end Parts

end XitForge.UriReference
