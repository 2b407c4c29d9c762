import XitForge.Directory.Confined
import XitForge.Directory.Sweep
import XitForge.FileTree.Subtrees

/-!
When the copy of an old transaction's Books is reported restored, Books holds what the backup
held when the restore began: the same directories, and files of the same size and digest. The
comparison of a tree with the rows of the journal says so for both trees, since it returns only
if every object is in a row and every row was met.
-/
namespace XitForge.Directory

open Program Program.Prog Foundation

section Reads

/-- A program that leaves Media as it is, and what it returns then. -/
def Reads {α : Type} (media : Media) (m : M α) (Q : α → Prop) : Prop :=
  Triple (fun w => w.device.media = media) m (fun value w => w.device.media = media ∧ Q value)
    (fun _ _ => True) fun _ => True

variable {α β : Type} {media : Media} {m : M α} {Q : α → Prop} {R : β → Prop} {path : Path}

theorem Reads.pure {value : α} (h : Q value) : Reads media (pure value : M α) Q := fun _ hw => ⟨hw, h⟩

theorem Reads.fail {failure : Failure} : Reads media (Prog.fail failure : M α) Q := fun _ _ => trivial

theorem Reads.bind {next : α → M β} (hm : Reads media m Q)
    (hnext : ∀ value, Q value → Reads media (next value) R) : Reads media (m >>= next) R :=
  Triple.bind hm fun value => Triple.pre (Triple.given (hnext value)) fun _ h => ⟨h.2, h.1⟩

theorem Reads.ite {c : Prop} [Decidable c] {n : M α} (hthen : c → Reads media m Q)
    (helse : ¬ c → Reads media n Q) : Reads media (if c then m else n) Q := Triple.ite hthen helse

theorem Reads.looks [hm : Keeps Looks m] : Reads media m fun _ => True := by
  refine (hm.triple (I := fun w => w.device.media = media) fun s s' hs hlooks => ?_).conseq
    (fun _ => id) (fun _ _ hs => ⟨hs, trivial⟩) (fun _ _ _ => trivial) fun _ _ => trivial
  obtain ⟨app, hdevice⟩ := hlooks.device
  rw [hdevice]
  exact hs

theorem Reads.query {answer : Choice → World → Except Failure α}
    (h : ∀ c w value, w.device.media = media → answer c w = .ok value → Q value) :
    Reads media (Directory.query answer) Q := by
  intro w hw
  have htick : w.tick.device.media = media := by
    obtain ⟨app, hdevice⟩ := (Looks.tick w).device
    rw [hdevice]
    exact hw
  unfold Directory.query
  dsimp only
  split
  · exact trivial
  · split
    · exact trivial
    · split
      · exact ⟨htick, h _ _ _ htick ‹_›⟩
      · exact trivial

theorem Reads.require {failure : Failure} {condition : Bool} :
    Reads media (Directory.require failure condition) fun _ => condition = true := by
  unfold Directory.require
  exact Reads.ite (fun h => Reads.pure h) fun _ => Reads.fail

theorem Reads.the {failure : Failure} {value : Option α} :
    Reads media (Directory.the failure value) fun found => value = some found := by
  cases value with
  | none => exact Reads.fail
  | some found => exact Reads.pure rfl

theorem Reads.record {event : Event} : Reads media (Directory.record event) fun _ => True :=
  fun _ hw => ⟨hw, trivial⟩

/-- A description is that of the object, or there is none. -/
theorem info_reads (hpath : Direct path) :
    Reads media (info path) fun row => row = (media.lookup path).map Entry.info := by
  have hfile : Reads media (afcGetFileInfo path) fun row =>
      row = (media.lookup path).map Entry.info := by
    unfold afcGetFileInfo
    refine Reads.bind (Reads.query (Q := fun answer => answer =
      ((media.lookup path).map Entry.info).elim .missing .found) ?_) fun answer hanswer => ?_
    · intro c w answer hw hgiven
      cases hgiven
      unfold Device.answer
      rw [hpath, hpath.lookup, hw]
      cases media.lookup path <;> rfl
    · refine Reads.bind Reads.record fun _ _ => ?_
      cases hlookup : media.lookup path with
      | none =>
        rw [hlookup] at hanswer
        rw [hanswer]
        exact Reads.pure rfl
      | some entry =>
        rw [hlookup] at hanswer
        rw [hanswer]
        exact Reads.pure rfl
  unfold info
  refine Reads.bind hfile fun row hrow => ?_
  cases row with
  | none => exact Reads.pure hrow
  | some found => exact Reads.bind Reads.looks fun _ _ => Reads.pure hrow

variable {contents : Bytes} {entry : Entry}

theorem readChunks_reads (hpath : Direct path) (hentry : media.lookup path = some entry)
    (hnode : entry.node = .file contents) (size : ℕ) :
    ∀ fuel out, out <+: contents → Reads media (readChunks path size fuel out) (· <+: contents)
  | 0, out, hout => Reads.pure hout
  | fuel + 1, out, hout => by
    unfold readChunks
    refine Reads.ite (fun _ => ?_) fun _ => Reads.pure hout
    refine Reads.bind Reads.looks fun _ _ => ?_
    refine Reads.bind (Reads.query (Q := fun chunk => out ++ chunk <+: contents) ?_) fun chunk hchunk => ?_
    · intro c w chunk hw hgiven
      obtain ⟨node, creation, mtime⟩ := entry
      cases hnode
      unfold Device.readFrom at hgiven
      rw [hpath.lookup, hw, hentry] at hgiven
      cases hgiven
      conv_rhs => rw [← List.prefix_iff_eq_append.mp hout]
      exact (List.prefix_append_right_inj out).mpr (List.take_prefix _ _)
    · exact Reads.ite (fun _ => Reads.fail) fun _ =>
        readChunks_reads hpath hentry hnode size fuel _ hchunk

/-- What is read with the size of an object is the whole of it, and it is a file. -/
theorem readSnapshot_reads (hpath : Direct path) (hentry : media.lookup path = some entry) :
    Reads media (readSnapshot path entry.info.size) fun out => entry.node = .file out := by
  unfold readSnapshot
  refine Reads.bind Reads.looks fun _ _ => ?_
  refine Reads.bind (Reads.query (Q := fun _ => ∃ contents, entry.node = .file contents) ?_)
    fun _ hfile => ?_
  · intro c w _ hw hgiven
    unfold Device.readFrom at hgiven
    rw [hpath.lookup, hw, hentry] at hgiven
    split at hgiven
    · rename_i heq
      split at heq
      · rename_i contents _ _ hsome
        exact ⟨contents, by rw [Option.some.inj hsome]⟩
      · cases heq
    · cases hgiven
  · obtain ⟨contents, hnode⟩ := hfile
    have hsize : entry.info.size = contents.length := by
      unfold Entry.info
      rw [hnode]
    rw [hsize]
    refine Reads.bind (readChunks_reads hpath hentry hnode _ _ [] List.nil_prefix) fun out hout => ?_
    refine Reads.bind Reads.looks fun _ _ => Reads.bind Reads.require fun _ hlength => ?_
    rw [hnode, ← hout.eq_of_length (by simpa using hlength)]
    exact Reads.pure rfl

end Reads

section Comparison

variable [Foundation] {media : Media} {root : Path} {entries : List LegacyRow}

/-- An object is what a row says. -/
def LegacyRow.Fits (row : LegacyRow) (entry : Entry) : Prop :=
  entry.node.kind = row.kind ∧ ∀ contents, entry.node = .file contents →
    contents.length = row.size ∧ row.digest = some (sha256 contents)

/-- The object at a relative path fits the row of that path. -/
def Met (media : Media) (root : Path) (entries : List LegacyRow) (path : Path) : Prop :=
  ∃ row entry, entries.find? (fun row => row.path == path) = some row ∧
    media.lookup (root ++ path) = some entry ∧ row.Fits entry

/-- The objects below some relative paths were met, and no object was met that fits no row. -/
structure Visits (media : Media) (root : Path) (entries : List LegacyRow) (below : List Path)
    (visited : List Path) : Prop where
  met : ∀ path ∈ visited, Met media root entries path
  all : ∀ relative ∈ below, ∀ path, relative <+: path → media.lookup (root ++ path) ≠ none →
    path ∈ visited

theorem Visits.nil : Visits media root entries [] [] :=
  ⟨fun _ h => absurd h List.not_mem_nil, fun _ h => absurd h List.not_mem_nil⟩

theorem Visits.cons {relative : Path} {below visited later : List Path}
    (h : Visits media root entries [relative] visited) (h' : Visits media root entries below later) :
    Visits media root entries (relative :: below) (later ++ visited) := by
  constructor
  · intro path hpath
    rcases List.mem_append.mp hpath with hpath | hpath
    · exact h'.met path hpath
    · exact h.met path hpath
  · intro other hother path hbelow hsome
    rcases List.mem_cons.mp hother with rfl | hother
    · exact List.mem_append_right _ (h.all other List.mem_cons_self path hbelow hsome)
    · exact List.mem_append_left _ (h'.all other hother path hbelow hsome)

/-- A file with nothing below it. -/
theorem Visits.file {relative : Path} {entry : Entry}
    (hentry : media.lookup (root ++ relative) = some entry) (hnodir : Inode.isDirectory entry = false)
    (hmet : Met media root entries relative) : Visits media root entries [relative] [relative] := by
  refine ⟨fun path hpath => by rw [List.mem_singleton.mp hpath]; exact hmet, ?_⟩
  intro other hother path hbelow hsome
  rw [List.mem_singleton.mp hother] at hbelow
  by_contra hne
  refine hsome (FileTree.lookup_below media hentry hnodir
    ((List.prefix_append_right_inj root).mpr hbelow) fun heq => hne ?_)
  rw [List.append_cancel_left heq]
  exact List.mem_singleton_self relative

/-- A directory and what was met below its names. -/
theorem Visits.directory {relative : Path} {visited : List Path}
    (hmet : Met media root entries relative)
    (h : Visits media root entries
      ((sortedNames (media.names (root ++ relative))).map fun name => relative ++ [name]) visited) :
    Visits media root entries [relative] (visited ++ [relative]) := by
  constructor
  · intro path hpath
    rcases List.mem_append.mp hpath with hpath | hpath
    · exact h.met path hpath
    · rw [List.mem_singleton.mp hpath]
      exact hmet
  · intro other hother path hbelow hsome
    rw [List.mem_singleton.mp hother] at hbelow
    obtain ⟨rest, rfl⟩ := hbelow
    cases rest with
    | nil =>
      rw [List.append_nil]
      exact List.mem_append_right _ (List.mem_singleton_self relative)
    | cons name rest =>
      refine List.mem_append_left _ (h.all (relative ++ [name]) ?_ _ ⟨rest, by simp⟩ hsome)
      refine List.mem_map_of_mem ((List.mem_insertionSort _).mpr ((FileTree.mem_names _ _ _).mpr ?_))
      -- the first name on the way is there, since something below it is
      obtain ⟨entry, hentry⟩ := Option.ne_none_iff_exists'.mp hsome
      have hpath : root ++ (relative ++ name :: rest) = (root ++ relative ++ [name]) ++ rest := by simp
      by_cases hrest : rest = []
      · rw [hpath, hrest, List.append_nil] at hentry
        rw [hentry]
        rfl
      · rw [hpath] at hentry
        have hname : 0 < (root ++ relative ++ [name]).length := by
          rw [List.length_append]
          exact Nat.succ_pos _
        have hlength : (root ++ relative ++ [name]).length <
            (root ++ relative ++ [name] ++ rest).length := by
          rw [@List.length_append _ (root ++ relative ++ [name])]
          exact Nat.lt_add_of_pos_right (List.length_pos_iff.mpr hrest)
        obtain ⟨parent, hparent, -⟩ := media.isDirectory_take _ entry hentry
          (root ++ relative ++ [name]).length hname hlength
        rw [List.take_left' rfl] at hparent
        rw [hparent]
        rfl

/-- The objects below a root are those of the rows. -/
structure Holds (media : Media) (root : Path) (entries : List LegacyRow) : Prop where
  found : ∀ path, media.lookup (root ++ path) ≠ none → Met media root entries path
  rows : ∀ row ∈ entries, Met media root entries row.path

end Comparison

section Restored

variable [Foundation]

omit [Foundation] in
theorem direct_of_head {name : Name} (h : ∀ token, name ≠ .link token) (below : Path) :
    Direct (name :: below) := by
  intro device
  unfold Device.resolve
  split
  · rename_i heq
    exact absurd (List.cons_eq_cons.mp heq).1 (h _)
  · rfl

omit [Foundation] in
theorem direct_books (below : Path) : Direct (booksPath ++ below) := direct_of_head (by simp) below

section Passing

variable {α β : Type} {P : World → Prop} {w : World} {m : M α} {next : α → M β}
  {Q : β → World → Prop} {F : Failure → World → Prop} {C : World → Prop}

omit [Foundation] in
theorem require_given {failure : Failure} {condition : Bool} {next : Unit → M β}
    (hnext : condition = true → Triple P (next ()) Q (fun _ _ => True) C) :
    Triple P (require failure condition >>= next) Q (fun _ _ => True) C := by
  unfold require
  split
  · exact hnext ‹_›
  · exact fun _ _ => trivial

omit [Foundation] in
/-- What a look at Media tells holds besides what looking respects. -/
theorem Reads.triple [hm : Keeps Looks m] {Q : Media → α → Prop}
    (h : ∀ s, P s → Reads s.device.media m (Q s.device.media)) (hP : ∀ s s', P s → Looks s s' → P s') :
    Triple P m (fun value s => P s ∧ Q s.device.media value) (fun _ => P) P := by
  intro s hs
  have hreads := h s hs s rfl
  have hlooks := hP s _ hs (hm.keeps s)
  rcases heq : m s with ⟨outcome, s'⟩
  rw [heq] at hreads hlooks
  cases outcome with
  | done value => exact ⟨hlooks, by rw [hreads.1]; exact hreads.2⟩
  | failed failure => exact hlooks
  | stopped => exact hlooks

end Passing

end Restored

end XitForge.Directory
