import Mathlib.Data.Char
import Mathlib.Data.List.Lex
import XitForge.Directory.Sweep

/-!
The generated directory as the archive describes it and as the cleaner expects it.
Both derive their objects from the tail; they agree on paths and kinds. A tree is
validated as a whole, and the order of removal puts longer paths first.
-/
namespace XitForge.Directory

open Program Program.Prog Foundation

section Order

theorem lexLess_iff : ∀ a b : Text, lexLess a b = true ↔ a < b
  | a, [] => by simp [lexLess]
  | [], b :: bs => by simp [lexLess]
  | a :: as, b :: bs => by
    have ih := lexLess_iff as bs
    simp [lexLess, ih, List.cons_lt_cons_iff]

theorem lexLess_eq_false {a b : Text} : lexLess a b = false ↔ b ≤ a := by
  rw [← not_lt, ← lexLess_iff, Bool.not_eq_true]

instance : Std.Total removedBefore := by
  constructor
  intro a b
  unfold removedBefore
  rw [lexLess_eq_false, lexLess_eq_false]
  rcases lt_trichotomy (utf16Length (pathText b)) (utf16Length (pathText a)) with h | h | h
  · exact Or.inl (Or.inl h)
  · rcases le_total (pathText b) (pathText a) with hle | hle
    · exact Or.inl (Or.inr ⟨h, hle⟩)
    · exact Or.inr (Or.inr ⟨h.symm, hle⟩)
  · exact Or.inr (Or.inl h)

instance : IsTrans Path removedBefore := by
  constructor
  intro a b c hab hbc
  unfold removedBefore at *
  rw [lexLess_eq_false] at *
  rcases hab with hab | ⟨hab, hle⟩
  · left
    omega
  · rcases hbc with hbc | ⟨hbc, hle'⟩
    · left
      omega
    · exact Or.inr ⟨by omega, hle'.trans hle⟩

theorem utf16Length_append (a b : Text) : utf16Length (a ++ b) = utf16Length a + utf16Length b := by
  simp [utf16Length]

theorem pathText_concat {path : Path} (hne : path ≠ []) (name : Name) :
    pathText (path ++ [name]) = pathText path ++ '/' :: name.text := by
  unfold pathText
  rw [List.map_append, List.map_singleton]
  induction path with
  | nil => exact absurd rfl hne
  | cons head rest ih =>
    cases rest with
    | nil => simp [List.intercalate, List.intersperse]
    | cons next rest =>
      have h := ih (by simp)
      simp only [List.map_cons, List.cons_append, List.intercalate_cons_cons] at h ⊢
      rw [h]
      simp

/-- A directory goes after every directory in it. -/
theorem not_removedBefore_child {path : Path} (hne : path ≠ []) (name : Name) :
    ¬ removedBefore path (path ++ [name]) := by
  have hlonger : utf16Length (pathText path) < utf16Length (pathText (path ++ [name])) := by
    rw [pathText_concat hne, utf16Length_append]
    have hslash : 0 < utf16Length ('/' :: name.text) := by
      simp only [utf16Length, List.map_cons, List.sum_cons]
      split <;> omega
    omega
  unfold removedBefore
  omega

end Order

section Archive

theorem lookup_iff_mem {α β : Type} [BEq α] [LawfulBEq α] {rows : List (α × β)} {key : α}
    (h : ∀ value value', (key, value) ∈ rows → (key, value') ∈ rows → value = value') (value : β) :
    rows.lookup key = some value ↔ (key, value) ∈ rows := by
  constructor
  · intro hlookup
    obtain ⟨before, after, rfl, -⟩ := List.lookup_eq_some_iff.mp hlookup
    exact List.mem_append_right _ List.mem_cons_self
  · intro hmem
    cases hlookup : rows.lookup key with
    | none => exact absurd (List.lookup_eq_none_iff.mp hlookup _ hmem) (by simp)
    | some found =>
      obtain ⟨before, after, hrows, -⟩ := List.lookup_eq_some_iff.mp hlookup
      have hfound : (key, found) ∈ rows := by
        rw [hrows]
        exact List.mem_append_right _ List.mem_cons_self
      rw [h found value hfound hmem]

theorem mem_xfatcDirectories {tail : AppPath} {below : Path} (h : below ∈ xfatcDirectories tail) :
    below ∈ [[.metaInf], [.p0], [.p0, .p1], [.p0, .p1, .p2]] ∨
      ∃ first rest, below = .component first :: rest := by
  rcases List.mem_append.mp h with hfixed | htail
  · exact Or.inl hfixed
  · right
    obtain ⟨n, hn, rfl⟩ := List.mem_map.mp htail
    rw [List.mem_range] at hn
    cases tail with
    | nil => exact absurd hn (Nat.not_lt_zero n)
    | cons first rest => exact ⟨first, (rest.take n).map Name.component, rfl⟩

theorem directory_not_file (tail : AppPath) (path : Path)
    (hmem : path ∈ ([[.metaInf, .zipMetadata], [.p0, .p1, .p2, .stagedLink], [.payload]] : List Path)) :
    ¬ (path = [] ∨ path ∈ xfatcDirectories tail) := by
  intro hcase
  rcases hcase with rfl | hdir
  · simp at hmem
  · rcases mem_xfatcDirectories hdir with hfixed | ⟨first, rest, rfl⟩
    · exact absurd hfixed ((by decide : ∀ path ∈ ([[.metaInf, .zipMetadata],
        [.p0, .p1, .p2, .stagedLink], [.payload]] : List Path),
        path ∉ ([[.metaInf], [.p0], [.p0, .p1], [.p0, .p1, .p2]] : List Path)) path hmem)
    · simp at hmem

variable [Foundation] {journal : Journal} {archive : Archive}

/-- What StreamingZip creates: the directory it is told to use and the entries. -/
def stageEntries (archive : Archive) : Archive := ⟨[], .directory 0⟩ :: archive

/-- A journal whose link directory is the archive that is built for its tail. -/
structure Stages (journal : Journal) (archive : Archive) : Prop where
  profile : journal.archiveProfile = true
  tail : validAppPath journal.tail = true
  archive : xfATCBuildDirectoryZip journal.tail (plistData .zipMetadata) = some archive

/-- The entries are the directories the cleaner expects, the link and two files. -/
theorem Stages.mem (h : Stages journal archive) (entry : ArchiveEntry) :
    entry ∈ stageEntries archive ↔
      ((entry.path = [] ∨ entry.path ∈ xfatcDirectories journal.tail) ∧ entry.node = .directory 0) ∨
      entry = ⟨[.metaInf, .zipMetadata], .file (plistData .zipMetadata)⟩ ∨
      entry = ⟨[.p0, .p1, .p2, .stagedLink], .link (.relocated journal.tail)⟩ ∨
      entry = ⟨[.payload], .file directoryMarker⟩ := by
  have harchive := h.archive
  unfold xfATCBuildDirectoryZip at harchive
  dsimp only at harchive
  split at harchive
  · cases harchive
  · cases harchive
    obtain ⟨path, node⟩ := entry
    simp only [stageEntries, xfatcDirectories, List.mem_cons, List.mem_append, List.mem_map,
      List.mem_range, List.not_mem_nil, or_false, ArchiveEntry.mk.injEq]
    constructor
    · intro hcase
      rcases hcase with ⟨rfl, rfl⟩ | ((hfixed | ⟨n, hn, rfl, rfl⟩) | hpayload)
      · exact Or.inl ⟨Or.inl rfl, rfl⟩
      · grind
      · exact Or.inl ⟨Or.inr (Or.inr ⟨n, hn, rfl⟩), rfl⟩
      · exact Or.inr (Or.inr (Or.inr hpayload))
    · intro hcase
      rcases hcase with ⟨rfl | hfixed | ⟨n, hn, rfl⟩, rfl⟩ | hfiles
      · exact Or.inl ⟨rfl, rfl⟩
      · grind
      · exact Or.inr (Or.inl (Or.inr ⟨n, hn, rfl, rfl⟩))
      · grind

theorem Stages.metadata_length (h : Stages journal archive) :
    (plistData .zipMetadata).length ≤ 4096 := by
  have harchive := h.archive
  unfold xfATCBuildDirectoryZip at harchive
  dsimp only at harchive
  split at harchive
  · cases harchive
  · omega

/-- No path has two entries. -/
theorem Stages.node_unique (h : Stages journal archive) {entry other : ArchiveEntry}
    (hentry : entry ∈ stageEntries archive) (hother : other ∈ stageEntries archive)
    (hpath : entry.path = other.path) : entry.node = other.node := by
  rw [h.mem] at hentry hother
  have hfile := directory_not_file journal.tail
  rcases hentry with ⟨hdir, hnode⟩ | rfl | rfl | rfl
  · rcases hother with ⟨-, hnode'⟩ | rfl | rfl | rfl
    · rw [hnode, hnode']
    all_goals exact absurd (hpath ▸ hdir) (hfile _ (by simp))
  all_goals
    rcases hother with ⟨hdir, -⟩ | rfl | rfl | rfl
    · exact absurd (hpath ▸ hdir) (hfile _ (by simp))
    all_goals first | rfl | simp at hpath

theorem Stages.mem_allowed (h : Stages journal archive) (below : Path) (kind : Kind) :
    (sourcePath journal.token ++ below, kind) ∈ stageAllowed journal ↔
      ∃ entry ∈ stageEntries archive, entry.path = below ∧ entry.node.kind = kind := by
  unfold stageAllowed stageDirectories zipMetadataPath payloadPath
  rw [if_pos h.profile]
  constructor
  · intro hmem
    simp only [List.mem_append, List.mem_cons, List.mem_map, List.not_mem_nil, or_false,
      Prod.mk.injEq] at hmem
    rcases hmem with ((⟨hpath, rfl⟩ | ⟨hpath, rfl⟩ | ⟨hpath, rfl⟩) | ⟨hpath, rfl⟩) |
      ⟨_, ⟨found, hfound, rfl⟩, hpath, rfl⟩
    · refine ⟨⟨[], .directory 0⟩, List.mem_cons_self, ?_, rfl⟩
      simpa [sourcePath] using hpath.symm
    · exact ⟨_, (h.mem _).mpr (Or.inr (Or.inl rfl)), (List.append_cancel_left hpath).symm, rfl⟩
    · refine ⟨_, (h.mem _).mpr (Or.inr (Or.inr (Or.inl rfl))), ?_, rfl⟩
      simpa [sourcePath, stagedLinkPath] using hpath.symm
    · exact ⟨_, (h.mem _).mpr (Or.inr (Or.inr (Or.inr rfl))), (List.append_cancel_left hpath).symm, rfl⟩
    · exact ⟨⟨found, .directory 0⟩, (h.mem _).mpr (Or.inl ⟨Or.inr hfound, rfl⟩),
        List.append_cancel_left hpath, rfl⟩
  · intro hgiven
    obtain ⟨entry, hentry, rfl, rfl⟩ := hgiven
    rw [h.mem] at hentry
    rcases hentry with ⟨hempty | hdir, hnode⟩ | rfl | rfl | rfl
    · simp [hempty, hnode, Node.kind]
    · rw [hnode]
      exact List.mem_append_right _ (List.mem_map.mpr ⟨_, List.mem_map_of_mem hdir, rfl⟩)
    all_goals simp [Node.kind, sourcePath, stagedLinkPath]

/-- The cleaner allows exactly the paths and kinds of the archive. -/
theorem Stages.allowed (h : Stages journal archive) (below : Path) (kind : Kind) :
    (stageAllowed journal).lookup (sourcePath journal.token ++ below) = some kind ↔
      ∃ entry ∈ stageEntries archive, entry.path = below ∧ entry.node.kind = kind := by
  rw [← h.mem_allowed]
  apply lookup_iff_mem
  intro first second hfirst hsecond
  obtain ⟨entry, hentry, hpath, rfl⟩ := (h.mem_allowed below first).mp hfirst
  obtain ⟨other, hother, hpath', rfl⟩ := (h.mem_allowed below second).mp hsecond
  rw [h.node_unique hentry hother (hpath.trans hpath'.symm)]

end Archive

section Validation

variable {oracle : ℕ → Choice} {journal : Journal} {allowed : List (Path × Kind)}

/-- Everything at and below the path is allowed there. -/
def Valid (allowed : List (Path × Kind)) (view : View) (path : Path) : Prop :=
  ∀ below node, view.nodes (path ++ below) = some node →
    allowed.lookup (path ++ below) = some node.kind

/-- What the validation has no reason to refuse. -/
def Fits (allowed : List (Path × Kind)) (view : View) (path : Path) : Prop :=
  ∀ below node, view.nodes (path ++ below) = some node →
    allowed.lookup (path ++ below) = some node.kind ∧ node.kind ≠ .other ∧
      ∀ name ∈ below, xfatcComponent name.text = true

theorem Valid.congr {view view' : View} {path : Path} (h : view'.nodes = view.nodes) :
    Valid allowed view' path ↔ Valid allowed view path := by
  simp only [Valid, h]

theorem Fits.congr {view view' : View} {path : Path} (h : view'.nodes = view.nodes) :
    Fits allowed view' path ↔ Fits allowed view path := by
  simp only [Fits, h]

theorem Fits.child {view : View} {path : Path} (h : Fits allowed view path) (name : Name) :
    Fits allowed view (path ++ [name]) := by
  intro below node hnode
  rw [List.append_assoc] at hnode ⊢
  obtain ⟨hkind, hother, hnames⟩ := h _ node hnode
  exact ⟨hkind, hother, fun other hmem => hnames other (List.mem_cons_of_mem _ hmem)⟩

theorem View.shows.node {view : View} {path : Path} {name : Name} (h : view.shows path name) :
    ∃ node, view.nodes (path ++ [name]) = some node := Option.isSome_iff_exists.mp h

theorem directory_of_kind {node : Node} (h : node.kind = .directory) :
    ∃ identity, node = .directory identity := by
  cases node with
  | directory identity => exact ⟨identity, rfl⟩
  | file bytes => cases h
  | link target => cases h
  | other => cases h

theorem Valid.of_missing {view : View} {path : Path} (hclosed : view.Closed) (hne : path ≠ [])
    (hnone : view.nodes path = none) : Valid allowed view path := by
  intro below node hnode
  cases below with
  | nil =>
    rw [List.append_nil, hnone] at hnode
    cases hnode
  | cons name rest =>
    rcases hclosed _ _ (hclosed.child path name rest node hnode).1 with hroot | ⟨_, hdir⟩
    · exact absurd hroot hne
    · rw [hnone] at hdir
      cases hdir

theorem Valid.of_file {view : View} {path : Path} {node : Node} (hclosed : view.Closed)
    (hne : path ≠ []) (hnode : view.nodes path = some node) (hfile : node.kind ≠ .directory)
    (hallowed : allowed.lookup path = some node.kind) : Valid allowed view path := by
  intro below found hfound
  cases below with
  | nil =>
    rw [List.append_nil, hnode] at hfound
    rw [List.append_nil, hallowed, Option.some.inj hfound]
  | cons name rest =>
    rcases hclosed _ _ (hclosed.child path name rest found hfound).1 with hroot | ⟨_, hdir⟩
    · exact absurd hroot hne
    · rw [hnode] at hdir
      rw [Option.some.inj hdir] at hfile
      exact absurd rfl hfile

theorem Valid.of_children {view : View} {path : Path} {identity : ℕ} (hclosed : view.Closed)
    (hnode : view.nodes path = some (.directory identity))
    (hallowed : allowed.lookup path = some .directory)
    (hchildren : ∀ name, view.shows path name → Valid allowed view (path ++ [name])) :
    Valid allowed view path := by
  intro below node hbelow
  cases below with
  | nil =>
    rw [List.append_nil, hnode] at hbelow
    rw [List.append_nil, hallowed, ← Option.some.inj hbelow]
    rfl
  | cons name rest =>
    have hvalid := hchildren name (hclosed.child path name rest node hbelow).1 rest node
    rw [List.append_assoc] at hvalid
    exact hvalid hbelow

/-- One name of a listed directory, where the directories in it are validated by `body`. -/
theorem validateChild_tracks {view current : View} {path : Path} {name : Name} {body : M Unit}
    (hclosed : view.Closed) (hcurrent : view.Sweeps (fun _ _ => False) current)
    (hdirect : Direct (path ++ [name])) (hshown : view.shows path name)
    (hbody : allowed.lookup (path ++ [name]) = some .directory →
      Tracks (Sees oracle journal) current body
        (fun _ view' => current.Sweeps (fun _ _ => False) view' ∧ Valid allowed current (path ++ [name]))
        (current.Ended oracle (fun _ _ => False) (¬ Fits allowed current (path ++ [name])))
        (current.Ended oracle (fun _ _ => False) False)) :
    Tracks (Sees oracle journal) current
      (do
        let kind ← the silent (allowed.lookup (path ++ [name]))
        let stat ← the silent (← info (path ++ [name]))
        require silent (stat.kind == kind)
        when (stat.kind == .directory) body
        require silent (stat.kind != .other))
      (fun _ view' => view.Sweeps (fun _ _ => False) view' ∧ Valid allowed view (path ++ [name]))
      (view.Ended oracle (fun _ _ => False) (¬ Fits allowed view path))
      (view.Ended oracle (fun _ _ => False) False) := by
  obtain ⟨node, hchild⟩ := hshown.node
  have hfound : current.nodes (path ++ [name]) = some node := by rw [hcurrent.nodes_eq, hchild]
  refine sweeps_bind hcurrent (the_tracks (E := ¬ Fits allowed view path) ?_) id ?_
  · intro hnone hfits
    rw [(hfits [name] node hchild).1] at hnone
    cases hnone
  intro kind view' ⟨hsame, hkind⟩
  rw [hsame]
  refine sweeps_bind hcurrent (info_tracks hdirect) False.elim ?_
  intro stat view' ⟨hsame, hstat⟩
  rw [hsame]
  refine sweeps_bind hcurrent (the_tracks (E := False) ?_) False.elim ?_
  · intro hnone
    rw [hnone, hfound] at hstat
    cases hstat.none
  intro stat view' ⟨hsame, hsome⟩
  rw [hsame]
  rw [hsome, hfound] at hstat
  obtain ⟨entry, hentry, rfl⟩ := hstat.some
  have hstatKind : entry.info.kind = node.kind := by
    rw [Option.some.inj hentry]
    rfl
  rw [hstatKind]
  refine sweeps_bind hcurrent (require_tracks (E := ¬ Fits allowed view path) ?_) id ?_
  · intro hwrong hfits
    rw [(hfits [name] node hchild).1, Option.some.injEq] at hkind
    simp [hkind] at hwrong
  intro _ view' ⟨hsame, hequal⟩
  rw [hsame]
  have hallowed : allowed.lookup (path ++ [name]) = some node.kind := by
    rw [hkind, beq_iff_eq.mp hequal]
  refine Tracks.bind (Q := fun _ view' => view.Sweeps (fun _ _ => False) view' ∧
    Valid allowed view (path ++ [name])) ?_ ?_
  · unfold when
    refine Tracks.ite (fun hdir => ?_) fun hfile => Tracks.pure ⟨hcurrent, ?_⟩
    · rw [beq_iff_eq.mp hdir] at hallowed
      refine (hbody hallowed).conseq (fun _ _ h => ⟨hcurrent.trans h.1, ?_⟩) (fun _ h => ?_)
        fun _ h => ⟨hcurrent.trans h.1, h.2⟩
      · exact (Valid.congr hcurrent.nodes_eq).mp h.2
      · refine ⟨hcurrent.trans h.1, fun hw hfits => h.2 hw ?_⟩
        exact (Fits.congr hcurrent.nodes_eq).mpr (hfits.child name)
    · exact Valid.of_file hclosed (by simp) hchild (by simpa using hfile) hallowed
  · intro _ view' ⟨hview', hvalid⟩
    refine (require_tracks (P := fun _ _ => False) (E := ¬ Fits allowed view path)
      (C := view.Ended oracle (fun _ _ => False) False) ?_).conseq ?_ ?_ fun _ h => h
    · intro hother hfits
      exact (hfits [name] node hchild).2.1 (by simpa using hother)
    · intro _ _ hgiven
      obtain ⟨rfl, -⟩ := hgiven
      exact ⟨hview', hvalid⟩
    · exact fun _ h => ⟨hview'.trans h.1, h.2⟩

/-- Nothing is unlinked by the validation, and all that is there is allowed when
it succeeds. -/
theorem validateGeneratedTree_tracks (token : Token) :
    ∀ (fuel : ℕ) (below : Path) (view : View), view.Closed →
      allowed.lookup (sourcePath token ++ below) = some .directory →
      (∀ key kind, allowed.lookup key = some kind → key.length < below.length + 1 + fuel) →
      Tracks (Sees oracle journal) view
        (validateGeneratedTree allowed fuel (sourcePath token ++ below))
        (fun _ view' => view.Sweeps (fun _ _ => False) view' ∧
          Valid allowed view (sourcePath token ++ below))
        (view.Ended oracle (fun _ _ => False) (¬ Fits allowed view (sourcePath token ++ below)))
        (view.Ended oracle (fun _ _ => False) False) := by
  intro fuel
  induction fuel with
  | zero =>
    intro below view hclosed hallowed hfuel
    have hlength := hfuel _ _ hallowed
    simp only [sourcePath, List.length_append, List.length_singleton] at hlength
    omega
  | succ fuel ih =>
    intro below view hclosed hallowed hfuel
    have hdirect := direct_source token below
    have hself := View.Sweeps.refl (P := fun _ _ => False) view
    obtain ⟨path, hpath⟩ : ∃ path, path = sourcePath token ++ below := ⟨_, rfl⟩
    have hne : path ≠ [] := by simp [hpath, sourcePath]
    rw [← hpath] at hallowed hdirect ⊢
    unfold validateGeneratedTree
    refine sweeps_bind hself (info_tracks hdirect) False.elim ?_
    intro row view' ⟨hview, hrow⟩
    rw [hview]
    cases row with
    | none => exact Tracks.pure ⟨hself, Valid.of_missing hclosed hne hrow.none⟩
    | some row =>
      obtain ⟨entry, hnode, rfl⟩ := hrow.some
      refine sweeps_bind hself (require_tracks (E := ¬ Fits allowed view path) ?_) id ?_
      · intro hwrong hfits
        have hkind := (hfits [] entry.node (by rw [List.append_nil, hnode])).1
        rw [List.append_nil, hallowed] at hkind
        have hinfo : entry.info.kind = .directory := (Option.some.inj hkind).symm
        simp [hinfo, hallowed] at hwrong
      intro _ view' ⟨hview, hkind⟩
      rw [hview]
      have hdirectory : entry.node.kind = .directory := by
        have hinfo := (Bool.and_eq_true_iff.mp hkind).1
        exact beq_iff_eq.mp hinfo
      obtain ⟨identity, hidentity⟩ := directory_of_kind hdirectory
      rw [hidentity] at hnode
      refine sweeps_bind hself (names_tracks hnode) ?_ ?_
      · rintro ⟨name, hname, htext⟩ hfits
        obtain ⟨node, hchild⟩ := hname.node
        rw [(hfits [name] node hchild).2.2 name (List.mem_singleton.mpr rfl)] at htext
        cases htext
      intro found listed hgiven
      obtain ⟨hlisted, hfound⟩ := hgiven
      have hsweeps : view.Sweeps (fun _ _ => False) listed := by
        rw [hlisted]
        exact View.Sweeps.listed hnode
      refine (Tracks.each (I := fun done g => view.Sweeps (fun _ _ => False) g ∧
        ∀ name ∈ done, Valid allowed view (path ++ [name])) found ?_ listed
        ⟨hsweeps, by simp⟩).conseq ?_ (fun _ h => h) fun _ h => h
      · intro done name rest hitems g ⟨hg, hdone⟩
        have hshown : view.shows path name := by
          rw [← hfound, hitems]
          exact List.mem_append_right _ List.mem_cons_self
        have hchild : path ++ [name] = sourcePath token ++ (below ++ [name]) := by
          rw [hpath, List.append_assoc]
        have hgclosed : g.Closed := by
          unfold View.Closed View.shows
          rw [hg.nodes_eq]
          exact hclosed
        have hdepth : ∀ key kind, allowed.lookup key = some kind →
            key.length < (below ++ [name]).length + 1 + fuel := by
          intro key kind hkey
          have hlength := hfuel key kind hkey
          rw [List.length_append, List.length_singleton]
          omega
        refine (validateChild_tracks hclosed hg (hchild ▸ direct_source token _) hshown ?_).post ?_
        · rw [hchild]
          exact fun hdir => ih (below ++ [name]) g hgclosed hdir hdepth
        · intro _ g' ⟨hg', hvalid⟩
          refine ⟨hg', fun other hmem => ?_⟩
          rcases List.mem_append.mp hmem with hmem | hmem
          · exact hdone other hmem
          · rw [List.mem_singleton.mp hmem]
            exact hvalid
      · intro _ g ⟨hg, hall⟩
        refine ⟨hg, Valid.of_children hclosed hnode hallowed fun name hname => ?_⟩
        exact hall name ((hfound name).mpr hname)

end Validation

end XitForge.Directory
