import XitForge.Directory.Calm
import XitForge.Directory.Stage

/-!
The cleanup of the generated directory, step by step: after the validation links
and files go once they are what was written, and then the directories, each after
what stands in it. What an extraction leaves gives no step a reason to fail.
-/
namespace XitForge.Directory

open Program Program.Prog Foundation

section Removal

theorem isExpectedLink_iff {tail : AppPath} {entry : Entry} :
    isExpectedLink tail entry.info = true ↔ entry.node = .link (.relocated tail) := by
  obtain ⟨node, creation, mtime⟩ := entry
  cases node <;> simp [isExpectedLink, Entry.info, Node.kind]

variable {oracle : ℕ → Choice} {journal : Journal} {P : Path → Node → Prop}

/-- A step after which nothing is at the path; `E` is what can prevent it. -/
def Removes (oracle : ℕ → Choice) (journal : Journal) (P : Path → Node → Prop) (path : Path)
    (E : View → Prop) (m : M Unit) : Prop :=
  ∀ view, Tracks (Sees oracle journal) view m
    (fun _ view' => view.Sweeps P view' ∧ view'.nodes = Function.update view.nodes path none)
    (view.Ended oracle P (E view)) (view.Ended oracle P False)

/-- Something else than expected is at the path. -/
def View.Foreign (expected : Node → Prop) (path : Path) (view : View) : Prop :=
  ∃ node, view.nodes path = some node ∧ ¬ expected node

theorem removeDirectory_removes {path : Path} (hpath : Direct path)
    (hP : ∀ identity, P path (.directory identity)) :
    Removes oracle journal P path
      (fun view => view.Foreign (fun node => ∃ identity, node = .directory identity) path ∨
        ∃ name, view.shows path name)
      (removeOwned path .directory) := by
  intro view
  refine (removeOwned_tracks hpath .directory ?_).conseq (fun _ _ h => h) ?_ fun _ h => h
  · intro node _ hkind
    obtain ⟨identity, rfl⟩ := directory_of_kind hkind
    exact hP identity
  · intro view' h
    refine ⟨h.1, fun hw => (h.2 hw).imp_left ?_⟩
    intro hgiven
    obtain ⟨node, hnode, hkind⟩ := hgiven
    refine ⟨node, hnode, ?_⟩
    intro hgiven
    obtain ⟨identity, rfl⟩ := hgiven
    exact hkind rfl

/-- An object that is no directory shows no names, so it can be removed. -/
theorem removeFile_tracks {view : View} {path : Path} (hpath : Direct path) (hne : path ≠ [])
    {node : Node} (hnode : view.nodes path = some node) (hP : P path node)
    (hfile : node.kind ≠ .directory) :
    Tracks (Sees oracle journal) view (removeOwned path node.kind)
      (fun _ view' => view.Sweeps P view' ∧ view'.nodes = Function.update view.nodes path none)
      (view.Ended oracle P False) (view.Ended oracle P False) := by
  refine tracks_closed fun hclosed => ?_
  refine (removeOwned_tracks hpath node.kind ?_).conseq (fun _ _ h => h) ?_ fun _ h => h
  · intro found hfound _
    rw [hnode] at hfound
    rw [← Option.some.inj hfound]
    exact hP
  · intro view' h
    refine ⟨h.1, fun hw => ?_⟩
    rcases h.2 hw with ⟨found, hfound, hkind⟩ | ⟨name, hshows⟩
    · rw [hnode] at hfound
      rw [← Option.some.inj hfound] at hkind
      exact hkind rfl
    · rcases hclosed path name hshows with hroot | ⟨identity, hdir⟩
      · exact hne hroot
      · rw [hnode] at hdir
        rw [Option.some.inj hdir] at hfile
        exact hfile rfl

/-- Nothing is to be done where nothing is at the path; else what was found is removed. -/
theorem removes_found {path : Path} (hpath : Direct path) {E : View → Prop} {m : FileInfo → M Unit}
    (hfound : ∀ view : View, ∀ entry : Entry, view.nodes path = some entry.node →
      Tracks (Sees oracle journal) view (m entry.info)
        (fun _ view' => view.Sweeps P view' ∧ view'.nodes = Function.update view.nodes path none)
        (view.Ended oracle P (E view)) (view.Ended oracle P False)) :
    Removes oracle journal P path E (do
      match ← info path with
      | none => return ()
      | some row => m row) := by
  intro view
  have hself := View.Sweeps.refl (P := P) view
  refine sweeps_bind hself (info_tracks hpath) False.elim ?_
  intro row view' ⟨hview, hrow⟩
  rw [hview]
  cases row with
  | none => exact Tracks.pure ⟨hself, (Function.update_eq_self_iff.mpr hrow.none.symm).symm⟩
  | some row =>
    obtain ⟨entry, hnode, rfl⟩ := hrow.some
    exact hfound view entry hnode

theorem removeGeneratedLink_removes (tail : AppPath) {path : Path} (hpath : Direct path)
    (hne : path ≠ []) (hP : P path (.link (.relocated tail))) :
    Removes oracle journal P path (View.Foreign (· = .link (.relocated tail)) path)
      (removeGeneratedLink tail path) := by
  unfold removeGeneratedLink
  apply removes_found hpath
  intro view entry hnode
  have hself := View.Sweeps.refl (P := P) view
  refine sweeps_bind hself (require_tracks
    (E := view.Foreign (· = .link (.relocated tail)) path) ?_) id ?_
  · intro hwrong
    refine ⟨entry.node, hnode, fun heq => ?_⟩
    rw [isExpectedLink_iff.mpr heq] at hwrong
    cases hwrong
  intro _ view' ⟨hview, hexpected⟩
  rw [hview]
  rw [isExpectedLink_iff.mp hexpected] at hnode
  exact (removeFile_tracks hpath hne hnode hP (by simp [Node.kind])).conseq (fun _ _ h => h)
    (fun _ h => ⟨h.1, fun hw => (h.2 hw).elim⟩) fun _ h => h

theorem file_of_kind (entry : Entry) (h : entry.node.kind = .regular) :
    ∃ bytes, entry.node = .file bytes ∧ entry.info.size = bytes.length := by
  obtain ⟨node, creation, mtime⟩ := entry
  cases node with
  | file bytes => exact ⟨bytes, rfl, rfl⟩
  | directory identity => cases h
  | link target => cases h
  | other => cases h

theorem removePayload_removes (token : Token) (hP : P (payloadPath token) (.file directoryMarker)) :
    Removes oracle journal P (payloadPath token)
      (View.Foreign (· = .file directoryMarker) (payloadPath token)) (removePayload token) := by
  have hpath : Direct (payloadPath token) := direct_source token _
  unfold removePayload
  apply removes_found hpath
  intro view entry hnode
  have hself := View.Sweeps.refl (P := P) view
  refine sweeps_bind hself (require_tracks
    (E := view.Foreign (· = .file directoryMarker) (payloadPath token)) ?_) id ?_
  · intro hwrong
    refine ⟨entry.node, hnode, fun hmarker => ?_⟩
    have hkind : entry.info.kind = .regular := by
      rw [show entry.info.kind = entry.node.kind from rfl, hmarker]
      rfl
    have hsize : entry.info.size = directoryMarker.length := by
      obtain ⟨bytes, hbytes, hsize⟩ := file_of_kind entry hkind
      rw [hsize, Node.file.inj (hbytes.symm.trans hmarker)]
    simp [hkind, hsize] at hwrong
  intro _ view' ⟨hview, hrow⟩
  rw [hview]
  obtain ⟨hkind, hsize⟩ := Bool.and_eq_true_iff.mp hrow
  obtain ⟨bytes, hbytes, hlength⟩ := file_of_kind entry (beq_iff_eq.mp hkind)
  rw [hbytes] at hnode
  rw [beq_iff_eq, hlength] at hsize
  rw [← hsize]
  refine sweeps_bind hself (readSnapshot_tracks hpath hnode) ?_ ?_
  · intro hlarge
    have hshort : directoryMarker.length = 14 := by decide
    omega
  intro actual view' ⟨hview, hactual⟩
  rw [hview, hactual]
  refine sweeps_bind hself (require_tracks
    (E := view.Foreign (· = .file directoryMarker) (payloadPath token)) ?_) id ?_
  · intro hwrong
    refine ⟨.file bytes, hnode, fun hmarker => ?_⟩
    rw [Node.file.inj hmarker] at hwrong
    simp at hwrong
  intro _ view' ⟨hview, hequal⟩
  rw [hview]
  rw [beq_iff_eq.mp hequal] at hnode
  exact (removeFile_tracks hpath (by simp [payloadPath]) hnode hP (by simp [Node.kind])).conseq
    (fun _ _ h => h) (fun _ h => ⟨h.1, fun hw => (h.2 hw).elim⟩) fun _ h => h

variable [Foundation]

/-- A readable file with the contents of the archive's metadata. -/
def IsZipMetadata (node : Node) : Prop :=
  ∃ bytes, node = .file bytes ∧ bytes.length ≤ 128 * 1024 * 1024 ∧
    propertyList bytes = some .zipMetadata

theorem removeZipMetadata_removes (token : Token)
    (hP : ∀ bytes, propertyList bytes = some .zipMetadata → P (zipMetadataPath token) (.file bytes)) :
    Removes oracle journal P (zipMetadataPath token)
      (View.Foreign IsZipMetadata (zipMetadataPath token)) (removeZipMetadata token) := by
  have hpath : Direct (zipMetadataPath token) := direct_source token _
  unfold removeZipMetadata
  apply removes_found hpath
  intro view entry hnode
  have hself := View.Sweeps.refl (P := P) view
  refine sweeps_bind hself (require_tracks
    (E := view.Foreign IsZipMetadata (zipMetadataPath token)) ?_) id ?_
  · intro hwrong
    refine ⟨entry.node, hnode, ?_⟩
    intro hgiven
    obtain ⟨bytes, hbytes, -, -⟩ := hgiven
    rw [show entry.info.kind = entry.node.kind from rfl, hbytes] at hwrong
    cases hwrong
  intro _ view' ⟨hview, hkind⟩
  rw [hview]
  obtain ⟨bytes, hbytes, hsize⟩ := file_of_kind entry (beq_iff_eq.mp hkind)
  rw [hbytes] at hnode
  rw [hsize]
  refine sweeps_bind hself (readSnapshot_tracks hpath hnode) ?_ ?_
  · intro hlarge
    refine ⟨.file bytes, hnode, ?_⟩
    intro hgiven
    obtain ⟨found, hfound, hlength, -⟩ := hgiven
    rw [← Node.file.inj hfound] at hlength
    omega
  intro actual view' ⟨hview, hactual⟩
  rw [hview, hactual]
  refine sweeps_bind hself (require_tracks
    (E := view.Foreign IsZipMetadata (zipMetadataPath token)) ?_) id ?_
  · intro hwrong
    refine ⟨.file bytes, hnode, ?_⟩
    intro hgiven
    obtain ⟨found, hfound, -, hplist⟩ := hgiven
    rw [← Node.file.inj hfound] at hplist
    simp [hplist] at hwrong
  intro _ view' ⟨hview, hplist⟩
  rw [hview]
  exact (removeFile_tracks hpath (by simp [zipMetadataPath]) hnode (hP bytes (beq_iff_eq.mp hplist))
    (by simp [Node.kind])).conseq (fun _ _ h => h) (fun _ h => ⟨h.1, fun hw => (h.2 hw).elim⟩)
    fun _ h => h

end Removal

section Cleanup

variable [Foundation] {oracle : ℕ → Choice} {journal : Journal} {archive : Archive}

/-- The node is what an entry of the archive describes; the metadata may be
spelled in another way. -/
def Node.agrees : Node → Node → Prop
  | .directory _, .directory _ => True
  | .link target, .link target' => target' = target
  | .file bytes, .file bytes' => bytes' = bytes ∨
      (bytes = plistData .zipMetadata ∧ propertyList bytes' = some .zipMetadata)
  | _, _ => False

/-- What the cleaner may unlink: the link with the expected target, in either
place, and objects of the archive. -/
def StageObject (journal : Journal) (archive : Archive) (path : Path) (node : Node) : Prop :=
  (path = linkPath journal.token ∧ node = .link (.relocated journal.tail)) ∨
    ∃ entry ∈ stageEntries archive, path = sourcePath journal.token ++ entry.path ∧
      entry.node.agrees node

/-- What StreamingZip leaves of the archive, wherever it stopped. -/
structure Generated (journal : Journal) (archive : Archive) (view : View) : Prop where
  source : ∀ below node, view.nodes (sourcePath journal.token ++ below) = some node →
    ⟨below, node⟩ ∈ stageEntries archive
  link : ∀ node, view.nodes (linkPath journal.token) = some node →
    node = .link (.relocated journal.tail)

/-- Neither the source tree nor the link remains. -/
def Gone (journal : Journal) (view : View) : Prop :=
  (∀ below, view.nodes (sourcePath journal.token ++ below) = none) ∧
    view.nodes (linkPath journal.token) = none

/-- The names in the archive are names that AFC may list. -/
theorem Stages.names_valid (h : Stages journal archive) {entry : ArchiveEntry}
    (hentry : entry ∈ stageEntries archive) :
    ∀ name ∈ entry.path, xfatcComponent name.text = true := by
  have htail : ∀ part ∈ journal.tail, xfatcComponent part = true := by
    have hvalid := h.tail
    simp only [validAppPath, Bool.and_eq_true, List.all_eq_true] at hvalid
    exact hvalid.1.1
  have hfixed : ∀ name ∈ ([.metaInf, .zipMetadata, .p0, .p1, .p2, .stagedLink, .payload] : List Name),
      xfatcComponent name.text = true := by decide
  intro name hname
  rw [h.mem] at hentry
  rcases hentry with ⟨hempty | hdir, -⟩ | rfl | rfl | rfl
  · rw [hempty] at hname
    cases hname
  · rcases List.mem_append.mp hdir with hdir | hdir
    · refine hfixed name ?_
      simp only [List.mem_cons, List.not_mem_nil, or_false] at hdir
      rcases hdir with hpath | hpath | hpath | hpath <;> rw [hpath] at hname <;>
        simp only [List.mem_cons, List.not_mem_nil, or_false] at hname ⊢ <;> tauto
    · obtain ⟨n, -, hpath⟩ := List.mem_map.mp hdir
      rw [← hpath] at hname
      obtain ⟨part, hpart, rfl⟩ := List.mem_map.mp hname
      exact htail part (List.mem_of_mem_take hpart)
  all_goals
    refine hfixed name ?_
    simp only [List.mem_cons, List.not_mem_nil, or_false] at hname ⊢
    tauto

theorem Generated.fits (h : Stages journal archive) {view : View}
    (hview : Generated journal archive view) :
    Fits (stageAllowed journal) view (sourcePath journal.token) := by
  intro below node hnode
  have hentry := hview.source below node hnode
  refine ⟨(h.allowed below _).mpr ⟨_, hentry, rfl, rfl⟩, ?_, h.names_valid hentry⟩
  rw [h.mem] at hentry
  rcases hentry with ⟨-, hdir⟩ | hfile | hlink | hfile
  · rw [show node = .directory 0 from hdir]
    simp [Node.kind]
  all_goals simp_all [Node.kind]

omit [Foundation] in
/-- The recursion of the validation is deep enough for every allowed path. -/
theorem stageAllowed_length {key : Path} {kind : Kind}
    (hkey : (stageAllowed journal).lookup key = some kind) :
    key.length < (stageAllowed journal).length + 2 := by
  have hdirectories : (stageDirectories journal.token journal.tail).length = 4 + journal.tail.length := by
    simp [stageDirectories, xfatcDirectories]
    omega
  have hlength : 7 + journal.tail.length ≤ (stageAllowed journal).length := by
    simp only [stageAllowed, List.length_append, List.length_map, hdirectories, List.length_cons]
    omega
  have hmem : (key, kind) ∈ stageAllowed journal := by
    obtain ⟨before, after, hrows, -⟩ := List.lookup_eq_some_iff.mp hkey
    rw [hrows]
    exact List.mem_append_right _ List.mem_cons_self
  have hshort : key.length ≤ 5 + journal.tail.length := by
    simp only [stageAllowed, List.mem_append, List.mem_map, Prod.mk.injEq] at hmem
    rcases hmem with (hfixed | hpayload) | ⟨path, hpath, rfl, -⟩
    · simp only [List.mem_cons, Prod.mk.injEq, List.not_mem_nil, or_false] at hfixed
      rcases hfixed with ⟨rfl, -⟩ | ⟨rfl, -⟩ | ⟨rfl, -⟩ <;>
        simp [sourcePath, zipMetadataPath, stagedLinkPath] <;> omega
    · split at hpayload
      · simp only [List.mem_singleton, Prod.mk.injEq] at hpayload
        rw [hpayload.1]
        simp [payloadPath, sourcePath]
        omega
      · cases hpayload
    · obtain ⟨below, hbelow, rfl⟩ := List.mem_map.mp hpath
      have hdepth : below.length ≤ 3 + journal.tail.length := by
        rcases List.mem_append.mp hbelow with hfixed | htail
        · have hthree := (by decide : ∀ path ∈ ([[.metaInf], [.p0], [.p0, .p1], [.p0, .p1, .p2]] :
            List Path), path.length ≤ 3) below hfixed
          omega
        · obtain ⟨n, -, rfl⟩ := List.mem_map.mp htail
          rw [List.length_map, List.length_take]
          omega
      simp only [sourcePath, List.length_append, List.length_singleton]
      omega
  omega

/-- The places of the files and links, which go before the directories. -/
def stageFiles (token : Token) : List Path :=
  [linkPath token, stagedLinkPath token, zipMetadataPath token, payloadPath token]

/-- What is gone once the directories `done` went too. -/
def Cleared (journal : Journal) (archive : Archive) (view : View) (done : List Path) (view' : View) :
    Prop :=
  view.Sweeps (StageObject journal archive) view' ∧ ∀ path ∈ done, view'.nodes path = none

theorem Cleared.step {view view' view'' : View} {done : List Path} {path : Path}
    (h : Cleared journal archive view done view')
    (hstep : view'.Sweeps (StageObject journal archive) view'' ∧
      view''.nodes = Function.update view'.nodes path none) :
    Cleared journal archive view (done ++ [path]) view'' := by
  refine ⟨h.1.trans hstep.1, fun other hother => ?_⟩
  rw [hstep.2, Function.update_apply]
  split
  · rfl
  · rename_i hne
    rcases List.mem_append.mp hother with hother | hother
    · exact h.2 other hother
    · exact absurd (List.mem_singleton.mp hother) hne

/-- A step of the cleanup, which a generated tree gives no reason to fail. -/
theorem removes_bind {β : Type} {view current : View} {done : List Path} {path : Path}
    {E : View → Prop} {m : M Unit} {next : Unit → M β} {R : β → View → Prop}
    (hm : Removes oracle journal (StageObject journal archive) path E m)
    (hcurrent : Cleared journal archive view done current)
    (hE : Generated journal archive view → ¬ E current)
    (hnext : ∀ view', Cleared journal archive view (done ++ [path]) view' →
      Tracks (Sees oracle journal) view' (next ()) R
        (view.Ended oracle (StageObject journal archive) (¬ Generated journal archive view))
        (view.Ended oracle (StageObject journal archive) False)) :
    Tracks (Sees oracle journal) current (m >>= next) R
      (view.Ended oracle (StageObject journal archive) (¬ Generated journal archive view))
      (view.Ended oracle (StageObject journal archive) False) :=
  sweeps_bind hcurrent.1 (hm current) (fun hbad hgood => hE hgood hbad)
    fun _ view' hview' => hnext view' (hcurrent.step hview')

theorem Cleared.kept {view view' : View} {done : List Path}
    (h : Cleared journal archive view done view') (hview : Generated journal archive view)
    {below : Path} {node : Node} (hnode : view'.nodes (sourcePath journal.token ++ below) = some node) :
    ⟨below, node⟩ ∈ stageEntries archive := hview.source below node (h.1.kept hnode)

/-- In a generated tree an object of the archive is what its entry says. -/
theorem Cleared.not_foreign (hstages : Stages journal archive) {view view' : View} {done : List Path}
    (h : Cleared journal archive view done view') {entry : ArchiveEntry}
    (hentry : entry ∈ stageEntries archive) {expected : Node → Prop} (hexpected : expected entry.node)
    (hview : Generated journal archive view) :
    ¬ View.Foreign expected (sourcePath journal.token ++ entry.path) view' := by
  intro hgiven
  obtain ⟨node, hnode, hnot⟩ := hgiven
  have hfound := h.kept hview hnode
  rw [hstages.node_unique hentry hfound rfl] at hexpected
  exact hnot hexpected

omit [Foundation] in
theorem mem_sorted_directories {token : Token} {tail : AppPath} {path : Path} :
    path ∈ (stageDirectories token tail).insertionSort removedBefore ↔
      ∃ below ∈ xfatcDirectories tail, path = sourcePath token ++ below := by
  rw [List.mem_insertionSort, stageDirectories, List.mem_map]
  constructor
  · intro h
    obtain ⟨below, hbelow, rfl⟩ := h
    exact ⟨below, hbelow, rfl⟩
  · intro h
    obtain ⟨below, hbelow, rfl⟩ := h
    exact ⟨below, hbelow, rfl⟩

/-- When a directory's turn comes, nothing is left in it. -/
theorem Cleared.shows_nothing (hstages : Stages journal archive) {view current : View}
    {done rest : List Path} {below : Path}
    (hsorted : (stageDirectories journal.token journal.tail).insertionSort removedBefore =
      done ++ (sourcePath journal.token ++ below) :: rest)
    (hcurrent : Cleared journal archive view (stageFiles journal.token ++ done) current)
    (hview : Generated journal archive view) (name : Name) :
    ¬ current.shows (sourcePath journal.token ++ below) name := by
  intro hshows
  obtain ⟨node, hnode⟩ := hshows.node
  have hgone : ∀ path ∈ stageFiles journal.token ++ done,
      sourcePath journal.token ++ below ++ [name] ≠ path := by
    intro path hpath heq
    subst heq
    rw [hcurrent.2 _ hpath] at hnode
    cases hnode
  have hfiles : ∀ path ∈ stageFiles journal.token, sourcePath journal.token ++ below ++ [name] ≠ path :=
    fun path hpath => hgone path (List.mem_append_left _ hpath)
  rw [List.append_assoc] at hnode
  have hentry := hcurrent.kept hview hnode
  rw [hstages.mem] at hentry
  rcases hentry with ⟨hempty | hdir, -⟩ | hfile | hlink | hfile
  · simp at hempty
  · have hmem := (@mem_sorted_directories journal.token journal.tail _).mpr ⟨_, hdir, rfl⟩
    rw [hsorted, ← List.append_assoc] at hmem
    rcases List.mem_append.mp hmem with hdone | hrest
    · exact hgone _ (List.mem_append_right _ hdone) rfl
    · rcases List.mem_cons.mp hrest with hself | hlater
      · exact absurd hself (by simp)
      · have hpairwise := List.pairwise_insertionSort removedBefore
          (stageDirectories journal.token journal.tail)
        rw [hsorted] at hpairwise
        have hbefore := (List.pairwise_cons.mp (List.pairwise_append.mp hpairwise).2.1).1 _ hlater
        exact not_removedBefore_child (by simp [sourcePath]) name hbefore
  · have hpath := congrArg ArchiveEntry.path hfile
    exact hfiles (zipMetadataPath journal.token) (by simp [stageFiles])
      (by rw [List.append_assoc]; exact congrArg _ hpath)
  · have hpath := congrArg ArchiveEntry.path hlink
    exact hfiles (stagedLinkPath journal.token) (by simp [stageFiles])
      (by rw [List.append_assoc]; exact congrArg _ hpath)
  · have hpath := congrArg ArchiveEntry.path hfile
    exact hfiles (payloadPath journal.token) (by simp [stageFiles])
      (by rw [List.append_assoc]; exact congrArg _ hpath)

theorem Stages.stageObject (h : Stages journal archive) {below : Path} (hbelow : below = [] ∨
    below ∈ xfatcDirectories journal.tail) (identity : ℕ) :
    StageObject journal archive (sourcePath journal.token ++ below) (.directory identity) :=
  Or.inr ⟨⟨below, .directory 0⟩, (h.mem _).mpr (Or.inl ⟨hbelow, rfl⟩), rfl, trivial⟩

/-- The directories go, each after what stands in it. -/
theorem removeDirectories_tracks (hstages : Stages journal archive) {view current : View}
    (hcurrent : Cleared journal archive view (stageFiles journal.token) current) :
    Tracks (Sees oracle journal) current
      (each (fun path => removeOwned path .directory)
        ((stageDirectories journal.token journal.tail).insertionSort removedBefore))
      (fun _ => Cleared journal archive view (stageFiles journal.token ++
        (stageDirectories journal.token journal.tail).insertionSort removedBefore))
      (view.Ended oracle (StageObject journal archive) (¬ Generated journal archive view))
      (view.Ended oracle (StageObject journal archive) False) := by
  refine Tracks.each (I := fun done => Cleared journal archive view (stageFiles journal.token ++ done))
    _ ?_ current (by rw [List.append_nil]; exact hcurrent)
  intro done path rest hsorted g hg
  have hmem : path ∈ (stageDirectories journal.token journal.tail).insertionSort removedBefore := by
    rw [hsorted]
    exact List.mem_append_right _ List.mem_cons_self
  obtain ⟨below, hbelow, rfl⟩ := mem_sorted_directories.mp hmem
  have hentry : ⟨below, .directory 0⟩ ∈ stageEntries archive :=
    (hstages.mem _).mpr (Or.inl ⟨Or.inr hbelow, rfl⟩)
  refine (removeDirectory_removes (direct_source journal.token below)
    (hstages.stageObject (Or.inr hbelow)) g).conseq ?_ ?_ fun _ h => ⟨hg.1.trans h.1, h.2⟩
  · intro _ view' h
    rw [← List.append_assoc]
    exact hg.step h
  · intro view' h
    refine ⟨hg.1.trans h.1, fun hw hgood => ?_⟩
    rcases h.2 hw with hforeign | ⟨name, hshows⟩
    · exact hg.not_foreign hstages hentry ⟨0, rfl⟩ hgood hforeign
    · exact hg.shows_nothing hstages hsorted hgood name hshows

/-- After a validation and the removals only the source directory can be left. -/
theorem Cleared.nothing_below (hstages : Stages journal archive) {view view' : View}
    (hvalid : Valid (stageAllowed journal) view (sourcePath journal.token))
    (h : Cleared journal archive view (stageFiles journal.token ++
      (stageDirectories journal.token journal.tail).insertionSort removedBefore) view')
    {below : Path} (hne : below ≠ []) : view'.nodes (sourcePath journal.token ++ below) = none := by
  by_contra hsome
  obtain ⟨node, hnode⟩ := Option.ne_none_iff_exists'.mp hsome
  obtain ⟨entry, hentry, hpath, -⟩ := (hstages.allowed _ _).mp (hvalid below node (h.1.kept hnode))
  have hgone : sourcePath journal.token ++ below ∈ stageFiles journal.token ++
      (stageDirectories journal.token journal.tail).insertionSort removedBefore := by
    rw [hstages.mem] at hentry
    rcases hentry with ⟨hempty | hdir, -⟩ | rfl | rfl | rfl
    · exact absurd (hpath.symm.trans hempty) hne
    · rw [hpath] at hdir
      exact List.mem_append_right _ (mem_sorted_directories.mpr ⟨_, hdir, rfl⟩)
    all_goals
      rw [← hpath]
      refine List.mem_append_left _ ?_
      simp [stageFiles, zipMetadataPath, payloadPath, stagedLinkPath, sourcePath]
  rw [h.2 _ hgone] at hnode
  cases hnode

theorem removals_tracks (hstages : Stages journal archive) {view current : View}
    (hvalid : Valid (stageAllowed journal) view (sourcePath journal.token))
    (hcurrent : Cleared journal archive view [] current) :
    Tracks (Sees oracle journal) current
      (do
        removeGeneratedLink journal.tail (linkPath journal.token)
        removeGeneratedLink journal.tail (stagedLinkPath journal.token)
        removeZipMetadata journal.token
        when journal.archiveProfile (removePayload journal.token)
        each (fun path => removeOwned path .directory)
          ((stageDirectories journal.token journal.tail).insertionSort removedBefore)
        removeOwned (sourcePath journal.token) .directory)
      (fun _ view' => view.Sweeps (StageObject journal archive) view' ∧ Gone journal view')
      (view.Ended oracle (StageObject journal archive) (¬ Generated journal archive view))
      (view.Ended oracle (StageObject journal archive) False) := by
  have hlink : ⟨[.p0, .p1, .p2, .stagedLink], .link (.relocated journal.tail)⟩ ∈ stageEntries archive :=
    (hstages.mem _).mpr (Or.inr (Or.inr (Or.inl rfl)))
  have hzip : ⟨[.metaInf, .zipMetadata], .file (plistData .zipMetadata)⟩ ∈ stageEntries archive :=
    (hstages.mem _).mpr (Or.inr (Or.inl rfl))
  have hpayload : ⟨[.payload], .file directoryMarker⟩ ∈ stageEntries archive :=
    (hstages.mem _).mpr (Or.inr (Or.inr (Or.inr rfl)))
  have hsource : ⟨[], .directory 0⟩ ∈ stageEntries archive := List.mem_cons_self
  refine removes_bind (removeGeneratedLink_removes journal.tail (direct_link _) (by simp [linkPath])
    (Or.inl ⟨rfl, rfl⟩)) hcurrent ?_ fun moved hmoved => ?_
  · intro hgood hgiven
    obtain ⟨node, hnode, hnot⟩ := hgiven
    exact hnot (hgood.link node (hcurrent.1.kept hnode))
  refine removes_bind (removeGeneratedLink_removes journal.tail (direct_source _ _)
    (by simp [stagedLinkPath]) (Or.inr ⟨_, hlink, rfl, rfl⟩)) hmoved
    (hmoved.not_foreign hstages hlink rfl) fun staged hstaged => ?_
  refine removes_bind (removeZipMetadata_removes journal.token
    fun bytes hbytes => Or.inr ⟨_, hzip, rfl, Or.inr ⟨rfl, hbytes⟩⟩) hstaged
    (hstaged.not_foreign hstages hzip ⟨_, rfl, ?_, propertyList_plistData _⟩) fun zipped hzipped => ?_
  · have hlength := hstages.metadata_length
    omega
  rw [hstages.profile]
  refine removes_bind (removePayload_removes journal.token (Or.inr ⟨_, hpayload, rfl, Or.inl rfl⟩))
    hzipped (hzipped.not_foreign hstages hpayload rfl) fun paid hpaid => ?_
  refine Tracks.bind (removeDirectories_tracks hstages hpaid) fun _ emptied hemptied => ?_
  have hbelow := fun (below : Path) (hne : below ≠ []) => hemptied.nothing_below hstages hvalid hne
  refine (removeDirectory_removes (direct_source journal.token [])
    (hstages.stageObject (Or.inl rfl)) emptied).conseq ?_ ?_ fun _ h => ⟨hemptied.1.trans h.1, h.2⟩
  · intro _ view' h
    have hall := hemptied.step h
    refine ⟨hall.1, fun below => ?_, hall.2 _ (by simp [stageFiles])⟩
    by_cases hempty : below = []
    · rw [hempty]
      exact hall.2 _ (by simp)
    · rw [h.2, Function.update_of_ne (by simpa using hempty)]
      exact hbelow below hempty
  · intro view' h
    refine ⟨hemptied.1.trans h.1, fun hw hgood => ?_⟩
    rcases h.2 hw with hforeign | ⟨name, hshows⟩
    · exact hemptied.not_foreign hstages hsource ⟨0, rfl⟩ hgood hforeign
    · obtain ⟨node, hnode⟩ := hshows.node
      rw [List.append_nil, hbelow [name] (by simp)] at hnode
      cases hnode

/-- A cleanup that succeeds leaves nothing. It fails in an undisturbed run only
if the tree is not a generated one, and unlinks nothing in a tree with an object
that is not allowed. -/
theorem cleanGeneratedStage_tracks (hstages : Stages journal archive) {view : View} :
    Tracks (Sees oracle journal) view cleanGeneratedStage
      (fun _ view' => (view.Sweeps (StageObject journal archive) view' ∧ Gone journal view') ∧
        Valid (stageAllowed journal) view (sourcePath journal.token))
      (fun view' => view.Ended oracle (StageObject journal archive)
          (¬ Generated journal archive view) view' ∧
        (Valid (stageAllowed journal) view (sourcePath journal.token) ∨
          view.Sweeps (fun _ _ => False) view'))
      (fun view' => view.Ended oracle (StageObject journal archive) False view' ∧
        (Valid (stageAllowed journal) view (sourcePath journal.token) ∨
          view.Sweeps (fun _ _ => False) view')) := by
  refine tracks_closed fun hclosed => ?_
  unfold cleanGeneratedStage
  refine Tracks.bind theJournal_tracks ?_
  intro found view' hgiven
  obtain ⟨hview, rfl⟩ := hgiven
  rw [hview]
  have hsource : (stageAllowed found).lookup (sourcePath found.token ++ []) = some .directory :=
    (hstages.allowed [] .directory).mpr ⟨_, List.mem_cons_self, rfl, rfl⟩
  have hdepth : ∀ key kind, (stageAllowed found).lookup key = some kind →
      key.length < ([] : Path).length + 1 + ((stageAllowed found).length + 1) := by
    intro key kind hkey
    have hlength := stageAllowed_length hkey
    simp only [List.length_nil]
    omega
  have hvalidated : Tracks (Sees oracle found) view _ _ _ _ :=
    validateGeneratedTree_tracks found.token _ [] view hclosed hsource hdepth
  rw [List.append_nil] at hvalidated
  refine Tracks.bind (hvalidated.conseq (fun _ _ h => h) ?_ ?_) ?_
  · intro view' h
    refine ⟨⟨h.1.mono fun _ _ => False.elim, fun hw hgood => h.2 hw (hgood.fits hstages)⟩, Or.inr h.1⟩
  · intro view' h
    exact ⟨⟨h.1.mono fun _ _ => False.elim, h.2⟩, Or.inr h.1⟩
  · intro _ view' ⟨hsweeps, hvalid⟩
    refine (removals_tracks hstages hvalid ⟨hsweeps.mono fun _ _ => False.elim, by simp⟩).conseq
      ?_ ?_ ?_
    · exact fun _ _ h => ⟨h, hvalid⟩
    · exact fun _ h => ⟨h, Or.inl hvalid⟩
    · exact fun _ h => ⟨h, Or.inl hvalid⟩

end Cleanup

section Extraction

theorem extract_nodes (now : ℕ) (source : Path) :
    ∀ (archive : Archive) (device : Device) (path : Path) (node : Node),
      ((device.extract now source archive).media.lookup path).map Entry.node = some node →
      (device.media.lookup path).map Entry.node = some node ∨
        ∃ entry ∈ archive, path = source ++ entry.path ∧ entry.node = node := by
  intro archive
  induction archive with
  | nil => exact fun device path node h => Or.inl h
  | cons entry rest ih =>
    intro device path node h
    unfold Device.extract at h
    rcases ih _ path node h with hbefore | ⟨other, hother, hpath⟩
    · cases hput : device.putAt now ⟨entry.node, now, now⟩ (.media (source ++ entry.path)) with
      | none =>
        rw [hput] at hbefore
        exact Or.inl hbefore
      | some placed =>
        rw [hput, Option.getD_some, putAt_nodes hput] at hbefore
        split at hbefore
        · rename_i hpath
          exact Or.inr ⟨entry, List.mem_cons_self, hpath, Option.some.inj hbefore⟩
        · exact Or.inl hbefore
    · exact Or.inr ⟨other, List.mem_cons_of_mem _ hother, hpath⟩

theorem move_link_nodes (device : Device) (now : ℕ) (token : Token) (path : Path) (node : Node)
    (h : ((device.move now (.stagedLink token) (linkPath token)).media.lookup path).map Entry.node =
      some node) :
    (device.media.lookup path).map Entry.node = some node ∨ (path = linkPath token ∧
      (device.media.lookup (stagedLinkPath token)).map Entry.node = some node) := by
  unfold Device.move at h
  rw [direct_link token device] at h
  dsimp only [Device.assetPlace, Device.entryAt] at h
  cases hstaged : device.media.lookup (stagedLinkPath token) with
  | none =>
    rw [hstaged] at h
    exact Or.inl h
  | some entry =>
    rw [hstaged] at h
    dsimp only at h
    rw [if_neg (by simp [stagedLinkPath, linkPath])] at h
    cases htaken : device.dropAt now (.media (stagedLinkPath token)) with
    | none =>
      rw [htaken] at h
      exact Or.inl h
    | some taken =>
      rw [htaken] at h
      dsimp only at h
      cases hput : taken.putAt now entry (.media (linkPath token)) with
      | none =>
        rw [hput] at h
        exact Or.inl h
      | some moved =>
        rw [hput, Option.getD_some, putAt_nodes hput] at h
        split at h
        · rename_i hpath
          exact Or.inr ⟨hpath, h⟩
        · rw [dropAt_nodes htaken] at h
          split at h
          · cases h
          · exact Or.inl h

variable {journal : Journal} {archive : Archive}

/-- A device on which StreamingZip created some of the entries, in their order,
where nothing stood before; the link may have been moved. -/
def Extracted (journal : Journal) (archive : Archive) (device : Device) : Prop :=
  ∃ (before staged : Device) (now count : ℕ),
    before.media.lookup (sourcePath journal.token) = none ∧
    before.media.lookup (linkPath journal.token) = none ∧
    staged = before.extract now (sourcePath journal.token) ((stageEntries archive).take count) ∧
    (device = staged ∨
      ∃ later, device = staged.move later (.stagedLink journal.token) (linkPath journal.token))

variable [Foundation]

theorem Extracted.generated (hstages : Stages journal archive) {w : World}
    (h : Extracted journal archive w.device) : Generated journal archive w.view := by
  obtain ⟨before, staged, now, count, hsource, hlink, hstaged, hdevice⟩ := h
  have hbefore : ∀ below node,
      (before.media.lookup (sourcePath journal.token ++ below)).map Entry.node ≠ some node := by
    intro below node hnode
    obtain ⟨entry, hentry, -⟩ := Option.map_eq_some_iff.mp hnode
    by_cases hempty : below = []
    · rw [hempty, List.append_nil, hsource] at hentry
      cases hentry
    · obtain ⟨parent, hparent, -⟩ := before.media.isDirectory_take _ entry hentry 1 Nat.one_pos (by
        have hpos := List.length_pos_of_ne_nil hempty
        simp only [sourcePath, List.length_append, List.length_singleton]
        omega)
      rw [show (sourcePath journal.token ++ below).take 1 = sourcePath journal.token from rfl,
        hsource] at hparent
      cases hparent
  have hfiles : ∀ below node,
      (staged.media.lookup (sourcePath journal.token ++ below)).map Entry.node = some node →
      ⟨below, node⟩ ∈ stageEntries archive := by
    intro below node hnode
    rw [hstaged] at hnode
    rcases extract_nodes _ _ _ _ _ _ hnode with hold | ⟨entry, hentry, hpath, rfl⟩
    · exact absurd hold (hbefore below node)
    · rw [List.append_cancel_left hpath]
      exact List.mem_of_mem_take hentry
  have hstagedLink : ∀ node,
      (staged.media.lookup (linkPath journal.token)).map Entry.node ≠ some node := by
    intro node hnode
    rw [hstaged] at hnode
    rcases extract_nodes _ _ _ _ _ _ hnode with hold | ⟨entry, -, hpath, -⟩
    · rw [hlink] at hold
      cases hold
    · simp [linkPath, sourcePath] at hpath
  rcases hdevice with hdevice | ⟨later, hdevice⟩
  · refine ⟨fun below node hnode => hfiles below node ?_, fun node hnode => ?_⟩
    · rw [← hdevice]
      exact hnode
    · rw [← hdevice] at hstagedLink
      exact absurd hnode (hstagedLink node)
  · refine ⟨fun below node hnode => ?_, fun node hnode => ?_⟩
    · have hmoved : (w.device.media.lookup (sourcePath journal.token ++ below)).map Entry.node =
          some node := hnode
      rw [hdevice] at hmoved
      rcases move_link_nodes _ _ _ _ _ hmoved with hold | ⟨hpath, -⟩
      · exact hfiles below node hold
      · simp [linkPath, sourcePath] at hpath
    · have hmoved : (w.device.media.lookup (linkPath journal.token)).map Entry.node = some node := hnode
      rw [hdevice] at hmoved
      rcases move_link_nodes _ _ _ _ _ hmoved with hold | ⟨-, hlinkNode⟩
      · exact absurd hold (hstagedLink node)
      · have hentry := hfiles [.p0, .p1, .p2, .stagedLink] node hlinkNode
        exact hstages.node_unique hentry ((hstages.mem _).mpr (Or.inr (Or.inr (Or.inl rfl)))) rfl

/-- The node at a path that leads through directories only. -/
def Device.Holds (device : Device) (path : Path) (node : Node) : Prop :=
  (device.media.lookup path).map Entry.node = some node ∧
    ∀ n, 0 < n → n < path.length → ∃ identity,
      (device.media.lookup (path.take n)).map Entry.node = some (.directory identity)

omit [Foundation] in
theorem holds_of_node {w : World} {path : Path} {node : Node} (h : w.view.nodes path = some node) :
    w.device.Holds path node := by
  refine ⟨h, fun n hpos hlt => ?_⟩
  obtain ⟨entry, hentry, -⟩ := Option.map_eq_some_iff.mp h
  obtain ⟨parent, hparent, hisdir⟩ := w.device.media.isDirectory_take path entry hentry n hpos hlt
  obtain ⟨identity, hnode⟩ := directory_of_isDirectory hisdir
  exact ⟨identity, by rw [hparent, Option.map_some, hnode]⟩

omit [Foundation] in
theorem mem_touched {events : List Event} {t : Touch} :
    t ∈ events.filterMap Event.touch ↔ ∃ event ∈ events, event.touch = some t := List.mem_filterMap

omit [Foundation] in
theorem unlinked_mem_touched {events : List Event} {path : Path} :
    .unlinked path ∈ events.filterMap Event.touch ↔
      ∃ found record original, Event.unlinked path found record original ∈ events := by
  rw [mem_touched]
  constructor
  · intro h
    obtain ⟨event, hmem, htouch⟩ := h
    cases event with
    | unlinked other found record original =>
      cases htouch
      exact ⟨found, record, original, hmem⟩
    | _ => cases htouch
  · intro h
    obtain ⟨found, record, original, hmem⟩ := h
    exact ⟨_, hmem, rfl⟩

/-- After an extraction that stopped anywhere the cleanup succeeds when nothing is
disturbed, and a success leaves nothing. Whatever is on the device and whatever
fails, only directories are listed and only objects of the archive, or the link
with the expected target, are unlinked, never through a link; nothing else
changes, and in a tree with an object that is not in the archive nothing does. -/
theorem cleanGeneratedStage_matches_archive (w : World) (hjournal : w.session.journal = some journal)
    (hstages : Stages journal archive) :
    (Extracted journal archive w.device → Works w.oracle → (cleanGeneratedStage w).1 = .done ()) ∧
    ((cleanGeneratedStage w).1 = .done () → Gone journal (cleanGeneratedStage w).2.view) ∧
    ∃ events, (cleanGeneratedStage w).2.trace = w.trace ++ events ∧
      (Alone events → (cleanGeneratedStage w).2.device.app = w.device.app) ∧
      (∀ path, .listed path ∈ events → ∃ identity, w.device.Holds path (.directory identity)) ∧
      (∀ path found record original, .unlinked path found record original ∈ events →
        ∃ node, w.device.Holds path node ∧ StageObject journal archive path node) ∧
      (∀ path, (cleanGeneratedStage w).2.view.nodes path = w.view.nodes path ∨
        (cleanGeneratedStage w).2.view.nodes path = none ∧
          ∃ found record original, .unlinked path found record original ∈ events) ∧
      ((∃ below node, w.device.Holds (sourcePath journal.token ++ below) node ∧
          ∀ entry ∈ stageEntries archive, entry.path = below → entry.node.kind ≠ node.kind) →
        ∀ path found record original, .unlinked path found record original ∉ events) := by
  have htracks : Tracks (Sees w.oracle journal) w.view cleanGeneratedStage _ _ _ :=
    cleanGeneratedStage_tracks hstages
  have hrun := htracks w ⟨rfl, hjournal, rfl⟩
  obtain ⟨events, htrace, -, happ⟩ := (cleanGeneratedStage_calm.keeps w).trace
  have htouched : (cleanGeneratedStage w).2.view.touched =
      w.view.touched ++ events.filterMap Event.touch := by
    simp only [World.view, htrace, List.filterMap_append]
  generalize cleanGeneratedStage w = result at hrun htrace happ htouched ⊢
  obtain ⟨outcome, w'⟩ := result
  have hends : w.view.Sweeps (StageObject journal archive) w'.view ∧
      (outcome = .done () → Gone journal w'.view) ∧
      (outcome ≠ .done () → Works w.oracle → ¬ Generated journal archive w.view) ∧
      (Valid (stageAllowed journal) w.view (sourcePath journal.token) ∨
        w.view.Sweeps (fun _ _ => False) w'.view) := by
    cases outcome with
    | done value =>
      obtain ⟨view', hsees, ⟨hsweeps, hgone⟩, hvalid⟩ := hrun
      cases hsees.view
      exact ⟨hsweeps, fun _ => hgone, fun hne => absurd rfl hne, Or.inl hvalid⟩
    | failed failure =>
      obtain ⟨view', hsees, ⟨hsweeps, hreason⟩, hvalid⟩ := hrun
      cases hsees.view
      exact ⟨hsweeps, fun hdone => (by cases hdone), fun _ => hreason, hvalid⟩
    | stopped =>
      obtain ⟨view', hsees, ⟨hsweeps, hreason⟩, hvalid⟩ := hrun
      cases hsees.view
      exact ⟨hsweeps, fun hdone => (by cases hdone), fun _ hw => (hreason hw).elim, hvalid⟩
  obtain ⟨hsweeps, hgone, hfails, hvalid⟩ := hends
  refine ⟨fun hextracted hworks => ?_, hgone, events, htrace, happ, ?_⟩
  · by_contra hne
    exact hfails hne hworks (hextracted.generated hstages)
  obtain ⟨more, hmore, hlisted, hunlinked, hnodes⟩ := hsweeps
  rw [htouched] at hmore
  have hevents := List.append_cancel_left hmore
  refine ⟨fun path hpath => ?_, fun path found record original hpath => ?_, fun path => ?_, ?_⟩
  · obtain ⟨identity, hnode⟩ := hlisted path (by rw [← hevents]; exact mem_touched.mpr ⟨_, hpath, rfl⟩)
    exact ⟨identity, holds_of_node hnode⟩
  · obtain ⟨node, hnode, hobject⟩ := hunlinked path (by
      rw [← hevents]
      exact unlinked_mem_touched.mpr ⟨found, record, original, hpath⟩)
    exact ⟨node, holds_of_node hnode, hobject⟩
  · refine (hnodes path).imp_right fun hchanged => ⟨hchanged.1, ?_⟩
    have hmem := hchanged.2
    rw [← hevents] at hmem
    exact unlinked_mem_touched.mp hmem
  · rintro ⟨below, node, hnode, hunexpected⟩ path found record original hpath
    rcases hvalid with hvalid | ⟨later, hlater, -, hnothing, -⟩
    · obtain ⟨entry, hentry, hbelow, hkind⟩ := (hstages.allowed _ _).mp (hvalid below node hnode.1)
      exact hunexpected entry hentry hbelow hkind
    · rw [htouched] at hlater
      obtain ⟨-, -, hfalse⟩ := hnothing path (by
        rw [← List.append_cancel_left hlater]
        exact unlinked_mem_touched.mpr ⟨found, record, original, hpath⟩)
      exact hfalse

end Extraction

def sampleTail : AppPath := dataContainers ++ ["00000000-0000-0000-0000-000000000000".toList]

def sampleJournal : Journal where
  token := 1
  namespaceName := []
  rsdUUID := []
  tail := sampleTail

/-- A world in which StreamingZip stopped after so many entries. -/
def stagedWorld (archive : Archive) (count : ℕ) : World where
  device := Device.extract
    { media := FileTree.empty, app := ∅, uuid := [], linkDenied := false } 0 (sourcePath 1)
    ((stageEntries archive).take count)
  disk := ∅
  session := { journal := some sampleJournal }
  namespaceName := []
  tunnelFactory := true
  oracle := fun _ => {}
  pos := 0
  uuids := 2
  stream := []
  trace := []

theorem cleanGeneratedStage_matches_archive_cut :
    ∃ archive, @xfATCBuildDirectoryZip sampleTail (unaryFoundation.plistData .zipMetadata) = some archive ∧
      (@cleanGeneratedStage unaryFoundation (stagedWorld archive 9)).1 = .done () := by
  obtain ⟨archive, harchive⟩ : ∃ archive, xfATCBuildDirectoryZip sampleTail
      (unaryFoundation.plistData .zipMetadata) = some archive := ⟨_, rfl⟩
  refine ⟨archive, harchive, ?_⟩
  have hstages : @Stages unaryFoundation sampleJournal archive :=
    @Stages.mk unaryFoundation sampleJournal archive rfl (by decide) harchive
  refine (@cleanGeneratedStage_matches_archive sampleJournal archive unaryFoundation
    (stagedWorld archive 9) rfl hstages).1 ?_ fun _ => ⟨rfl, rfl, by simp [stagedWorld]⟩
  exact ⟨_, _, 0, 9, rfl, rfl, rfl, Or.inl rfl⟩

end XitForge.Directory
