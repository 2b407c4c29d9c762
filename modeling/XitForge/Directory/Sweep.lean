import XitForge.Directory.Looks

/-!
What is seen by who removes objects of Media: the nodes that are there, without
their times, and the paths that AFC was asked to list or to unlink. A step that
reads fails only if it was disturbed or the nodes give a reason for it.
-/
namespace XitForge.Directory

open Program Program.Prog Foundation

/-- What AFC was asked to do with a path beyond describing it. -/
inductive Touch where
  | listed (path : Path)
  | unlinked (path : Path)
  deriving DecidableEq

def Event.touch : Event → Option Touch
  | .listed path => some (.listed path)
  | .unlinked path _ _ _ => some (.unlinked path)
  | _ => none

structure View where
  nodes : Path → Option Node
  touched : List Touch

def World.view (w : World) : View where
  nodes path := (w.device.media.lookup path).map Entry.node
  touched := w.trace.filterMap Event.touch

/-- No step fails or is stopped, and a read brings at least one byte. -/
def Works (oracle : ℕ → Choice) : Prop :=
  ∀ n, (oracle n).halt = false ∧ (oracle n).fault = none ∧ (oracle n).short ≠ some 0

structure Sees (oracle : ℕ → Choice) (journal : Journal) (view : View) (w : World) : Prop where
  view : w.view = view
  journal : w.session.journal = some journal
  oracle : w.oracle = oracle

namespace View

def touch (view : View) (touch : Touch) : View := { view with touched := view.touched ++ [touch] }

def remove (view : View) (path : Path) : View :=
  { view with nodes := Function.update view.nodes path none }

@[simp] theorem touch_nodes (view : View) (t : Touch) : (view.touch t).nodes = view.nodes := rfl

@[simp] theorem remove_nodes (view : View) (path : Path) :
    (view.remove path).nodes = Function.update view.nodes path none := rfl

/-- Directories were listed and objects unlinked that were there and satisfied `P`;
what is gone was unlinked, and all else is as before. -/
structure Sweeps (P : Path → Node → Prop) (view view' : View) : Prop where
  touched : ∃ more, view'.touched = view.touched ++ more ∧
    (∀ path, .listed path ∈ more → ∃ identity, view.nodes path = some (.directory identity)) ∧
    (∀ path, .unlinked path ∈ more → ∃ node, view.nodes path = some node ∧ P path node) ∧
    ∀ path, view'.nodes path = view.nodes path ∨ view'.nodes path = none ∧ .unlinked path ∈ more

variable {P : Path → Node → Prop} {view view' view'' : View}

theorem Sweeps.refl (view : View) : view.Sweeps P view :=
  ⟨[], by simp, by simp, by simp, fun _ => Or.inl rfl⟩

/-- What is still there was there before. -/
theorem Sweeps.kept (h : view.Sweeps P view') {path : Path} {node : Node}
    (hnode : view'.nodes path = some node) : view.nodes path = some node := by
  obtain ⟨more, -, -, -, hnodes⟩ := h
  rcases hnodes path with hsame | ⟨hnone, -⟩
  · rw [← hsame, hnode]
  · rw [hnone] at hnode
    cases hnode

theorem Sweeps.trans (h : view.Sweeps P view') (h' : view'.Sweeps P view'') :
    view.Sweeps P view'' := by
  obtain ⟨more, htouched, hlisted, hunlinked, hnodes⟩ := id h
  obtain ⟨later, htouched', hlisted', hunlinked', hnodes'⟩ := h'
  refine ⟨more ++ later, by rw [htouched', htouched, List.append_assoc], ?_, ?_, ?_⟩
  · intro path hpath
    rcases List.mem_append.mp hpath with hpath | hpath
    · exact hlisted path hpath
    · obtain ⟨identity, hnode⟩ := hlisted' path hpath
      exact ⟨identity, h.kept hnode⟩
  · intro path hpath
    rcases List.mem_append.mp hpath with hpath | hpath
    · exact hunlinked path hpath
    · obtain ⟨node, hnode, hmay⟩ := hunlinked' path hpath
      exact ⟨node, h.kept hnode, hmay⟩
  · intro path
    rcases hnodes' path with hsame | ⟨hnone, hmem⟩
    · rw [hsame]
      rcases hnodes path with hsame | ⟨hnone, hmem⟩
      · exact Or.inl hsame
      · exact Or.inr ⟨hnone, List.mem_append_left _ hmem⟩
    · exact Or.inr ⟨hnone, List.mem_append_right _ hmem⟩

theorem Sweeps.nodes_eq (h : view.Sweeps (fun _ _ => False) view') : view'.nodes = view.nodes := by
  obtain ⟨more, -, -, hunlinked, hnodes⟩ := h
  funext path
  rcases hnodes path with hsame | ⟨-, hmem⟩
  · exact hsame
  · obtain ⟨node, -, hfalse⟩ := hunlinked path hmem
    exact hfalse.elim

theorem Sweeps.mono {P' : Path → Node → Prop} (h : view.Sweeps P view')
    (hP : ∀ path node, P path node → P' path node) : view.Sweeps P' view' := by
  obtain ⟨more, htouched, hlisted, hunlinked, hnodes⟩ := h
  refine ⟨more, htouched, hlisted, fun path hpath => ?_, hnodes⟩
  obtain ⟨node, hnode, hnodeP⟩ := hunlinked path hpath
  exact ⟨node, hnode, hP path node hnodeP⟩

/-- How a run ends without success: undisturbed, it had this reason. -/
def Ended (oracle : ℕ → Choice) (P : Path → Node → Prop) (view : View) (E : Prop)
    (view' : View) : Prop :=
  view.Sweeps P view' ∧ (Works oracle → E)

theorem Ended.refl {oracle : ℕ → Choice} {E : Prop} (h : Works oracle → E) :
    view.Ended oracle P E view := ⟨Sweeps.refl view, h⟩

end View

section Steps

variable {oracle : ℕ → Choice} {journal : Journal} {P : Path → Node → Prop} {view : View}

/-- The rest of a run that began with another view. -/
theorem sweeps_bind {α β : Type} {start : View} {m : M α} {next : α → M β} {Q : α → View → Prop}
    {R : β → View → Prop} {E E' : Prop} (hstart : start.Sweeps P view)
    (hm : Tracks (Sees oracle journal) view m Q (view.Ended oracle P E')
      (view.Ended oracle P False)) (hreason : E' → E)
    (hnext : ∀ value view', Q value view' → Tracks (Sees oracle journal) view' (next value) R
      (start.Ended oracle P E) (start.Ended oracle P False)) :
    Tracks (Sees oracle journal) view (m >>= next) R (start.Ended oracle P E)
      (start.Ended oracle P False) :=
  Tracks.bind (hm.conseq (fun _ _ => id) (fun _ h => ⟨hstart.trans h.1, fun hw => hreason (h.2 hw)⟩)
    fun _ h => ⟨hstart.trans h.1, h.2⟩) hnext

theorem Sees.nodes {w : World} (h : Sees oracle journal view w) (path : Path) :
    view.nodes path = (w.device.media.lookup path).map Entry.node := by
  rw [← h.view]
  rfl

theorem Sees.tick {w : World} (h : Sees oracle journal view w) :
    Sees oracle journal view w.tick := by
  refine ⟨?_, h.journal, h.oracle⟩
  obtain ⟨app, happ⟩ := appear_app w.choice.appeared w.device
  have hunseen : (w.choice.appeared.map fun created : AppPath × Entry =>
      Event.appeared created.1 created.2).filterMap Event.touch = [] := by
    simp [List.filterMap_map, Function.comp_def, Event.touch]
  rw [← h.view]
  simp [World.view, World.tick, happ, List.filterMap_append, hunseen]

theorem query_tracks {α : Type} {answer : Choice → World → Except Failure α} {Q : α → Prop}
    {E : Prop}
    (hok : ∀ c w value, Sees oracle journal view w → (Works oracle → c.short ≠ some 0) →
      answer c w = .ok value → Q value)
    (herror : ∀ c w failure, Sees oracle journal view w → answer c w = .error failure → E) :
    Tracks (Sees oracle journal) view (query answer) (fun value view' => view' = view ∧ Q value)
      (view.Ended oracle P E) (view.Ended oracle P False) := by
  intro w hw
  have htick : Sees oracle journal view w.tick := hw.tick
  have hchoice : w.choice = oracle w.pos := by rw [World.choice, hw.oracle]
  unfold query
  dsimp only
  split
  · rename_i hhalt
    refine ⟨view, htick, View.Ended.refl fun hworks => ?_⟩
    rw [hchoice, (hworks w.pos).1] at hhalt
    exact absurd hhalt Bool.false_ne_true
  · split
    · rename_i failure hfault
      refine ⟨view, htick, View.Ended.refl fun hworks => ?_⟩
      rw [hchoice, (hworks w.pos).2.1] at hfault
      cases hfault
    · split
      · rename_i value hvalue
        refine ⟨view, htick, rfl, hok _ _ _ htick (fun hworks => ?_) hvalue⟩
        rw [hchoice]
        exact (hworks w.pos).2.2
      · rename_i failure hfailure
        exact ⟨view, htick, View.Ended.refl fun _ => herror _ _ _ htick hfailure⟩

/-- A question whose answer nothing depends on. -/
theorem ask_tracks {α : Type} {answer : Choice → World → Except Failure α}
    (herror : ∀ c w failure, answer c w ≠ .error failure) :
    Tracks (Sees oracle journal) view (query answer) (fun _ view' => view' = view)
      (view.Ended oracle P False) (view.Ended oracle P False) :=
  Tracks.post (query_tracks (Q := fun _ => True) (fun _ _ _ _ _ _ => trivial)
    fun c w failure _ h => herror c w failure h) fun _ _ h => h.1

theorem asks_tracks {α : Type} {read : World → α} {Q : α → Prop} {F C : View → Prop}
    (h : ∀ w, Sees oracle journal view w → Q (read w)) :
    Tracks (Sees oracle journal) view (asks read) (fun value view' => view' = view ∧ Q value) F C :=
  fun w hw => ⟨view, hw, rfl, h w hw⟩

theorem theJournal_tracks {F C : View → Prop} :
    Tracks (Sees oracle journal) view theJournal
      (fun found view' => view' = view ∧ found = journal) F C := by
  intro w hw
  rw [theJournal_some w journal hw.journal]
  exact ⟨view, hw, rfl, rfl⟩

theorem require_tracks {failure : Failure} {condition : Bool} {E : Prop} {C : View → Prop}
    (h : condition = false → E) :
    Tracks (Sees oracle journal) view (require failure condition)
      (fun _ view' => view' = view ∧ condition = true) (view.Ended oracle P E) C := by
  unfold require
  refine Tracks.ite (fun hcondition => Tracks.pure ⟨rfl, hcondition⟩) fun hcondition => ?_
  exact Tracks.fail (View.Ended.refl fun _ => h (by simpa using hcondition))

theorem the_tracks {α : Type} {failure : Failure} {value : Option α} {E : Prop}
    {C : View → Prop} (h : value = none → E) :
    Tracks (Sees oracle journal) view (the failure value)
      (fun found view' => view' = view ∧ value = some found) (view.Ended oracle P E) C := by
  cases value with
  | none => exact Tracks.fail (View.Ended.refl fun _ => h rfl)
  | some found => exact Tracks.pure ⟨rfl, rfl⟩

theorem record_tracks {event : Event} {t : Touch} {F C : View → Prop}
    (h : event.touch = some t) :
    Tracks (Sees oracle journal) view (record event) (fun _ view' => view' = view.touch t) F C := by
  intro w hw
  refine ⟨view.touch t, ⟨?_, hw.journal, hw.oracle⟩, rfl⟩
  rw [← hw.view]
  simp [World.view, World.log, View.touch, List.filterMap_append, h]

theorem record_unseen {event : Event} {F C : View → Prop} (h : event.touch = none) :
    Tracks (Sees oracle journal) view (record event) (fun _ view' => view' = view) F C := by
  intro w hw
  refine ⟨view, ⟨?_, hw.journal, hw.oracle⟩, rfl⟩
  rw [← hw.view]
  simp [World.view, World.log, List.filterMap_append, h]

theorem writeAtomic_tracks (name : LocalName) (stored : Stored) :
    Tracks (Sees oracle journal) view (writeAtomic name stored) (fun _ view' => view' = view)
      (view.Ended oracle P False) (view.Ended oracle P False) := by
  intro w hw
  have htick : Sees oracle journal view w.tick := hw.tick
  have hwritten : Sees oracle journal view
      ((w.tick.withDisk (w.tick.disk.insert name stored)).log (.wrote name stored)) := by
    refine ⟨?_, htick.journal, htick.oracle⟩
    rw [← htick.view]
    simp [World.view, World.log, World.withDisk, List.filterMap_append, Event.touch]
  have hchoice : w.choice = oracle w.pos := by rw [World.choice, hw.oracle]
  have hleft : Sees oracle journal view
      (if w.choice.effect then
        ((w.tick.withDisk (w.tick.disk.insert name stored)).log (.wrote name stored)) else w.tick) := by
    split
    · exact hwritten
    · exact htick
  unfold writeAtomic act actPartly
  dsimp only
  split
  · rename_i hhalt
    refine ⟨view, hleft, View.Ended.refl fun hworks => ?_⟩
    rw [hchoice, (hworks w.pos).1] at hhalt
    exact absurd hhalt Bool.false_ne_true
  · split
    · rename_i failure hfault
      refine ⟨view, hleft, View.Ended.refl fun hworks => ?_⟩
      rw [hchoice, (hworks w.pos).2.1] at hfault
      cases hfault
    · exact ⟨view, hwritten, rfl⟩

theorem saveJournal_tracks :
    Tracks (Sees oracle journal) view saveJournal (fun _ view' => view' = view)
      (view.Ended oracle P False) (view.Ended oracle P False) := by
  unfold saveJournal
  refine Tracks.bind theJournal_tracks ?_
  intro found _ h
  obtain ⟨rfl, rfl⟩ := h
  refine Tracks.bind (asks_tracks (Q := fun _ => True) fun _ _ => trivial) ?_
  intro name _ h
  obtain ⟨rfl, -⟩ := h
  refine Tracks.bind (writeAtomic_tracks name _) ?_
  intro _ _ heq
  subst heq
  unfold when
  refine Tracks.ite (fun _ => ?_) fun _ => Tracks.pure rfl
  refine Tracks.bind (ask_tracks (by simp)) ?_
  intro _ _ heq
  subst heq
  exact ask_tracks (by simp)

end Steps

section Reading

variable {oracle : ℕ → Choice} {journal : Journal} {P : Path → Node → Prop} {view : View}
  {path : Path}

/-- A path that no relocated link leads away from Media. -/
def Direct (path : Path) : Prop := ∀ device : Device, device.resolve path = some (.media path)

theorem direct_source (token : Token) (below : Path) : Direct (sourcePath token ++ below) := by
  intro device
  unfold Device.resolve
  split
  · rename_i heq
    cases heq
  · rfl

theorem direct_link (token : Token) : Direct (linkPath token) := fun _ => rfl

theorem Direct.lookup (h : Direct path) (device : Device) :
    device.lookup path = device.media.lookup path := by
  rw [Device.lookup, h device]
  rfl

/-- A description, or its absence, and the node it is about. -/
def Describes (node : Option Node) (row : Option FileInfo) : Prop :=
  ∃ entry : Option Entry, entry.map Entry.node = node ∧ entry.map Entry.info = row

theorem Describes.none {node : Option Node} (h : Describes node none) : node = none := by
  obtain ⟨entry, rfl, hrow⟩ := h
  rw [Option.map_eq_none_iff.mp hrow]
  rfl

theorem Describes.some {node : Option Node} {row : FileInfo} (h : Describes node (some row)) :
    ∃ entry : Entry, node = some entry.node ∧ row = entry.info := by
  obtain ⟨entry, rfl, hrow⟩ := h
  obtain ⟨found, rfl, hinfo⟩ := Option.map_eq_some_iff.mp hrow
  exact ⟨found, rfl, hinfo.symm⟩

theorem afcGetFileInfo_tracks (hpath : Direct path) :
    Tracks (Sees oracle journal) view (afcGetFileInfo path)
      (fun row view' => view' = view ∧ Describes (view.nodes path) row)
      (view.Ended oracle P False) (view.Ended oracle P False) := by
  unfold afcGetFileInfo
  refine Tracks.bind (query_tracks (Q := fun answer => (answer = .missing ∧ view.nodes path = none) ∨
    ∃ entry : Entry, answer = .found entry.info ∧ view.nodes path = some entry.node) ?_ (by simp)) ?_
  · intro c w answer hw _ hanswer
    cases hanswer
    unfold Device.answer
    rw [hpath, hpath.lookup, hw.nodes]
    cases hlookup : w.device.media.lookup path with
    | none => exact Or.inl ⟨rfl, rfl⟩
    | some entry => exact Or.inr ⟨entry, rfl, rfl⟩
  · intro answer _ h
    obtain ⟨rfl, hanswer⟩ := h
    refine Tracks.bind (record_unseen rfl) ?_
    intro _ _ heq
    subst heq
    rcases hanswer with ⟨rfl, hnode⟩ | ⟨entry, rfl, hnode⟩
    · exact Tracks.pure ⟨rfl, none, hnode.symm, rfl⟩
    · exact Tracks.pure ⟨rfl, some entry, hnode.symm, rfl⟩

theorem info_tracks (hpath : Direct path) :
    Tracks (Sees oracle journal) view (info path)
      (fun row view' => view' = view ∧ Describes (view.nodes path) row)
      (view.Ended oracle P False) (view.Ended oracle P False) := by
  unfold info
  refine Tracks.bind (afcGetFileInfo_tracks hpath) ?_
  intro row _ h
  obtain ⟨rfl, hrow⟩ := h
  cases row with
  | none => exact Tracks.pure ⟨rfl, hrow⟩
  | some found =>
    refine Tracks.bind (ask_tracks (by simp)) ?_
    intro _ _ heq
    subst heq
    exact Tracks.pure ⟨rfl, hrow⟩

/-- The names a directory shows. -/
def View.shows (view : View) (path : Path) (name : Name) : Prop :=
  (view.nodes (path ++ [name])).isSome = true

/-- Only directories show names. -/
def View.Closed (view : View) : Prop :=
  ∀ path name, view.shows path name → path = [] ∨ ∃ identity, view.nodes path = some (.directory identity)

theorem directory_of_isDirectory {entry : Entry} (h : Inode.isDirectory entry = true) :
    ∃ identity, entry.node = .directory identity := by
  obtain ⟨node, creation, mtime⟩ := entry
  cases node with
  | directory identity => exact ⟨identity, rfl⟩
  | file bytes => cases h
  | link target => cases h
  | other => cases h

theorem Sees.closed {w : World} (h : Sees oracle journal view w) : view.Closed := by
  intro path name hshows
  rw [View.shows, h.nodes, Option.isSome_map, Option.isSome_iff_exists] at hshows
  obtain ⟨entry, hentry⟩ := hshows
  rcases FileTree.lookup_child _ _ _ _ hentry with hroot | ⟨parent, hparent, hisdir⟩
  · exact Or.inl hroot
  · right
    obtain ⟨identity, hnode⟩ := directory_of_isDirectory hisdir
    exact ⟨identity, by rw [h.nodes, hparent, Option.map_some, hnode]⟩

theorem tracks_closed {α : Type} {m : M α} {Q : α → View → Prop} {F C : View → Prop}
    (h : view.Closed → Tracks (Sees oracle journal) view m Q F C) :
    Tracks (Sees oracle journal) view m Q F C := fun w hw => h hw.closed w hw

theorem View.Closed.child (h : view.Closed) (path : Path) (name : Name) :
    ∀ (rest : Path) (node : Node), view.nodes (path ++ name :: rest) = some node →
      view.shows path name ∧
        (rest ≠ [] → ∃ identity, view.nodes (path ++ [name]) = some (.directory identity)) := by
  intro rest
  induction rest using List.reverseRecOn with
  | nil =>
    intro node hnode
    exact ⟨by rw [View.shows, hnode]; rfl, fun hne => absurd rfl hne⟩
  | append_singleton rest last ih =>
    intro node hnode
    have hshows : view.shows (path ++ name :: rest) last := by
      rw [View.shows, List.append_assoc, List.cons_append, hnode]
      rfl
    rcases h _ _ hshows with hroot | ⟨identity, hparent⟩
    · exact absurd hroot (by simp)
    · obtain ⟨hshown, hdirectory⟩ := ih _ hparent
      refine ⟨hshown, fun _ => ?_⟩
      by_cases hrest : rest = []
      · rw [hrest] at hparent
        exact ⟨identity, hparent⟩
      · exact hdirectory hrest

theorem View.Sweeps.listed {identity : ℕ} (hnode : view.nodes path = some (.directory identity)) :
    view.Sweeps P (view.touch (.listed path)) := by
  refine ⟨[.listed path], rfl, ?_, by simp, fun _ => Or.inl rfl⟩
  intro other hother
  simp only [List.mem_singleton, Touch.listed.injEq] at hother
  exact ⟨identity, by rw [hother, hnode]⟩

theorem names_tracks {identity : ℕ} (hnode : view.nodes path = some (.directory identity)) :
    Tracks (Sees oracle journal) view (names path)
      (fun found view' => view' = view.touch (.listed path) ∧ ∀ name, name ∈ found ↔ view.shows path name)
      (view.Ended oracle P (∃ name, view.shows path name ∧ xfatcComponent name.text = false))
      (view.Ended oracle P False) := by
  have hlisted := View.Sweeps.listed (P := P) hnode
  unfold names
  refine sweeps_bind (View.Sweeps.refl view) (record_tracks (t := .listed path) rfl) id ?_
  intro _ _ heq
  subst heq
  refine sweeps_bind hlisted (query_tracks (E := False)
    (Q := fun found => ∀ name, name ∈ found ↔ view.shows path name) ?_ ?_) False.elim ?_
  · intro c w found hw _ hfound name
    have hdirectory := hw.nodes path
    rw [View.touch_nodes, hnode] at hdirectory
    obtain ⟨⟨node, creation, mtime⟩, hlookup, hnode'⟩ := Option.map_eq_some_iff.mp hdirectory.symm
    cases hnode'
    simp only [Device.listDirectory, hlookup, Except.ok.injEq] at hfound
    rw [← hfound, FileTree.mem_names, View.shows]
    have hchild := hw.nodes (path ++ [name])
    rw [View.touch_nodes] at hchild
    rw [hchild, Option.isSome_map]
  · intro c w failure hw hfailure
    have hdirectory := hw.nodes path
    rw [View.touch_nodes, hnode] at hdirectory
    obtain ⟨⟨node, creation, mtime⟩, hlookup, hnode'⟩ := Option.map_eq_some_iff.mp hdirectory.symm
    cases hnode'
    simp only [Device.listDirectory, hlookup] at hfailure
    cases hfailure
  · intro found _ h
    obtain ⟨rfl, hfound⟩ := h
    refine sweeps_bind hlisted (require_tracks (E := ∃ name, view.shows path name ∧
      xfatcComponent name.text = false) ?_) id ?_
    · intro hbad
      obtain ⟨name, hname, htext⟩ := List.all_eq_false.mp hbad
      exact ⟨name, (hfound name).mp hname, by simpa using htext⟩
    · intro _ _ h
      obtain ⟨rfl, -⟩ := h
      exact Tracks.pure ⟨rfl, hfound⟩

/-- The reads of a file that is `bytes`, of which `out` has been read. -/
theorem readChunks_tracks (hpath : Direct path) {bytes : Bytes}
    (hnode : view.nodes path = some (.file bytes)) :
    ∀ (fuel : ℕ) (out : Bytes), out <+: bytes → bytes.length ≤ out.length + fuel →
      Tracks (Sees oracle journal) view (readChunks path bytes.length fuel out)
        (fun result view' => view' = view ∧ result <+: bytes ∧ bytes.length ≤ result.length)
        (view.Ended oracle P False) (view.Ended oracle P False)
  | 0, out, hout, hfuel => Tracks.pure ⟨rfl, hout, by simpa using hfuel⟩
  | fuel + 1, out, hout, hfuel => by
    unfold readChunks
    refine Tracks.ite (fun hmore => ?_) fun hdone => Tracks.pure ⟨rfl, hout, by omega⟩
    refine Tracks.bind (ask_tracks (by simp)) ?_
    intro _ view' hview
    rw [hview]
    have hread : ∀ w, Sees oracle journal view w → ∀ count,
        w.device.readFrom path out.length count = some ((bytes.drop out.length).take count) := by
      intro w hw count
      have hfile := hw.nodes path
      rw [hnode] at hfile
      obtain ⟨⟨node, creation, mtime⟩, hlookup, hnode'⟩ := Option.map_eq_some_iff.mp hfile.symm
      cases hnode'
      rw [Device.readFrom, hpath.lookup, hlookup]
    refine Tracks.bind (query_tracks (E := False) (Q := fun chunk => out ++ chunk <+: bytes ∧
      (Works oracle → chunk ≠ [])) ?_ ?_) ?_
    · intro c w chunk hw hshort hchunk
      rw [hread w hw] at hchunk
      cases hchunk
      have hbytes : out ++ bytes.drop out.length = bytes := List.prefix_iff_eq_append.mp hout
      refine ⟨?_, fun hworks hempty => ?_⟩
      · conv_rhs => rw [← hbytes]
        exact (List.prefix_append_right_inj out).mpr (List.take_prefix _ _)
      · have hlength := congrArg List.length hempty
        have hpositive : 0 < c.short.getD (min 65536 (bytes.length - out.length)) := by
          cases hgiven : c.short with
          | none => simp only [Option.getD_none]; omega
          | some count =>
            have hcount : count ≠ 0 := fun hzero => hshort hworks (by rw [hgiven, hzero])
            simp only [Option.getD_some]
            omega
        simp only [List.length_take, List.length_drop, List.length_nil] at hlength
        omega
    · intro c w failure hw hfailure
      rw [hread w hw] at hfailure
      cases hfailure
    · intro chunk view' hgiven'
      obtain ⟨hview, hprefix, hchunk⟩ := hgiven'
      rw [hview]
      refine Tracks.ite (fun hempty => ?_) fun hsome => ?_
      · exact Tracks.fail (View.Ended.refl fun hworks => hchunk hworks (List.isEmpty_iff.mp hempty))
      · refine readChunks_tracks hpath hnode fuel (out ++ chunk) hprefix ?_
        have hpositive := List.length_pos_of_ne_nil fun h => hsome (List.isEmpty_iff.mpr h)
        rw [List.length_append]
        omega

theorem readSnapshot_tracks (hpath : Direct path) {bytes : Bytes}
    (hnode : view.nodes path = some (.file bytes)) :
    Tracks (Sees oracle journal) view (readSnapshot path bytes.length)
      (fun result view' => view' = view ∧ result = bytes)
      (view.Ended oracle P (128 * 1024 * 1024 < bytes.length)) (view.Ended oracle P False) := by
  have hself := View.Sweeps.refl (P := P) view
  unfold readSnapshot
  refine sweeps_bind hself (require_tracks (E := 128 * 1024 * 1024 < bytes.length) ?_) id ?_
  · intro hlarge
    simpa using hlarge
  intro _ _ h
  obtain ⟨rfl, -⟩ := h
  refine sweeps_bind hself (query_tracks (E := False) (Q := fun _ => True)
    (fun _ _ _ _ _ _ => trivial) ?_) False.elim ?_
  · intro c w failure hw hfailure
    have hfile := hw.nodes path
    rw [hnode] at hfile
    obtain ⟨⟨node, creation, mtime⟩, hlookup, hnode'⟩ := Option.map_eq_some_iff.mp hfile.symm
    cases hnode'
    rw [Device.readFrom, hpath.lookup, hlookup] at hfailure
    cases hfailure
  intro _ _ h
  obtain ⟨rfl, -⟩ := h
  refine sweeps_bind hself (readChunks_tracks hpath hnode _ [] (List.nil_prefix) (by simp)) False.elim ?_
  intro result _ h
  obtain ⟨rfl, hprefix, hlength⟩ := h
  have hresult : result = bytes := hprefix.eq_of_length_le hlength
  refine sweeps_bind hself (ask_tracks (by simp)) False.elim ?_
  intro _ _ heq
  subst heq
  refine sweeps_bind hself (require_tracks (E := False) ?_) False.elim ?_
  · intro hcut
    rw [hresult] at hcut
    simp at hcut
  · intro _ _ h
    obtain ⟨rfl, -⟩ := h
    exact Tracks.pure ⟨rfl, hresult⟩

end Reading

section Removing

variable {oracle : ℕ → Choice} {journal : Journal} {P : Path → Node → Prop} {view : View}
  {path : Path}

theorem dropAt_nodes {device device' : Device} {now : ℕ}
    (h : device.dropAt now (.media path) = some device') (other : Path) :
    (device'.media.lookup other).map Entry.node =
      if other = path then none else (device.media.lookup other).map Entry.node := by
  obtain ⟨media, hmedia, rfl⟩ := Option.map_eq_some_iff.mp h
  rw [FileTree.lookup_remove hmedia]
  split
  · rfl
  · split
    · rw [Option.map_map]
      rfl
    · rfl

theorem putAt_nodes {device device' : Device} {now : ℕ} {entry : Entry}
    (h : device.putAt now entry (.media path) = some device') (other : Path) :
    (device'.media.lookup other).map Entry.node =
      if other = path then some entry.node else (device.media.lookup other).map Entry.node := by
  obtain ⟨media, hmedia, rfl⟩ := Option.map_eq_some_iff.mp h
  rw [FileTree.lookup_place hmedia]
  split
  · rfl
  · split
    · rw [Option.map_map]
      rfl
    · rfl

theorem Sees.removePath {w : World} {now : ℕ} {device : Device} (hw : Sees oracle journal view w)
    (h : w.device.removePath now path = some device) :
    Sees oracle journal (view.remove path) (w.withDevice device) := by
  refine ⟨?_, hw.journal, hw.oracle⟩
  rw [← hw.view]
  unfold World.view View.remove
  congr 1
  funext other
  rw [Function.update_apply]
  exact dropAt_nodes h other

/-- A removal that cannot be made finds nothing, or something below. -/
theorem Sees.cannotRemove {w : World} {now : ℕ} (hw : Sees oracle journal view w)
    (h : w.device.removePath now path = none) :
    view.nodes path = none ∨ ∃ name, view.shows path name := by
  have hnone : (w.device.media.remove now path).isSome = false := by
    rw [Option.map_eq_none_iff.mp h]
    rfl
  by_cases hlookup : (w.device.media.lookup path).isSome = true
  · right
    have hnames : w.device.media.names path ≠ [] := by
      intro hempty
      have hsome := (FileTree.remove_isSome _ now path).mpr ⟨hlookup, hempty⟩
      rw [hnone] at hsome
      cases hsome
    obtain ⟨name, hname⟩ := List.exists_mem_of_ne_nil _ hnames
    refine ⟨name, ?_⟩
    rw [View.shows, hw.nodes, Option.isSome_map]
    exact (FileTree.mem_names _ _ _).mp hname
  · left
    rw [hw.nodes, Option.not_isSome_iff_eq_none.mp hlookup]
    rfl

theorem View.Sweeps.unlink {node : Node} (hnode : view.nodes path = some node)
    (hmay : P path node) : view.Sweeps P (view.touch (.unlinked path)) := by
  refine ⟨[.unlinked path], rfl, by simp, ?_, fun _ => Or.inl rfl⟩
  intro other hother
  simp only [List.mem_singleton, Touch.unlinked.injEq] at hother
  exact ⟨node, by rw [hother, hnode], by rw [hother]; exact hmay⟩

theorem View.Sweeps.remove {node : Node} (hnode : view.nodes path = some node)
    (hmay : P path node) : view.Sweeps P ((view.touch (.unlinked path)).remove path) := by
  refine ⟨[.unlinked path], rfl, by simp, ?_, fun other => ?_⟩
  · intro other hother
    simp only [List.mem_singleton, Touch.unlinked.injEq] at hother
    exact ⟨node, by rw [hother, hnode], by rw [hother]; exact hmay⟩
  · by_cases hother : other = path
    · right
      rw [hother]
      exact ⟨Function.update_self _ _ _, List.mem_singleton.mpr rfl⟩
    · left
      exact Function.update_of_ne hother _ _

/-- What the request of `afcRemovePath` does to the device. -/
def removal (path : Path) (w : World) : Except Failure World :=
  match w.device.removePath w.pos path with
  | some device => .ok (w.withDevice device)
  | none => .error silent

theorem removal_cases (path : Path) (w : World) :
    (∃ device, w.device.removePath w.pos path = some device ∧
        removal path w = .ok (w.withDevice device)) ∨
      w.device.removePath w.pos path = none ∧ removal path w = .error silent := by
  unfold removal
  cases w.device.removePath w.pos path with
  | none => exact .inr ⟨rfl, rfl⟩
  | some device => exact .inl ⟨device, rfl, rfl⟩

theorem afcRemovePath_tracks {node : Node} (hnode : view.nodes path = some node)
    (hmay : P path node) :
    Tracks (Sees oracle journal) view (afcRemovePath path)
      (fun _ view' => view' = (view.touch (.unlinked path)).remove path)
      (view.Ended oracle P (∃ name, view.shows path name)) (view.Ended oracle P False) := by
  have hasked := View.Sweeps.unlink (P := P) hnode hmay
  have hgone := View.Sweeps.remove (P := P) hnode hmay
  unfold afcRemovePath
  refine Tracks.bind (Q := fun _ view' => view' = view.touch (.unlinked path)) ?_ ?_
  · intro w hw
    refine ⟨view.touch (.unlinked path), ⟨?_, hw.journal, hw.oracle⟩, rfl⟩
    rw [← hw.view]
    simp [World.view, World.log, View.touch, List.filterMap_append, Event.touch]
  rintro _ _ rfl w hw
  have htick : Sees oracle journal (view.touch (.unlinked path)) w.tick := hw.tick
  have hchoice : w.choice = oracle w.pos := by rw [World.choice, hw.oracle]
  -- an interrupted request leaves the object there or takes it away
  obtain ⟨view', hsees, hsweeps⟩ : ∃ view', Sees oracle journal view'
      (if w.choice.effect then (removal path w.tick).toOption.getD w.tick else w.tick) ∧
        view.Sweeps P view' := by
    split
    · rcases removal_cases path w.tick with ⟨device, hremoved, heq⟩ | ⟨-, heq⟩
      · rw [heq]
        exact ⟨_, htick.removePath hremoved, hgone⟩
      · rw [heq]
        exact ⟨_, htick, hasked⟩
    · exact ⟨_, htick, hasked⟩
  show Ends _ _ _ (act (removal path) w)
  unfold act actPartly
  dsimp only
  split
  · rename_i hhalt
    refine ⟨view', hsees, hsweeps, fun hworks => ?_⟩
    rw [hchoice, (hworks w.pos).1] at hhalt
    exact absurd hhalt Bool.false_ne_true
  · split
    · rename_i failure hfault
      refine ⟨view', hsees, hsweeps, fun hworks => ?_⟩
      rw [hchoice, (hworks w.pos).2.1] at hfault
      cases hfault
    · rcases removal_cases path w.tick with ⟨device, hremoved, heq⟩ | ⟨hremoved, heq⟩
      · rw [heq]
        exact ⟨_, htick.removePath hremoved, rfl⟩
      · rw [heq]
        refine ⟨_, htick, hasked, fun _ => ?_⟩
        rcases htick.cannotRemove hremoved with hnone | hchild
        · rw [View.touch_nodes, hnode] at hnone
          cases hnone
        · exact hchild

/-- An object of the expected kind is gone afterwards, and nothing else changed. -/
theorem removeOwned_tracks (hpath : Direct path) (kind : Kind)
    (hmay : ∀ node, view.nodes path = some node → node.kind = kind → P path node) :
    Tracks (Sees oracle journal) view (removeOwned path kind)
      (fun _ view' => view.Sweeps P view' ∧ view'.nodes = Function.update view.nodes path none)
      (view.Ended oracle P ((∃ node, view.nodes path = some node ∧ node.kind ≠ kind) ∨
        ∃ name, view.shows path name))
      (view.Ended oracle P False) := by
  have hself := View.Sweeps.refl (P := P) view
  unfold removeOwned
  refine sweeps_bind hself (info_tracks hpath) False.elim ?_
  intro row view' ⟨hview, hrow⟩
  rw [hview]
  cases row with
  | none =>
    refine Tracks.pure ⟨hself, ?_⟩
    exact (Function.update_eq_self_iff.mpr hrow.none.symm).symm
  | some row =>
    obtain ⟨entry, hnode, rfl⟩ := hrow.some
    refine sweeps_bind hself (require_tracks
      (E := ∃ node, view.nodes path = some node ∧ node.kind ≠ kind) ?_) Or.inl ?_
    · intro hkind
      refine ⟨entry.node, hnode, fun heq => ?_⟩
      rw [show entry.info.kind = entry.node.kind from rfl, heq] at hkind
      simp at hkind
    intro _ _ h
    obtain ⟨rfl, hkind⟩ := h
    have hentry := hmay entry.node hnode (beq_iff_eq.mp hkind)
    refine sweeps_bind hself saveJournal_tracks False.elim ?_
    intro _ _ hsame
    subst hsame
    refine sweeps_bind hself (afcRemovePath_tracks hnode hentry) Or.inr ?_
    intro _ _ hsame
    subst hsame
    have hgone := View.Sweeps.remove (P := P) hnode hentry
    refine sweeps_bind hgone (info_tracks hpath) False.elim ?_
    intro left _ h
    obtain ⟨rfl, hleft⟩ := h
    have hmissing : left = none := by
      cases left with
      | none => rfl
      | some row =>
        obtain ⟨other, hother, -⟩ := hleft.some
        rw [View.remove_nodes, Function.update_self] at hother
        cases hother
    rw [hmissing]
    exact Tracks.pure ⟨hgone, rfl⟩

end Removing

end XitForge.Directory
