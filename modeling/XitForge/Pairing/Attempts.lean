import XitForge.Pairing.OnDevice

/-!
The attempts of an on-device pairing. From its start to its finish an attempt is the current
one, and it is in one place: on the native queue, or in the block that finishes it. What
belongs to it meets its own state, except the block of a stop, which may come late.
-/
namespace XitForge.Pairing.OnDevice

open StepRuns

/-- The attempt that a block finishes. -/
def Block.finishes : Block → Option ℕ
  | .finish attempt _ _ => some attempt
  | _ => none

namespace Point

/-- `_listenerFD` is set. -/
def listens : Point → Bool
  | .publishing _ _ | .waiting | .selecting | .adopting | .closing _ _ => true
  | _ => false

/-- `_peerFD` is set. -/
def peers : Point → Bool
  | .closing peer _ | .checking peer _ | .releasing peer _ _ => peer
  | .accepting | .stopping | .committing _ _ => true
  | _ => false

end Point

/-- What may come after an event: no second completion of an attempt, and after a stop of an
attempt was accepted neither its record nor a completion with a URL. -/
def Follows : Event → Event → Prop
  | .completed first _ _ _, .completed second _ _ _ => first ≠ second
  | .accepted first, .saved second => first ≠ second
  | .accepted first, .completed second _ url _ => first = second → url = false
  | _, _ => True

namespace State

/-- Where an attempt is that is not finished. -/
def places (s : State) : List ℕ :=
  s.native ++ (s.task.map Prod.fst).toList ++ s.main.filterMap Block.finishes

/-- The attempts that have set something up on the main thread. -/
def holders (s : State) : List ℕ :=
  s.advertisement.toList ++ s.deadline.toList ++ s.ownsAudioSession.toList ++ s.observer.toList ++
    s.backgroundTask.toList

/-- A property of the place of an attempt on the native queue. -/
def fieldOf (s : State) (holds : Point → Bool) : Option ℕ :=
  s.task.bind fun task => if holds task.2 then some task.1 else none

/-- The fields are of the current attempt, and the log is in order. -/
structure Kept (s : State) : Prop where
  listener : s.listenerFD = s.fieldOf Point.listens
  peer : s.peerFD = s.fieldOf Point.peers
  holders : ∀ attempt ∈ s.holders, s.running = true ∧ attempt = s.attempt
  active : s.active = if s.running then some s.attempt else none
  order : s.log.Pairwise Follows
  completed : ∀ captured attempt url error, .completed captured attempt url error ∈ s.log →
    captured = attempt ∧ attempt ≤ s.attempt ∧ (attempt = s.attempt → s.running = false)
  accepted : ∀ attempt, .accepted attempt ∈ s.log →
    attempt ≤ s.attempt ∧ (attempt = s.attempt → s.cancelled = true)
  ended : ∀ attempt, .ended attempt ∈ s.log → attempt ∈ s.main.filterMap Block.finishes ∨
    ∃ url error, .completed attempt attempt url error ∈ s.log

/-- What holds in every state. -/
structure Sound (s : State) : Prop extends Kept s where
  places : s.places = if s.running then [s.attempt] else []

/-- Everything that was done was done to the state of the same attempt. -/
def Own (s : State) : Prop := ∀ act ∈ s.acts, act.attempt = act.target

/-- A block of a stop runs while its attempt is the current one, or with nothing advertised. -/
def StopsInTime (s : State) : Tick → Prop
  | .main _ =>
    match s.main with
    | .stop attempt :: _ => attempt = s.attempt ∨ s.advertisement = none
    | _ => True
  | _ => True

/-- The completions are of their attempts and come once, a stopped attempt leaves nothing
behind, and nothing acts on another attempt. -/
structure Isolated (s : State) : Prop where
  captured : ∀ captured attempt url error, .completed captured attempt url error ∈ s.log →
    captured = attempt
  ended : ∀ attempt, .ended attempt ∈ s.log → attempt ∈ s.main.filterMap Block.finishes ∨
    ∃ url error, .completed attempt attempt url error ∈ s.log
  order : s.log.Pairwise Follows
  own : s.Own

section Fields

variable {s s' : State}

theorem own_append {acts : List Act} (h : ∀ act ∈ acts, act.attempt = act.target) :
    (s.act acts).Own ↔ s.Own := by
  unfold Own act
  constructor
  · exact fun hown act hact => hown act (List.mem_append_left _ hact)
  · intro hown act hact
    rcases List.mem_append.mp hact with hact | hact
    · exact hown act hact
    · exact h act hact

theorem mem_actOn {attempt : ℕ} {field : Option ℕ} {deed : Deed} {act : Act}
    (h : act ∈ actOn attempt field deed) : ∃ target ∈ field, act = ⟨attempt, target, deed⟩ := by
  cases field with
  | none => cases h
  | some target => exact ⟨target, rfl, List.mem_singleton.mp h⟩

/-- An attempt that acts on what only it has set. -/
theorem own_actOn {attempt : ℕ} {field : Option ℕ} {deed : Deed}
    (h : ∀ target ∈ field, target = attempt) :
    ∀ act ∈ actOn attempt field deed, act.attempt = act.target := by
  intro act hact
  obtain ⟨target, htarget, rfl⟩ := mem_actOn hact
  exact (h target htarget).symm

end Fields

section Places

variable {s : State}

/-- An attempt that is somewhere is the current one. -/
theorem Sound.of_places (h : s.Sound) (hne : s.places ≠ []) :
    s.running = true ∧ s.places = [s.attempt] := by
  have hplaces := h.places
  cases hrunning : s.running with
  | false =>
    rw [hrunning] at hplaces
    exact absurd hplaces hne
  | true =>
    rw [hrunning] at hplaces
    exact ⟨rfl, hplaces⟩

/-- The attempt that runs on the native queue is the current one, and is nowhere else. -/
theorem Sound.of_task {attempt : ℕ} {point : Point} (h : s.Sound)
    (htask : s.task = some (attempt, point)) : s.running = true ∧ attempt = s.attempt ∧
      s.native = [] ∧ s.main.filterMap Block.finishes = [] := by
  obtain ⟨hrunning, hplaces⟩ := h.of_places (by simp [State.places, htask])
  rw [State.places, htask] at hplaces
  refine ⟨hrunning, ?_⟩
  simpa [List.append_eq_singleton_iff, and_assoc, and_comm, and_left_comm] using hplaces

/-- The attempt that is about to be finished is the current one, and is nowhere else. -/
theorem Sound.of_finish {attempt : ℕ} {url : Bool} {error : Option PairError} {rest : List Block}
    (h : s.Sound) (hmain : s.main = .finish attempt url error :: rest) :
    s.running = true ∧ attempt = s.attempt ∧ s.native = [] ∧ s.task = none ∧
      rest.filterMap Block.finishes = [] := by
  have hfinishes : (Block.finish attempt url error).finishes = some attempt := rfl
  obtain ⟨hrunning, hplaces⟩ :=
    h.of_places (by simp [State.places, hmain, List.filterMap_cons_some hfinishes])
  rw [State.places, hmain, List.filterMap_cons_some hfinishes] at hplaces
  simp [List.append_eq_singleton_iff, -List.filterMap_eq_nil_iff] at hplaces
  obtain ⟨hnative, htask, hattempt, hrest⟩ := hplaces
  exact ⟨hrunning, hattempt, hnative, htask, hrest⟩

/-- Without a current attempt there is nothing that belongs to one. -/
theorem Sound.of_idle (h : s.Sound) (hrunning : s.running = false) :
    s.native = [] ∧ s.task = none ∧ s.main.filterMap Block.finishes = [] ∧ s.holders = [] := by
  have hplaces := h.places
  rw [State.places, hrunning] at hplaces
  have hholders : s.holders = [] := by
    apply List.eq_nil_iff_forall_not_mem.mpr
    intro attempt hattempt
    have hnot := (h.holders attempt hattempt).1
    rw [hrunning] at hnot
    cases hnot
  simp at hplaces
  exact ⟨hplaces.1, hplaces.2.1, by simpa using hplaces.2.2, hholders⟩

end Places

section Parts

variable {s : State}

/-- Sound again, and nothing was done to the state of another attempt. -/
structure Safe (s s' : State) : Prop where
  sound : s'.Sound
  own : s'.Own ↔ s.Own

theorem Safe.refl (h : s.Sound) : Safe s s := ⟨h, Iff.rfl⟩

theorem Safe.trans {s' s'' : State} (h : Safe s s') (h' : Safe s' s'') : Safe s s'' :=
  ⟨h'.sound, h'.own.trans h.own⟩

theorem Kept.act (h : s.Kept) (acts : List Act) : (s.act acts).Kept :=
  ⟨h.listener, h.peer, h.holders, h.active, h.order, h.completed, h.accepted, h.ended⟩

theorem Sound.act (h : s.Sound) (acts : List Act) : (s.act acts).Sound :=
  ⟨h.toKept.act acts, h.places⟩

theorem Safe.act (h : s.Sound) {acts : List Act} (hacts : ∀ act ∈ acts, act.attempt = act.target) :
    Safe s (s.act acts) := ⟨h.act acts, own_append hacts⟩

/-- The blocks of the main queue matter only where they finish an attempt. -/
theorem Sound.main (h : s.Sound) {main : List Block}
    (hmain : main.filterMap Block.finishes = s.main.filterMap Block.finishes) :
    Sound { s with main := main } where
  listener := h.listener
  peer := h.peer
  holders := h.holders
  active := h.active
  order := h.order
  completed := h.completed
  accepted := h.accepted
  ended := by
    rw [hmain]
    exact h.ended
  places := by
    rw [← h.places, State.places, hmain]
    rfl

theorem Safe.enqueue (h : s.Sound) {block : Block} (hblock : block.finishes = none) :
    Safe s (s.enqueue block) := by
  refine ⟨h.main ?_, Iff.rfl⟩
  rw [List.filterMap_append, List.filterMap_cons_none hblock, List.filterMap_nil, List.append_nil]

theorem Safe.pop (h : s.Sound) {block : Block} {rest : List Block} (hmain : s.main = block :: rest)
    (hblock : block.finishes = none) : Safe s { s with main := rest } := by
  refine ⟨h.main ?_, Iff.rfl⟩
  rw [hmain, List.filterMap_cons_none hblock]

theorem follows_accepted (event : Event) (attempt : ℕ) : Follows event (.accepted attempt) := by
  cases event <;> trivial

theorem follows_ended (event : Event) (attempt : ℕ) : Follows event (.ended attempt) := by
  cases event <;> trivial

theorem pairwise_note {log : List Event} {event : Event} (h : log.Pairwise Follows)
    (hevent : ∀ earlier ∈ log, Follows earlier event) : (log ++ [event]).Pairwise Follows := by
  refine List.pairwise_append.mpr ⟨h, List.pairwise_singleton _ _, fun earlier hearlier last hlast => ?_⟩
  rw [List.mem_singleton.mp hlast]
  exact hevent earlier hearlier

theorem mem_of_mem_note {log : List Event} {earlier event : Event} (hmem : earlier ∈ log ++ [event])
    (hne : earlier ≠ event) : earlier ∈ log := by
  rcases List.mem_append.mp hmem with hmem | hmem
  · exact hmem
  · exact absurd (List.mem_singleton.mp hmem) hne

/-- An event that ends no attempt leaves what comes after the ends. -/
theorem Kept.ended_note (h : s.Kept) {event : Event} (hevent : ∀ attempt, .ended attempt ≠ event)
    (attempt : ℕ) (hmem : .ended attempt ∈ s.log ++ [event]) :
    attempt ∈ s.main.filterMap Block.finishes ∨
      ∃ url error, .completed attempt attempt url error ∈ s.log ++ [event] := by
  obtain hwaits | ⟨url, error, hcompleted⟩ :=
    h.ended attempt (mem_of_mem_note hmem (hevent attempt))
  · exact .inl hwaits
  · exact .inr ⟨url, error, List.mem_append_left _ hcompleted⟩

/-- An accepted stop stops the current attempt. -/
theorem Safe.stopSection {s' : State} {owner : Option ℕ} {error : PairError} (h : s.Sound)
    (howner : ∀ attempt ∈ owner, attempt = s.attempt) (hsome : s.stopSection owner error = some s') :
    Safe s s' ∧ s'.attempt = s.attempt ∧ s'.main = s.main ∧ s'.task = s.task := by
  unfold State.stopSection at hsome
  rw [Option.ite_none_left_eq_some] at hsome
  obtain ⟨hrunning, hsome⟩ := hsome
  have hrun : s.running = true := by
    cases hcase : s.running with
    | true => rfl
    | false => simp [hcase] at hrunning
  cases hsome
  have hfield : ∀ field holds, field = s.fieldOf holds → ∀ target ∈ field, target = s.attempt := by
    intro field holds hfield target htarget
    rw [hfield, fieldOf] at htarget
    obtain ⟨⟨attempt, point⟩, htask, hsome⟩ := Option.bind_eq_some_iff.mp htarget
    rw [Option.ite_none_right_eq_some] at hsome
    obtain ⟨-, hattempt⟩ := hsome
    cases hattempt
    exact (h.of_task htask).2.1
  refine ⟨⟨?_, ?_⟩, rfl, rfl, rfl⟩
  · refine Sound.act ?_ _
    exact {
      listener := h.listener
      peer := h.peer
      holders := h.holders
      active := h.active
      order := pairwise_note h.order fun earlier _ => follows_accepted earlier s.attempt
      completed := fun captured attempt url error hmem =>
        h.completed captured attempt url error (mem_of_mem_note hmem nofun)
      accepted := by
        intro attempt hmem
        rcases List.mem_append.mp hmem with hmem | hmem
        · exact ⟨(h.accepted attempt hmem).1, fun _ => rfl⟩
        · cases List.mem_singleton.mp hmem
          exact ⟨Nat.le_refl _, fun _ => rfl⟩
      ended := h.ended_note nofun
      places := h.places }
  · apply own_append
    intro act hact
    rcases List.mem_append.mp hact with hact | hact
    · rcases List.mem_append.mp hact with hact | hact
      · obtain ⟨attempt, hattempt, rfl⟩ := Option.map_eq_some_iff.mp (Option.mem_toList.mp hact)
        exact howner attempt hattempt
      · exact own_actOn (hfield _ _ h.listener) act hact
    · exact own_actOn (hfield _ _ h.peer) act hact

theorem Safe.stopWithError {owner : Option ℕ} {error : PairError} (h : s.Sound)
    (howner : ∀ attempt ∈ owner, attempt = s.attempt) : Safe s (s.stopWithError owner error) := by
  unfold State.stopWithError
  cases hsection : s.stopSection owner error with
  | none => exact .refl h
  | some stopped =>
    obtain ⟨hsafe, -⟩ := Safe.stopSection h howner hsection
    exact hsafe.trans (.enqueue hsafe.sound rfl)

/-- The end of an attempt is handed to the main queue. -/
theorem Kept.finishAttempt (h : s.Kept) (hplaces : s.places = []) (hrunning : s.running = true)
    (url : Bool) (error : Option PairError) : (s.finishAttempt s.attempt url error).Sound := by
  have hempty := hplaces
  simp only [State.places, List.append_eq_nil_iff] at hempty
  obtain ⟨⟨hnative, htask⟩, hmain⟩ := hempty
  have hfinishes : (s.finishAttempt s.attempt url error).main.filterMap Block.finishes =
      [s.attempt] := by
    change (s.main ++ [Block.finish s.attempt url error]).filterMap Block.finishes = [s.attempt]
    rw [List.filterMap_append, hmain]
    rfl
  exact {
    listener := h.listener
    peer := h.peer
    holders := h.holders
    active := h.active
    order := pairwise_note h.order fun earlier _ => follows_ended earlier s.attempt
    completed := fun captured attempt url error hmem =>
      h.completed captured attempt url error (mem_of_mem_note hmem nofun)
    accepted := fun attempt hmem => h.accepted attempt (mem_of_mem_note hmem nofun)
    ended := by
      intro attempt hmem
      rw [hfinishes]
      rcases List.mem_append.mp hmem with hmem | hmem
      · rcases h.ended attempt hmem with hwaits | ⟨url, error, hcompleted⟩
        · rw [hmain] at hwaits
          cases hwaits
        · exact .inr ⟨url, error, List.mem_append_left _ hcompleted⟩
      · cases List.mem_singleton.mp hmem
        exact .inl (.head _)
    places := by
      rw [State.places, hfinishes]
      change s.native ++ (s.task.map Prod.fst).toList ++ [s.attempt] =
        if s.running then [s.attempt] else []
      rw [hnative, htask, hrunning]
      rfl }

theorem mem_holders {attempt : ℕ} : attempt ∈ s.holders ↔ attempt ∈ s.advertisement ∨
    attempt ∈ s.deadline ∨ attempt ∈ s.ownsAudioSession ∨ attempt ∈ s.observer ∨
      attempt ∈ s.backgroundTask := by
  simp [holders]

/-- A new attempt, before it has set anything up. -/
theorem Sound.begin (h : s.Sound) (hrunning : s.running = false)
    {ownsAudioSession observer backgroundTask deadline : Option ℕ}
    (hholders : ∀ field ∈ [ownsAudioSession, observer, backgroundTask, deadline],
      ∀ attempt ∈ field, attempt = s.attempt + 1) :
    Kept { s with
        running := true
        cancelled := false
        stopError := none
        attempt := s.attempt + 1
        active := some (s.attempt + 1)
        ownsAudioSession := ownsAudioSession
        observer := observer
        backgroundTask := backgroundTask
        deadline := deadline } ∧ s.places = [] := by
  obtain ⟨hnative, htask, hmain, hnone⟩ := h.of_idle hrunning
  refine ⟨?_, by rw [h.places, hrunning]; rfl⟩
  exact {
    listener := h.listener
    peer := h.peer
    holders := by
      intro attempt hattempt
      refine ⟨rfl, ?_⟩
      rcases mem_holders.mp hattempt with hfield | hfield | hfield | hfield | hfield
      · have hold : attempt ∈ s.holders := mem_holders.mpr (.inl hfield)
        rw [hnone] at hold
        cases hold
      · exact hholders deadline (by simp) attempt hfield
      · exact hholders ownsAudioSession (by simp) attempt hfield
      · exact hholders observer (by simp) attempt hfield
      · exact hholders backgroundTask (by simp) attempt hfield
    active := rfl
    order := h.order
    completed := by
      intro captured attempt url error hmem
      obtain ⟨hcaptured, hle, -⟩ := h.completed captured attempt url error hmem
      exact ⟨hcaptured, Nat.le_succ_of_le hle, fun heq => absurd (heq ▸ hle) (Nat.not_succ_le_self _)⟩
    accepted := by
      intro attempt hmem
      obtain ⟨hle, -⟩ := h.accepted attempt hmem
      exact ⟨Nat.le_succ_of_le hle, fun heq => absurd (heq ▸ hle) (Nat.not_succ_le_self _)⟩
    ended := h.ended }

theorem Safe.start (h : s.Sound) (supported : Bool) (audio : KeepAlive) :
    Safe s (s.start supported audio) := by
  unfold State.start
  split
  · exact .refl h
  · rename_i hnot
    have hrunning : s.running = false := by simpa using hnot
    have hidle : ∀ attempt, attempt ∉ s.holders := by
      rw [(h.of_idle hrunning).2.2.2]
      exact fun _ hmem => (nomatch hmem)
    have howns : ∀ attempt ∈ s.ownsAudioSession, attempt = s.attempt + 1 := fun attempt hmem =>
      absurd (mem_holders.mpr (.inr (.inr (.inl hmem)))) (hidle attempt)
    have hothers : ∀ field ∈ [s.observer, s.backgroundTask, s.deadline], ∀ attempt ∈ field,
        attempt = s.attempt + 1 := by
      intro field hfield attempt hmem
      refine absurd (mem_holders.mpr ?_) (hidle attempt)
      simp only [List.mem_cons, List.not_mem_nil, or_false] at hfield
      rcases hfield with rfl | rfl | rfl
      · exact .inr (.inr (.inr (.inl hmem)))
      · exact .inr (.inr (.inr (.inr hmem)))
      · exact .inr (.inl hmem)
    cases supported with
    | false =>
      obtain ⟨hkept, hplaces⟩ := h.begin hrunning (List.forall_mem_cons.mpr ⟨howns, hothers⟩)
      exact ⟨hkept.finishAttempt hplaces rfl false _, Iff.rfl⟩
    | true =>
      cases audio with
      | failed owns error =>
        have hfailed : ∀ attempt ∈ (if owns then some (s.attempt + 1) else s.ownsAudioSession),
            attempt = s.attempt + 1 := by
          cases owns with
          | false => exact howns
          | true => exact fun attempt hmem => (Option.some.inj hmem).symm
        obtain ⟨hkept, hplaces⟩ := h.begin hrunning (List.forall_mem_cons.mpr ⟨hfailed, hothers⟩)
        exact ⟨hkept.finishAttempt hplaces rfl false _, Iff.rfl⟩
      | ready =>
        have hset : ∀ field ∈ List.replicate 4 (some (s.attempt + 1)), ∀ attempt ∈ field,
            attempt = s.attempt + 1 := by
          intro field hfield attempt hmem
          rw [List.eq_of_mem_replicate hfield] at hmem
          exact (Option.some.inj hmem).symm
        obtain ⟨hkept, hplaces⟩ := h.begin hrunning hset
        refine ⟨⟨⟨hkept.listener, hkept.peer, hkept.holders, hkept.active, hkept.order,
          hkept.completed, hkept.accepted, hkept.ended⟩, ?_⟩, Iff.rfl⟩
        obtain ⟨hnative, htask, hmain, -⟩ := h.of_idle hrunning
        change (s.native ++ [s.attempt + 1]) ++ (s.task.map Prod.fst).toList ++
          s.main.filterMap Block.finishes = [s.attempt + 1]
        rw [hnative, htask, hmain]
        rfl

theorem Safe.request (h : s.Sound) (request : Request) : Safe s (s.request request) := by
  cases request with
  | start supported audio => exact .start h supported audio
  | stop error => exact .stopWithError h fun _ hnone => (nomatch hnone)

theorem Safe.requests (h : s.Sound) (requests : List Request) : Safe s (s.requests requests) := by
  induction requests generalizing s with
  | nil => exact .refl h
  | cons request requests ih =>
    have hfirst := Safe.request h request
    exact hfirst.trans (ih hfirst.sound)

theorem Sound.finished {attempt : ℕ} {url : Bool} {error : Option PairError} {rest : List Block}
    (h : s.Sound) (hmain : s.main = .finish attempt url error :: rest)
    (completionError : Option PairError) :
    Sound (({ s with
      main := rest
      running := false
      active := none
      advertisement := none
      deadline := none
      ownsAudioSession := none
      observer := none
      backgroundTask := none }).note
        (.completed s.attempt s.attempt (!s.cancelled && url) completionError)) := by
  obtain ⟨hrunning, rfl, hnative, htask, hrest⟩ := h.of_finish hmain
  exact {
    listener := h.listener
    peer := h.peer
    holders := fun _ hmem => (nomatch hmem)
    active := rfl
    order := by
      refine pairwise_note h.order fun earlier hearlier => ?_
      cases earlier with
      | accepted attempt =>
        intro heq
        rw [(h.accepted attempt hearlier).2 heq]
        rfl
      | saved attempt => trivial
      | ended attempt => trivial
      | completed captured attempt url error =>
        obtain ⟨rfl, -, hfinished⟩ := h.completed captured attempt url error hearlier
        intro heq
        have hnot := hfinished heq
        rw [hrunning] at hnot
        cases hnot
    completed := by
      intro captured attempt url error hmem
      rcases List.mem_append.mp hmem with hmem | hmem
      · obtain ⟨hcaptured, hle, -⟩ := h.completed captured attempt url error hmem
        exact ⟨hcaptured, hle, fun _ => rfl⟩
      · cases List.mem_singleton.mp hmem
        exact ⟨rfl, Nat.le_refl _, fun _ => rfl⟩
    accepted := fun attempt hmem => h.accepted attempt (mem_of_mem_note hmem nofun)
    ended := by
      intro attempt hmem
      rcases List.mem_append.mp hmem with hmem | hmem
      · rcases h.ended attempt hmem with hwaits | ⟨url', error', hcompleted⟩
        · have hfinishes : (Block.finish s.attempt url error).finishes = some s.attempt := rfl
          rw [hmain, List.filterMap_cons_some hfinishes, hrest] at hwaits
          obtain rfl := List.mem_singleton.mp hwaits
          exact .inr ⟨_, _, List.mem_append_right _ (.head _)⟩
        · exact .inr ⟨url', error', List.mem_append_left _ hcompleted⟩
      · cases List.mem_singleton.mp hmem
    places := by
      change s.native ++ (s.task.map Prod.fst).toList ++ rest.filterMap Block.finishes = []
      rw [hnative, htask, hrest]
      rfl }

/-- The finish of the current attempt. -/
theorem Safe.finish {attempt : ℕ} {url : Bool} {error : Option PairError} {rest : List Block}
    (h : s.Sound) (hmain : s.main = .finish attempt url error :: rest) (requests : List Request) :
    Safe s (({ s with main := rest }).finish attempt url error requests) := by
  obtain ⟨hrunning, rfl, -⟩ := h.of_finish hmain
  have hactive : s.active = some s.attempt := by rw [h.active, hrunning]; rfl
  have hfields : ∀ field ∈ [s.advertisement, s.deadline, s.ownsAudioSession, s.backgroundTask],
      ∀ target ∈ field, target = s.attempt := by
    intro field hfield target htarget
    refine (h.holders target (mem_holders.mpr ?_)).2
    simp only [List.mem_cons, List.not_mem_nil, or_false] at hfield
    rcases hfield with rfl | rfl | rfl | rfl
    · exact .inl htarget
    · exact .inr (.inl htarget)
    · exact .inr (.inr (.inl htarget))
    · exact .inr (.inr (.inr (.inr htarget)))
  have hacts : ∀ act ∈ actOn s.attempt s.advertisement .stopAdvertisement ++
      actOn s.attempt s.deadline .cancelDeadline ++ actOn s.attempt s.ownsAudioSession .endKeepAlive ++
        actOn s.attempt s.backgroundTask .endBackgroundTask, act.attempt = act.target := by
    intro act hact
    simp only [List.mem_append] at hact
    rcases hact with ((hact | hact) | hact) | hact
    · exact own_actOn (hfields _ (by simp)) act hact
    · exact own_actOn (hfields _ (by simp)) act hact
    · exact own_actOn (hfields _ (by simp)) act hact
    · exact own_actOn (hfields _ (by simp)) act hact
  unfold State.finish
  simp only [hrunning, hactive, Bool.not_true, bne_self_eq_false, Bool.or_self, Bool.false_eq_true,
    if_false]
  have hfinished := (h.finished hmain
    (if s.cancelled then some s.cancellationError else error)).act (actOn s.attempt s.advertisement .stopAdvertisement ++
      actOn s.attempt s.deadline .cancelDeadline ++ actOn s.attempt s.ownsAudioSession .endKeepAlive ++
        actOn s.attempt s.backgroundTask .endBackgroundTask)
  have hsafe : Safe s _ := ⟨hfinished, own_append hacts⟩
  exact hsafe.trans (.requests hfinished requests)

end Parts

section Blocks

variable {s : State}

theorem current_of_check {attempt : ℕ}
    (hcheck : (s.running && !s.cancelled && s.attempt == attempt) = true) :
    s.running = true ∧ s.cancelled = false ∧ s.attempt = attempt := by
  simpa [and_assoc] using hcheck

theorem own_active {attempt : ℕ} (h : s.Sound) (hattempt : s.attempt = attempt) (deed : Deed) :
    ∀ act ∈ actOn attempt s.active deed, act.attempt = act.target := by
  refine own_actOn fun target htarget => ?_
  rw [h.active] at htarget
  split at htarget
  · rw [← hattempt]
    exact (Option.some.inj htarget).symm
  · cases htarget

theorem Safe.deliverPin (h : s.Sound) (attempt : ℕ) (requests : List Request) :
    Safe s (s.deliverPin attempt requests) := by
  unfold State.deliverPin
  split
  · rename_i hcheck
    have hact := Safe.act h (own_active h (current_of_check hcheck).2.2 .pin)
    exact hact.trans (.requests hact.sound requests)
  · exact .refl h

theorem Safe.didPublish (h : s.Sound) (sender : ℕ) (requests : List Request) :
    Safe s (s.didPublish sender requests) := by
  unfold State.didPublish
  split
  · rename_i hcheck
    have hsender : sender ∈ s.advertisement := by
      simp only [Bool.and_eq_true, beq_iff_eq] at hcheck
      exact hcheck.2
    have hcurrent := (h.holders sender (mem_holders.mpr (.inl hsender))).2
    have hact := Safe.act h (own_active h hcurrent.symm .ready)
    exact hact.trans (.requests hact.sound requests)
  · exact .refl h

theorem Sound.advertise (h : s.Sound) (hrunning : s.running = true) :
    Sound { s with advertisement := some s.attempt } where
  listener := h.listener
  peer := h.peer
  holders := by
    intro attempt hattempt
    rcases mem_holders.mp hattempt with hfield | hothers
    · exact ⟨hrunning, (Option.some.inj hfield).symm⟩
    · exact h.holders attempt (mem_holders.mpr (.inr hothers))
  active := h.active
  order := h.order
  completed := h.completed
  accepted := h.accepted
  ended := h.ended
  places := h.places

theorem Safe.publishPort (h : s.Sound) (attempt : ℕ) (published : Bool) :
    Safe s (s.publishPort attempt published) := by
  unfold State.publishPort
  split
  · rename_i hcheck
    obtain ⟨hrunning, -, rfl⟩ := current_of_check hcheck
    have hadvertise := h.advertise hrunning
    have hsafe : Safe s (({ s with advertisement := some s.attempt }).act
        [⟨s.attempt, s.attempt, .publish⟩]) := by
      refine ⟨hadvertise.act _, own_append fun act hact => ?_⟩
      rw [List.mem_singleton.mp hact]
    cases published with
    | true => exact hsafe
    | false => exact hsafe.trans (.stopWithError hsafe.sound fun _ heq => (Option.some.inj heq).symm)
  · exact .refl h

/-- The block of a stop finds the advertisement of its own attempt, or none. -/
theorem own_stopAdvertisement_iff (h : s.Sound) (attempt : ℕ) :
    (s.stopAdvertisement attempt).Own ↔
      s.Own ∧ (attempt = s.attempt ∨ s.advertisement = none) := by
  cases hadvertisement : s.advertisement with
  | none =>
    simp only [State.stopAdvertisement, hadvertisement, or_true, and_true]
    exact own_append fun _ hact => (nomatch hact)
  | some target =>
    obtain ⟨-, rfl⟩ := h.holders target (mem_holders.mpr (.inl hadvertisement))
    unfold State.stopAdvertisement Own act
    rw [hadvertisement, actOn, Option.map_some, Option.toList_some, List.forall_mem_append]
    simp

end Blocks

section Native

variable {s s' : State} {attempt : ℕ} {point : Point}

theorem Sound.goto (h : s.Sound) (htask : s.task = some (attempt, point)) (next : Point)
    {listenerFD peerFD : Option ℕ} (hlistener : listenerFD = if next.listens then some attempt else none)
    (hpeer : peerFD = if next.peers then some attempt else none) :
    Sound { s with task := some (attempt, next), listenerFD := listenerFD, peerFD := peerFD } where
  listener := hlistener
  peer := hpeer
  holders := h.holders
  active := h.active
  order := h.order
  completed := h.completed
  accepted := h.accepted
  ended := h.ended
  places := by
    rw [← h.places, State.places, State.places, htask]
    rfl

theorem Sound.listener_of_task (h : s.Sound) (htask : s.task = some (attempt, point)) :
    s.listenerFD = if point.listens then some attempt else none := by
  rw [h.listener, fieldOf, htask]
  rfl

theorem Sound.peer_of_task (h : s.Sound) (htask : s.task = some (attempt, point)) :
    s.peerFD = if point.peers then some attempt else none := by
  rw [h.peer, fieldOf, htask]
  rfl

/-- A step that leaves the descriptors as they are. -/
theorem Safe.goto (h : s.Sound) (htask : s.task = some (attempt, point)) {next : Point}
    (hlistens : next.listens = point.listens) (hpeers : next.peers = point.peers) :
    Safe s (s.goto attempt next) := by
  refine ⟨h.goto htask next ?_ ?_, Iff.rfl⟩
  · rw [hlistens]
    exact h.listener_of_task htask
  · rw [hpeers]
    exact h.peer_of_task htask

theorem Safe.endAttempt (h : s.Sound) (htask : s.task = some (attempt, point))
    (hlistens : point.listens = false) (hpeers : point.peers = false) (url : Bool)
    (error : Option PairError) : Safe s (s.endAttempt attempt url error) := by
  obtain ⟨hrunning, rfl, hnative, hmain⟩ := h.of_task htask
  have hkept : Kept { s with task := none } := {
    listener := by
      rw [h.listener_of_task htask, hlistens]
      rfl
    peer := by
      rw [h.peer_of_task htask, hpeers]
      rfl
    holders := h.holders
    active := h.active
    order := h.order
    completed := h.completed
    accepted := h.accepted
    ended := h.ended }
  refine ⟨hkept.finishAttempt ?_ hrunning url error, Iff.rfl⟩
  change s.native ++ [] ++ s.main.filterMap Block.finishes = []
  rw [hnative, hmain]
  rfl

/-- The record is written only while its attempt is not stopped. -/
theorem Sound.save (h : s.Sound) (hcancelled : s.cancelled = false) :
    Sound (({ s with record := some s.attempt }).note (.saved s.attempt)) where
  listener := h.listener
  peer := h.peer
  holders := h.holders
  active := h.active
  order := by
    refine pairwise_note h.order fun earlier hearlier => ?_
    cases earlier with
    | accepted attempt =>
      intro heq
      have hstopped := (h.accepted attempt hearlier).2 heq
      rw [hcancelled] at hstopped
      cases hstopped
    | saved attempt => trivial
    | ended attempt => trivial
    | completed captured attempt url error => trivial
  completed := fun captured attempt url error hmem =>
    h.completed captured attempt url error (mem_of_mem_note hmem nofun)
  accepted := fun attempt hmem => h.accepted attempt (mem_of_mem_note hmem nofun)
  ended := h.ended_note nofun
  places := h.places

theorem Safe.commit {error : Option PairError} {record : Bool} {input : Input} (h : s.Sound)
    (htask : s.task = some (attempt, .committing error record))
    (hsome : s.commit attempt error record input = some s') : Safe s s' := by
  cases input with
  | go =>
    simp only [State.commit] at hsome
    split at hsome
    · rename_i hcheck
      cases hsome
      simp only [Bool.and_eq_true, Bool.not_eq_true', beq_iff_eq] at hcheck
      obtain ⟨-, ⟨hcancelled, -⟩, rfl⟩ := hcheck
      have hsave : Safe s (({ s with record := some s.attempt }).note (.saved s.attempt)) :=
        ⟨h.save hcancelled, Iff.rfl⟩
      exact hsave.trans (.goto hsave.sound htask rfl rfl)
    · cases hsome
      exact .goto h htask rfl rfl
  | failed failure =>
    simp only [State.commit, Option.ite_none_right_eq_some] at hsome
    obtain ⟨-, hsome⟩ := hsome
    cases hsome
    exact .goto h htask rfl rfl
  | bound | again | peer | pin | returned => cases hsome

theorem eq_of_mem_field {field : Option ℕ} {holds : Bool}
    (h : field = if holds then some attempt else none) : ∀ target ∈ field, target = attempt := by
  intro target htarget
  rw [h] at htarget
  split at htarget
  · exact (Option.some.inj htarget).symm
  · cases htarget

/-- Every step of an attempt leaves the others alone. -/
theorem Safe.runAttempt {input : Input} (h : s.Sound) (htask : s.task = some (attempt, point))
    (hsome : s.runAttempt attempt point input = some s') : Safe s s' := by
  have hlistener := h.listener_of_task htask
  have hpeer := h.peer_of_task htask
  unfold State.runAttempt at hsome
  split at hsome
  case h_16 pin =>
    split at hsome
    · cases hsome
      exact .enqueue h rfl
    · obtain ⟨-, hattempt, -⟩ := h.of_task htask
      cases hsection : s.stopSection (some attempt) invalidPin with
      | none =>
        rw [hsection] at hsome
        cases hsome
        exact .refl h
      | some stopped =>
        rw [hsection] at hsome
        cases hsome
        have howner : ∀ owner ∈ some attempt, owner = s.attempt := by
          intro owner howner
          rw [← Option.some.inj howner]
          exact hattempt
        obtain ⟨hsafe, -, -, hsame⟩ := Safe.stopSection h howner hsection
        exact hsafe.trans (.goto hsafe.sound (hsame.trans htask) rfl rfl)
  case h_20 => exact .commit h htask hsome
  all_goals cases hsome
  case h_1 => exact .goto h htask (by split <;> rfl) (by split <;> rfl)
  case h_2 => exact .endAttempt h htask rfl rfl _ _
  case h_3 => exact .goto h htask rfl rfl
  case h_4 => exact .endAttempt h htask rfl rfl _ _
  case h_5 => exact .goto h htask rfl rfl
  case h_6 => exact .endAttempt h htask rfl rfl _ _
  case h_7 => exact ⟨h.goto htask _ rfl hpeer, Iff.rfl⟩
  case h_8 port cancelled =>
    cases cancelled with
    | true => exact .goto h htask rfl rfl
    | false =>
      have henqueue : Safe s (s.enqueue (.publish attempt port)) := .enqueue h rfl
      exact henqueue.trans (.goto henqueue.sound htask rfl rfl)
  case h_9 => exact .goto h htask (by split <;> rfl) (by split <;> rfl)
  case h_10 => exact .goto h htask rfl rfl
  case h_11 => exact .goto h htask rfl rfl
  case h_12 => exact .goto h htask rfl rfl
  case h_13 =>
    refine ⟨(h.act _).goto htask (.closing true none) hlistener rfl, own_append fun act hact => ?_⟩
    split at hact
    · rw [List.mem_singleton.mp hact]
    · cases hact
  case h_14 peer error =>
    exact ⟨(h.act _).goto htask (.checking peer error) rfl hpeer,
      own_append (own_actOn (eq_of_mem_field hlistener))⟩
  case h_15 peer error =>
    refine .goto h htask (by split <;> rfl) ?_
    cases peer with
    | false => rfl
    | true => split <;> rfl
  case h_17 =>
    have henqueue : Safe s (s.enqueue (.stop attempt)) := .enqueue h rfl
    exact henqueue.trans (.goto henqueue.sound htask rfl rfl)
  case h_18 => exact .goto h htask rfl rfl
  case h_19 => exact .goto h htask rfl rfl
  case h_21 =>
    refine ⟨(h.act _).goto htask _ ?_ ?_, own_append (own_actOn (eq_of_mem_field hpeer))⟩
    · have hnone : s.listenerFD = none := hlistener
      change s.listenerFD = _
      rw [hnone]
      split <;> rfl
    · split <;> rfl
  case h_22 => exact .goto h htask rfl rfl
  case h_23 => exact .endAttempt h htask rfl rfl _ _

end Native

section Runs

variable {s s' : State} {tick : Tick} {ticks : List Tick}

/-- The next attempt of the native queue. -/
theorem Sound.dequeue {attempt : ℕ} {rest : List ℕ} (h : s.Sound) (htask : s.task = none)
    (hnative : s.native = attempt :: rest) :
    Sound { s with native := rest, task := some (attempt, .entry) } where
  listener := by
    rw [h.listener, fieldOf, htask]
    rfl
  peer := by
    rw [h.peer, fieldOf, htask]
    rfl
  holders := h.holders
  active := h.active
  order := h.order
  completed := h.completed
  accepted := h.accepted
  ended := h.ended
  places := by
    have hplaces := h.places
    rw [State.places, htask, hnative] at hplaces
    obtain ⟨-, hsingle⟩ := h.of_places (by simp [State.places, hnative])
    have hrest : rest = [] := by
      rw [State.places, htask, hnative] at hsingle
      simp at hsingle
      exact hsingle.2.1
    rw [hrest] at hplaces ⊢
    exact hplaces

theorem Safe.step (h : Safe s s') (hintime : s.StopsInTime tick) :
    s'.Sound ∧ (s'.Own ↔ s.Own ∧ s.StopsInTime tick) :=
  ⟨h.sound, h.own.trans (and_iff_left hintime).symm⟩

theorem Safe.stopping (h : s.Sound) (stopping : List ℕ) :
    Safe s { s with stopping := stopping } :=
  ⟨⟨⟨h.listener, h.peer, h.holders, h.active, h.order, h.completed, h.accepted, h.ended⟩,
    h.places⟩, Iff.rfl⟩

/-- A stop by something that an attempt has set up. -/
theorem Safe.stopWithError_of_holder {attempt : ℕ} (h : s.Sound) (hholder : attempt ∈ s.holders)
    (error : PairError) : Safe s (s.stopWithError (some attempt) error) := by
  refine .stopWithError h fun owner howner => ?_
  rw [← Option.some.inj howner]
  exact (h.holders attempt hholder).2

/-- Every state of a run is sound, and only the block of a stop can do something to
another attempt. -/
theorem step_safe (h : s.Sound) (hsome : s.step tick = some s') :
    s'.Sound ∧ (s'.Own ↔ s.Own ∧ s.StopsInTime tick) := by
  cases tick with
  | request request =>
    cases hsome
    exact (Safe.request h request).step trivial
  | startElsewhere =>
    cases hsome
    have henqueue : Safe s (s.enqueue .start) := .enqueue h rfl
    exact henqueue.step trivial
  | stopElsewhere error =>
    obtain ⟨stopped, hsection, rfl⟩ := Option.map_eq_some_iff.mp hsome
    have hnobody : ∀ attempt ∈ (none : Option ℕ), attempt = s.attempt := fun _ hnone => by cases hnone
    obtain ⟨hstopped, -⟩ := Safe.stopSection h hnobody hsection
    exact (hstopped.trans (.stopping hstopped.sound _)).step trivial
  | handOver attempt =>
    simp only [step, Option.ite_none_right_eq_some, Option.some.injEq] at hsome
    obtain ⟨-, rfl⟩ := hsome
    have hleft := Safe.stopping h (s.stopping.erase attempt)
    have henqueue : Safe _ (State.enqueue _ (.stop attempt)) := .enqueue hleft.sound rfl
    exact (hleft.trans henqueue).step trivial
  | main outcome =>
    cases hmain : s.main with
    | nil => simp [step, hmain] at hsome
    | cons block rest =>
      simp only [step, hmain, Option.some.injEq] at hsome
      subst hsome
      cases block with
      | start =>
        have hpop := Safe.pop h hmain rfl
        have hstart := Safe.start hpop.sound outcome.supported outcome.audio
        exact (hpop.trans hstart).step (by simp only [StopsInTime, hmain])
      | stop attempt =>
        have hpop := Safe.pop h hmain rfl
        have hstop := own_stopAdvertisement_iff hpop.sound attempt
        refine ⟨hpop.sound.act _, ?_⟩
        simp only [StopsInTime, hmain]
        exact hstop
      | pin attempt pin =>
        have hpop := Safe.pop h hmain rfl
        have hdeliver := Safe.deliverPin hpop.sound attempt outcome.requests
        exact (hpop.trans hdeliver).step (by simp only [StopsInTime, hmain])
      | publish attempt port =>
        have hpop := Safe.pop h hmain rfl
        have hpublish := Safe.publishPort hpop.sound attempt outcome.published
        exact (hpop.trans hpublish).step (by simp only [StopsInTime, hmain])
      | finish attempt url error =>
        have hfinish := Safe.finish h hmain outcome.requests
        exact hfinish.step (by simp only [StopsInTime, hmain])
  | alarm alarm =>
    obtain ⟨attempt, harmed, rfl⟩ := Option.map_eq_some_iff.mp hsome
    have hholder : attempt ∈ s.holders := by
      apply mem_holders.mpr
      cases alarm with
      | deadline => exact .inr (.inl harmed)
      | expiration => exact .inr (.inr (.inr (.inr harmed)))
      | interruption => exact .inr (.inr (.inr (.inl harmed)))
      | reset => exact .inr (.inr (.inr (.inl harmed)))
    exact (Safe.stopWithError_of_holder h hholder alarm.error).step trivial
  | didPublish sender requests =>
    cases hsome
    exact (Safe.didPublish h sender requests).step trivial
  | didNotPublish sender code =>
    simp only [step, Option.ite_none_right_eq_some, Option.some.injEq] at hsome
    obtain ⟨hsender, rfl⟩ := hsome
    have hholder : sender ∈ s.holders := mem_holders.mpr (.inl hsender)
    exact (Safe.stopWithError_of_holder h hholder _).step trivial
  | dequeue =>
    cases htask : s.task with
    | some task => simp [step, htask] at hsome
    | none =>
      cases hnative : s.native with
      | nil => simp [step, htask, hnative] at hsome
      | cons attempt rest =>
        simp only [step, htask, hnative, Option.some.injEq] at hsome
        subst hsome
        have hdequeue : Safe s _ := ⟨h.dequeue htask hnative, Iff.rfl⟩
        exact hdequeue.step trivial
  | native input =>
    cases htask : s.task with
    | none => simp [step, htask] at hsome
    | some task =>
      obtain ⟨attempt, point⟩ := task
      simp only [step, htask] at hsome
      exact (Safe.runAttempt h htask hsome).step trivial

theorem sound_start : Sound {} where
  listener := rfl
  peer := rfl
  holders := fun _ hmem => (nomatch hmem)
  active := rfl
  order := .nil
  completed := fun _ _ _ _ hmem => (nomatch hmem)
  accepted := fun _ hmem => (nomatch hmem)
  ended := fun _ hmem => (nomatch hmem)
  places := rfl

theorem isolated_iff (h : s.Sound) : s.Isolated ↔ s.Own := by
  constructor
  · exact fun hisolated => hisolated.own
  · exact fun hown =>
      ⟨fun captured attempt url error hmem => (h.completed captured attempt url error hmem).1,
        h.ended, h.order, hown⟩

theorem sound_run (hrun : run State.step {} ticks = some s) : s.Sound :=
  run_invariant (fun _ _ _ h hstep => (step_safe h hstep).1) sound_start hrun

end Runs

end State

/-- The attempts of a run are isolated exactly if the block of every stop runs in time. -/
theorem attempts_isolated_iff {s : State} {ticks : List Tick}
    (hrun : run State.step {} ticks = some s) :
    s.Isolated ↔ Along State.step State.StopsInTime {} ticks := by
  have hown := run_iff_along_of (I := State.Own) (P := State.StopsInTime)
    (fun _ _ _ h hstep => (State.step_safe h hstep).1)
    (fun _ _ _ h hstep => (State.step_safe h hstep).2) State.sound_start hrun
  rw [State.isolated_iff (State.sound_run hrun), hown]
  exact and_iff_right fun _ hact => (nomatch hact)

section Examples

/-- An attempt up to its advertisement. -/
def advertised : List Tick :=
  [.dequeue, .native .go, .native .go, .native (.bound 7), .native .go, .native .go, .main {}]

/-- A stopped attempt up to its finish. -/
def wound : List Tick :=
  [.native .go, .native .go, .native .go, .native .go, .native .go, .native .go]

/-- The block of the stop is handed over at once, and the completion starts again. -/
def inTime : List Tick :=
  [.request (.start true .ready)] ++ advertised ++
    [.stopElsewhere userCancelled, .handOver 1] ++ wound ++
    [.main {}, .main { requests := [.start true .ready] }] ++ advertised

theorem attempts_isolated_iff_inTime :
    ∃ s, run State.step {} inTime = some s ∧ s.attempt = 2 ∧
      Along State.step State.StopsInTime {} inTime := by
  obtain ⟨s, hrun, hattempt, hown⟩ : ∃ s, run State.step {} inTime = some s ∧ s.attempt = 2 ∧
      ∀ act ∈ s.acts, act.attempt = act.target := ⟨_, rfl, rfl, by decide⟩
  refine ⟨s, hrun, hattempt, (attempts_isolated_iff hrun).mp ?_⟩
  exact (State.isolated_iff (State.sound_run hrun)).mpr hown

/-- The thread that has stopped the first attempt goes on when the second is advertised. -/
def late : List Tick :=
  [.request (.start true .ready)] ++ advertised ++ [.stopElsewhere userCancelled] ++ wound ++
    [.main { requests := [.start true .ready] }] ++ advertised ++ [.handOver 1, .main {}]

theorem second_advertisement_stopped :
    ¬ ∀ ticks s, run State.step {} ticks = some s → s.Isolated := by
  intro h
  obtain ⟨s, hrun, hact⟩ : ∃ s, run State.step {} late = some s ∧
      ⟨1, 2, .stopAdvertisement⟩ ∈ s.acts := ⟨_, rfl, by decide⟩
  have hown := (h late s hrun).own _ hact
  cases hown

end Examples

end XitForge.Pairing.OnDevice
