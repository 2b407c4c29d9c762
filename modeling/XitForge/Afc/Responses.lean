import XitForge.Afc.Connection

/-!
Responses go to the operations whose requests they answer, in every run that begins no
request while the response to an earlier one has not been read. Then the device is sent
whole requests one at a time, and what it has sent is read off to the last byte before
the next one.
-/
namespace XitForge.Afc

section Exchange

/-- What was handed over, on the wire. -/
def State.delivered (state : State) : List (AfcPacket × Bytes) :=
  state.handed.map fun entry => (entry.1, entry.2.serialize)

/-- Nothing is on its way. -/
structure State.Silent (state : State) : Prop where
  partWritten : state.partWritten = false
  pending : state.pending = []
  inbound : state.inbound = []
  answered : state.answered = state.delivered

/-- The device has the request, or has answered it and its answer is read in part. -/
def Running.Awaiting (running : Running) (got : Bytes) (state : State) : Prop :=
  (state.pending = [running.request] ∧ state.inbound = [] ∧ got = [] ∧
    state.answered = state.delivered) ∨
  (state.pending = [] ∧ ∃ reply : Reply,
    state.answered = state.delivered ++
      [(running.request, reply.bytes running.request.header.packetNum)] ∧
    got ++ state.inbound = reply.bytes running.request.header.packetNum)

/-- Nothing is on its way but what the exchange needs. -/
def Running.Exchanging (running : Running) (state : State) : Prop :=
  match running.phase with
  | .sending _ => state.pending = [] ∧ state.inbound = [] ∧ state.answered = state.delivered
  | .flushing => state.partWritten = false ∧ running.Awaiting [] state
  | .reading got => state.partWritten = false ∧ running.Awaiting got state

/-- While the connection is there, one operation at most is past the first byte of its
request, and the wire carries nothing of any other. -/
structure State.InStep (state : State) : Prop extends state.Matched where
  damaged : state.damaged = false
  silent : state.connected = true → state.outstanding = none → state.Silent
  running : state.connected = true → ∀ id running, state.running id = some running →
    running.Fresh ∨ state.outstanding = some id ∧ running.Exchanging state

end Exchange

section Steps

variable {state next : State} {id : ℕ} {running : Running}

theorem InStep.new : State.new.InStep where
  number := fun _ _ hmem => absurd hmem List.not_mem_nil
  answer := List.prefix_refl _
  damaged := rfl
  silent := fun _ _ => ⟨rfl, rfl, rfl, rfl⟩
  running := nofun

/-- The operation is ready or dropped. -/
theorem State.InStep.set_none (h : state.InStep) (id : ℕ) : (state.set id none).InStep := by
  refine ⟨⟨h.number, h.answer⟩, h.damaged, ?_, ?_⟩
  · intro hconnected hnone
    obtain ⟨hpart, hpending, hinbound, hanswered⟩ := h.silent hconnected hnone
    exact ⟨hpart, hpending, hinbound, hanswered⟩
  · intro hconnected other entry hentry
    by_cases hother : other = id
    · subst hother
      simp [State.set] at hentry
    · have hbefore : state.running other = some entry := by
        simpa [State.set, Function.update_of_ne hother] using hentry
      exact h.running hconnected other entry hbefore

theorem launch_eq (state : State) (id : ℕ) (task : Task Unit) :
    ∃ number running, state.launch id task = { state.set id running with packageNumber := number } ∧
      ∀ entry, running = some entry → entry.Fresh := by
  cases task with
  | done value => exact ⟨state.packageNumber, none, rfl, nofun⟩
  | failed error => exact ⟨state.packageNumber, none, rfl, nofun⟩
  | exchange operation headerPayload payload next =>
    by_cases hconnected : state.connected = true
    · refine ⟨state.packageNumber + 1, _, if_pos hconnected, ?_⟩
      intro entry hentry
      cases hentry
      exact rfl
    · exact ⟨state.packageNumber + 1, none, if_neg hconnected, nofun⟩

/-- The operation goes on to another request or to its end. -/
theorem State.InStep.launch (h : (state.set id none).InStep) (task : Task Unit) :
    (state.launch id task).InStep := by
  obtain ⟨number, running, hlaunch, hfresh⟩ := launch_eq state id task
  rw [hlaunch]
  refine ⟨⟨h.number, h.answer⟩, h.damaged, ?_, ?_⟩
  · intro hconnected hnone
    obtain ⟨hpart, hpending, hinbound, hanswered⟩ := h.silent hconnected hnone
    exact ⟨hpart, hpending, hinbound, hanswered⟩
  · intro hconnected other entry hentry
    by_cases hother : other = id
    · subst hother
      left
      apply hfresh
      simpa [State.set] using hentry
    · have hbefore : (state.set id none).running other = some entry := by
        simpa [State.set, Function.update_of_ne hother] using hentry
      exact h.running hconnected other entry hbefore

/-- Without a connection nothing more is handed over. -/
theorem State.Matched.invalidate (h : state.Matched) (hdamaged : state.damaged = false) (id : ℕ) :
    (state.invalidate id).InStep :=
  ⟨⟨h.number, h.answer⟩, hdamaged, nofun, nofun⟩

/-- An operation moves on within its exchange, and the others are fresh. -/
theorem State.InStep.exchange (h : state.InStep) {running' : Running}
    (hothers : ∀ other entry, state.running other = some entry → other ≠ id → entry.Fresh)
    (hrunning : next.running = Function.update state.running id (some running'))
    (hdamaged : next.damaged = false) (hhanded : next.handed = state.handed)
    (hanswered : List.IsPrefix next.delivered next.answered)
    (houtstanding : next.outstanding = some id) (hexchanging : running'.Exchanging next) :
    next.InStep := by
  refine ⟨⟨?_, hanswered⟩, hdamaged, ?_, ?_⟩
  · rw [hhanded]
    exact h.number
  · intro _ hnone
    rw [houtstanding] at hnone
    cases hnone
  · intro _ other entry hentry
    rw [hrunning] at hentry
    by_cases hother : other = id
    · subst hother
      rw [Function.update_self] at hentry
      cases hentry
      exact .inr ⟨houtstanding, hexchanging⟩
    · rw [Function.update_of_ne hother] at hentry
      exact .inl (hothers other entry hentry hother)

/-- The operation that is past its first byte is the only one. -/
theorem State.InStep.others (h : state.InStep) (houtstanding : state.outstanding = some id ∨
      state.outstanding = none) (hconnected : state.connected = true) (other : ℕ) (entry : Running)
    (hentry : state.running other = some entry) (hother : other ≠ id) : entry.Fresh := by
  rcases h.running hconnected other entry hentry with hfresh | ⟨hsome, -⟩
  · exact hfresh
  · rcases houtstanding with houtstanding | houtstanding
    · rw [houtstanding] at hsome
      cases hsome
      exact absurd rfl hother
    · rw [houtstanding] at hsome
      cases hsome

theorem State.InStep.write (h : state.InStep) (hrunning : state.running id = some running)
    {left : Bytes} (hphase : running.phase = .sending left) (hconnected : state.connected = true)
    (count : ℕ) (horderly : running.Fresh → state.outstanding = none) :
    (state.write id running left count).InStep := by
  have hwire : state.pending = [] ∧ state.inbound = [] ∧ state.answered = state.delivered ∧
      (left = running.request.serialize → state.partWritten = false) ∧
        (state.outstanding = some id ∨ state.outstanding = none) := by
    by_cases hfresh : running.Fresh
    · have hnone := horderly hfresh
      obtain ⟨hpart, hpending, hinbound, hanswered⟩ := h.silent hconnected hnone
      exact ⟨hpending, hinbound, hanswered, fun _ => hpart, .inr hnone⟩
    · rcases h.running hconnected id running hrunning with hfresh' | ⟨hsome, hexchanging⟩
      · exact absurd hfresh' hfresh
      · unfold Running.Exchanging at hexchanging
        rw [hphase] at hexchanging
        obtain ⟨hpending, hinbound, hanswered⟩ := hexchanging
        refine ⟨hpending, hinbound, hanswered, fun hleft => ?_, .inl hsome⟩
        exact absurd (hphase.trans (congrArg Phase.sending hleft)) hfresh
  obtain ⟨hpending, hinbound, hanswered, hpart, houtstanding⟩ := hwire
  have hdamaged : (state.damaged || (decide (left = running.request.serialize) &&
      state.partWritten)) = false := by
    rw [h.damaged]
    by_cases hleft : left = running.request.serialize
    · rw [hpart hleft, Bool.and_false, Bool.false_or]
    · simp [hleft]
  refine h.exchange (h.others houtstanding hconnected) rfl hdamaged rfl h.answer rfl ?_
  unfold State.write
  dsimp only
  rw [hdamaged]
  cases hwhole : (left.drop count).isEmpty with
  | true => exact ⟨rfl, .inl ⟨by simp [hpending], hinbound, rfl, hanswered⟩⟩
  | false => exact ⟨hpending, hinbound, hanswered⟩

theorem State.InStep.flush (h : state.InStep) (hrunning : state.running id = some running)
    (hphase : running.phase = .flushing) (hconnected : state.connected = true) :
    (state.set id (some { running with phase := .reading [] })).InStep := by
  rcases h.running hconnected id running hrunning with hfresh | ⟨hsome, hexchanging⟩
  · rw [Running.Fresh, hphase] at hfresh
    cases hfresh
  · unfold Running.Exchanging at hexchanging
    rw [hphase] at hexchanging
    exact h.exchange (h.others (.inl hsome) hconnected) rfl h.damaged rfl h.answer hsome
      hexchanging

/-- The response is handed over, and nothing is left on its way. -/
theorem State.InStep.receive (h : state.InStep) (hconnected : state.connected = true)
    (hsome : state.outstanding = some id) {packet : AfcPacket}
    (hnumber : packet.header.packetNum = running.request.header.packetNum)
    (hpart : state.partWritten = false) (hpending : state.pending = [])
    (hanswered : state.answered = state.delivered ++ [(running.request, packet.serialize)]) :
    ({ state with inbound := [] }.receive id running packet).InStep := by
  have hmatched : ({ state with
      inbound := []
      outstanding := none
      handed := state.handed ++ [(running.request, packet)] }).Matched := by
    constructor
    · intro request response hmem
      rcases List.mem_append.mp hmem with hmem | hlast
      · exact h.number request response hmem
      · cases List.mem_singleton.mp hlast
        exact hnumber
    · show List.IsPrefix (List.map _ (state.handed ++ [(running.request, packet)])) state.answered
      rw [List.map_append, hanswered]
      exact List.prefix_refl _
  have hset : (({ state with
      inbound := []
      outstanding := none
      handed := state.handed ++ [(running.request, packet)] }).set id none).InStep := by
    refine ⟨⟨hmatched.number, hmatched.answer⟩, h.damaged, ?_, ?_⟩
    · intro _ _
      refine ⟨hpart, hpending, rfl, hanswered.trans ?_⟩
      simp [State.delivered, State.set]
    · intro _ other entry hentry
      by_cases hother : other = id
      · subst hother
        simp [State.set] at hentry
      · have hbefore : state.running other = some entry := by
          simpa [State.set, Function.update_of_ne hother] using hentry
        exact .inl (h.others (.inl hsome) hconnected other entry hbefore hother)
  unfold State.receive
  dsimp only
  split
  · split
    · exact hmatched.invalidate h.damaged id
    · split
      · exact hset.launch _
      · exact hset
  · exact hset.launch _

theorem State.InStep.read (h : state.InStep) (hrunning : state.running id = some running)
    {got : Bytes} (hphase : running.phase = .reading got) (hconnected : state.connected = true)
    {count : ℕ} (hcount : 0 < count ∧ count ≤ state.inbound.length) :
    (state.read id running got count).InStep := by
  rcases h.running hconnected id running hrunning with hfresh | ⟨hsome, hexchanging⟩
  · rw [Running.Fresh, hphase] at hfresh
    cases hfresh
  unfold Running.Exchanging at hexchanging
  rw [hphase] at hexchanging
  obtain ⟨hpart, ⟨-, hinbound, -, -⟩ | ⟨hpending, reply, hanswered, hbytes⟩⟩ := hexchanging
  · rw [hinbound, List.length_nil] at hcount
    omega
  have hsplit : (got ++ state.inbound.take count) ++ state.inbound.drop count =
      reply.bytes running.request.header.packetNum := by
    rw [List.append_assoc, List.take_append_drop, hbytes]
  have hread := read_reply ⟨_, hsplit⟩
  unfold State.read
  dsimp only
  cases hprogress : AfcPacket.read (got ++ state.inbound.take count) with
  | more wanted =>
    exact h.exchange (h.others (.inl hsome) hconnected) rfl h.damaged rfl h.answer hsome
      ⟨hpart, .inr ⟨hpending, reply, hanswered, hsplit⟩⟩
  | packet packet =>
    rw [hprogress] at hread
    obtain ⟨hwhole, hnumber⟩ := hread
    have hserialize := serialize_of_read hprogress
    have hrest : state.inbound.drop count = [] := by
      rw [hwhole] at hsplit
      exact List.append_right_eq_self.mp hsplit
    rw [hrest]
    refine h.receive hconnected hsome hnumber hpart hpending ?_
    rw [hanswered, hserialize, hwhole]
  | failed error =>
    have hmatched : ({ state with inbound := state.inbound.drop count }).Matched :=
      ⟨h.number, h.answer⟩
    exact hmatched.invalidate h.damaged id

theorem State.InStep.replied (h : state.InStep) {reply : Reply}
    (hanswer : state.answer reply = some next) : next.InStep := by
  unfold State.answer at hanswer
  split at hanswer
  · cases hanswer
  rename_i request rest hpending
  cases hanswer
  refine ⟨⟨h.number, h.answer.trans (List.prefix_append _ _)⟩, h.damaged, ?_, ?_⟩
  · intro hconnected hnone
    have hsilent := (h.silent hconnected hnone).pending
    rw [hsilent] at hpending
    cases hpending
  · intro hconnected other entry hentry
    rcases h.running hconnected other entry hentry with hfresh | ⟨hsome, hexchanging⟩
    · exact .inl hfresh
    refine .inr ⟨hsome, ?_⟩
    have hawaiting : ∀ got, entry.Awaiting got state → entry.Awaiting got { state with
        pending := rest
        inbound := state.inbound ++ reply.bytes request.header.packetNum
        answered := state.answered ++ [(request, reply.bytes request.header.packetNum)] } := by
      intro got hgot
      rcases hgot with ⟨hone, hinbound, hnothing, hanswered⟩ | ⟨hnone, -⟩
      · rw [hone] at hpending
        cases hpending
        refine .inr ⟨rfl, reply, ?_, ?_⟩
        · exact congrArg (· ++ _) hanswered
        · rw [hnothing, hinbound]
          rfl
      · rw [hnone] at hpending
        cases hpending
    unfold Running.Exchanging at hexchanging ⊢
    cases hphase : entry.phase with
    | sending left =>
      rw [hphase] at hexchanging
      rw [hexchanging.1] at hpending
      cases hpending
    | flushing =>
      rw [hphase] at hexchanging
      exact ⟨hexchanging.1, hawaiting [] hexchanging.2⟩
    | reading got =>
      rw [hphase] at hexchanging
      exact ⟨hexchanging.1, hawaiting got hexchanging.2⟩

theorem State.InStep.poll (h : state.InStep) (hrunning : state.running id = some running)
    {event : Event} (horderly : Begins state (.poll id event) → state.outstanding = none)
    (hpoll : state.poll id running event = some next) : next.InStep := by
  cases event with
  | write count =>
    dsimp only [State.poll] at hpoll
    split at hpoll
    · rename_i left hphase
      split at hpoll
      · cases hpoll
        exact h.toMatched.invalidate h.damaged id
      · rename_i hconnected
        split at hpoll
        · cases hpoll
          refine h.write hrunning hphase (not_not.mp hconnected) count fun hfresh => ?_
          exact horderly ⟨running, hrunning, hfresh⟩
        · cases hpoll
    · cases hpoll
  | flush =>
    dsimp only [State.poll] at hpoll
    split at hpoll
    · rename_i hphase
      split at hpoll
      · cases hpoll
        exact h.toMatched.invalidate h.damaged id
      · rename_i hconnected
        cases hpoll
        exact h.flush hrunning hphase (not_not.mp hconnected)
    · cases hpoll
  | read count =>
    dsimp only [State.poll] at hpoll
    split at hpoll
    · rename_i got hphase
      split at hpoll
      · cases hpoll
        exact h.toMatched.invalidate h.damaged id
      · rename_i hconnected
        split at hpoll
        · split at hpoll
          · rename_i hcount
            cases hpoll
            exact h.read hrunning hphase (not_not.mp hconnected) ⟨hcount.1, hcount.2.2⟩
          · cases hpoll
        · cases hpoll
    · cases hpoll
  | fail =>
    cases hpoll
    exact h.toMatched.invalidate h.damaged id
  | drop =>
    cases hpoll
    exact h.set_none id

theorem State.InStep.step (h : state.InStep) {action : Action}
    (horderly : Begins state action → state.outstanding = none)
    (hstep : Afc.step state action = some next) : next.InStep := by
  cases action with
  | start id call =>
    dsimp only [Afc.step] at hstep
    split at hstep
    · cases hstep
      exact (h.set_none id).launch call.task
    · cases hstep
  | poll id event =>
    obtain ⟨running, hrunning, hpoll⟩ := Option.bind_eq_some_iff.mp hstep
    exact h.poll hrunning horderly hpoll
  | answer reply => exact h.replied hstep
  | noise bytes =>
    dsimp only [Afc.step] at hstep
    rw [h.damaged] at hstep
    cases hstep

end Steps

theorem State.InStep.run {actions : List Action} {state next : State} (h : state.InStep)
    (horderly : Orderly state actions) (hrun : Afc.run state actions = some next) : next.InStep := by
  induction actions generalizing state with
  | nil =>
    cases hrun
    exact h
  | cons action rest ih =>
    obtain ⟨middle, hstep, hrest⟩ := Option.bind_eq_some_iff.mp hrun
    exact ih (h.step horderly.1 hstep) (horderly.2 middle hstep) hrest

/-- Every response goes to the operation whose request it answers, as long as no request
is begun while the response to an earlier one has not been read. -/
theorem responses_matched (actions : List Action) (state : State)
    (hrun : run .new actions = some state) (horderly : Orderly .new actions) : state.Matched :=
  (InStep.new.run horderly hrun).toMatched

/-- The status of success. -/
def success : Reply where
  magic := magic
  operation := AfcOpcode.status.value
  headerPayload := List.replicate 8 0
  payload := []
  words_lt := by decide
  length_lt := by decide

/-- An operation is dropped once its request is sent, and another one reads the response. -/
def abandoned : List Action :=
  [.start 0 (.mkDir [97]), .poll 0 (.write 41), .poll 0 .flush, .poll 0 .drop,
    .start 1 (.remove [98]), .poll 1 (.write 41), .poll 1 .flush, .answer success,
    .poll 1 (.read 40), .poll 1 (.read 8)]

theorem abandoned_mismatched :
    ¬ ∀ actions state, run .new actions = some state → state.Matched := by
  intro h
  obtain ⟨state, hrun, hnumbers⟩ : ∃ state, run .new abandoned = some state ∧
      state.handed.map (fun entry => (entry.1.header.packetNum, entry.2.header.packetNum)) =
        [(1, 0)] := ⟨_, rfl, rfl⟩
  obtain ⟨entry, hhanded, hentry⟩ := List.map_eq_singleton_iff.mp hnumbers
  have hnumber := (h abandoned state hrun).number entry.1 entry.2 (by simp [hhanded])
  obtain ⟨hrequest, hresponse⟩ := Prod.mk.inj hentry
  rw [hrequest, hresponse] at hnumber
  cases hnumber

/-- The same request, waited for. -/
def awaited : List Action :=
  [.start 0 (.mkDir [97]), .poll 0 (.write 41), .poll 0 .flush, .answer success,
    .poll 0 (.read 40), .poll 0 (.read 8)]

theorem responses_matched_awaited :
    ∃ state, run .new awaited = some state ∧ Orderly .new awaited ∧ state.Matched := by
  have horderly : Orderly .new awaited := by
    refine ⟨nofun, fun s₁ h₁ => ⟨fun _ => ?_, fun s₂ h₂ => ⟨nofun, fun s₃ h₃ =>
      ⟨nofun, fun s₄ h₄ => ⟨nofun, fun s₅ h₅ => ⟨nofun, fun _ _ => True.intro⟩⟩⟩⟩⟩⟩
    cases h₁
    rfl
  obtain ⟨state, hrun⟩ : ∃ state, run .new awaited = some state := ⟨_, rfl⟩
  exact ⟨state, hrun, horderly, responses_matched awaited state hrun horderly⟩

end XitForge.Afc
