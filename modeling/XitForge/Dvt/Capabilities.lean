import XitForge.StepRuns
import XitForge.Dvt.ChannelQueue

/-!
The capability handshake of a DTX connection. The reader task stores the capabilities
that the peer publishes and then wakes the waiters; `perform_handshake` looks at the
state in one lock section, writes it in a second one and then waits in a loop.
-/
namespace XitForge.Dvt.Handshake

open RustEval
open StepRuns (Along run_along run_invariant)
open Xpc (PlistValue)

abbrev Dictionary := List (String × PlistValue)

inductive CapabilityHandshakeState where
  | pending
  | skipped
  | received (capabilities : Dictionary)

/-- What `decode_capabilities` returns for the first auxiliary value of a message. -/
def publishedCapabilities (archive : Archive) (message : Message) : Option Dictionary :=
  match (message.aux.map Aux.values).getD [] with
  | .array bytes :: _ =>
    match archive bytes with
    | some (.dictionary entries) => some entries
    | _ => none
  | _ => none

theorem exists_of_decodeCapabilities {archive : Archive} {value : AuxValue}
    (h : decodeCapabilities archive value = true) :
    ∃ bytes entries, value = .array bytes ∧ archive bytes = some (.dictionary entries) := by
  cases value with
  | array bytes =>
    dsimp only [decodeCapabilities] at h
    cases harchive : archive bytes with
    | none =>
      rw [harchive] at h
      cases h
    | some object =>
      rw [harchive] at h
      cases object with
      | dictionary entries => exact ⟨bytes, entries, rfl, harchive⟩
      | _ => cases h
  | _ => cases h

/-- A message is taken for a notification only if its capabilities can be decoded. -/
theorem publishedCapabilities_isSome {checks : Bool} {archive : Archive} {message : Message}
    (h : handleControlMessage checks archive message = .ok .capabilities) :
    (publishedCapabilities archive message).isSome = true := by
  unfold handleControlMessage at h
  unfold publishedCapabilities
  split at h
  · cases h
  · split at h
    · dsimp only at h
      split_ifs at h
      · split at h
        · cases h
        · rename_i first hfirst
          obtain ⟨rest, hvalues⟩ := List.head?_eq_some_iff.mp hfirst
          have hdecoded : decodeCapabilities archive first = true := by
            by_contra hnot
            rw [if_neg hnot] at h
            cases h
          obtain ⟨bytes, entries, hbytes, harchive⟩ := exists_of_decodeCapabilities hdecoded
          rw [hvalues, hbytes]
          dsimp only
          rw [harchive]
          rfl
      · split at h
        · cases h
        · split at h
          · cases h
          · cases h
      · split at h
        · obtain ⟨code, -, hcode⟩ := Eval.bind_eq_ok.mp h
          split at hcode
          · cases hcode
          · cases hcode
        · cases h
      · cases h
    · cases h

/-- The next step of the reader task. -/
inductive ReaderPhase where
  | reading
  /-- The lock section of `supported_identifiers`. -/
  | storing (capabilities : Dictionary)
  /-- `handshake_notify.notify_waiters()`. -/
  | notifying
  /-- `closed.store(true)`, after which the task ends or goes on reading. -/
  | closing (ends : Bool)
  /-- `closed_notify.notify_waiters()`. -/
  | notifyingClosed (ends : Bool)
  /-- The task has ended, or panicked. -/
  | ended

inductive HandshakeResult where
  | ok (capabilities : Option Dictionary)
  /-- The message could not be written. -/
  | writeFailed
  | closed
  | timedOut

/-- The next step of a caller of `perform_handshake`. -/
inductive CallerPhase where
  | idle
  /-- The lock section of `supported_identifiers()`. -/
  | looking
  /-- The lock section that writes the state. -/
  | overwriting (alreadyReceived : Option Dictionary)
  /-- `call_method` on the root channel. -/
  | calling (alreadyReceived : Option Dictionary)
  /-- The lock section of the loop. -/
  | checking
  /-- `closed.load()`. -/
  | loading
  /-- `handshake_notify.notified()`. -/
  | registering
  /-- `closed_notify.notified()`; the first future may be woken already. -/
  | registeringClosed (woken : Bool)
  /-- `select!` of the two futures. -/
  | waiting (woken closedWoken : Bool)
  | returned (result : HandshakeResult)

structure State where
  supportedIdentifiers : CapabilityHandshakeState
  closed : Bool
  reader : ReaderPhase
  caller : CallerPhase
  /-- The reader has stored capabilities. -/
  stored : Bool

/-- `RemoteServerShared::new`. -/
def State.new : State where
  supportedIdentifiers := .pending
  closed := false
  reader := .reading
  caller := .idle
  stored := false

/-- `notify_waiters` of `handshake_notify`: only a future that exists is woken. -/
def CallerPhase.notify : CallerPhase → CallerPhase
  | .registeringClosed _ => .registeringClosed true
  | .waiting _ closedWoken => .waiting true closedWoken
  | phase => phase

/-- `notify_waiters` of `closed_notify`. -/
def CallerPhase.notifyClosed : CallerPhase → CallerPhase
  | .waiting woken _ => .waiting woken true
  | phase => phase

/-- The loop of `spawn_reader`, from a message to the first step for it that concerns
the handshake. -/
def dispatch (checks : Bool) (archive : Archive) : Incoming → ReaderPhase
  | .error => .closing true
  | .panic => .ended
  | .message message correlated _ acknowledged =>
    -- `dispatch_pending_reply`
    if message.messageHeader.conversationIndex ≠ 0 ∧ correlated = true then .reading
    else
      match handleControlMessage checks archive message with
      | .ok .capabilities =>
        match publishedCapabilities archive message with
        | some capabilities => .storing capabilities
        | none => .reading
      | .ok (.requestChannel _) => if acknowledged then .reading else .closing false
      | .ok _ => .reading
      | .err _ => .ended
      | .panic => .ended

/-- The state that `perform_handshake` writes. -/
def overwritten : Option Dictionary → Option Dictionary → CapabilityHandshakeState
  | none, _ => .skipped
  | some _, some capabilities => .received capabilities
  | some _, none => .pending

inductive Action where
  | incoming (incoming : Incoming)
  | reader
  /-- `perform_handshake` is called. -/
  | call
  | caller
  /-- `call_method` returns. -/
  | called (written : Bool)
  /-- `select!` takes the branch of `handshake_notify`, or that of `closed_notify`. -/
  | wake
  | wakeClosed
  | timeout

/-- A step of the reader task for the message it has. -/
def readerStep (state : State) : Option State :=
  match state.reader with
  | .reading => none
  | .storing capabilities => some { state with
      supportedIdentifiers := .received capabilities
      reader := .notifying
      stored := true }
  | .notifying => some { state with reader := .reading, caller := state.caller.notify }
  | .closing ends => some { state with closed := true, reader := .notifyingClosed ends }
  | .notifyingClosed ends => some { state with
      reader := if ends then .ended else .reading
      caller := state.caller.notifyClosed }
  | .ended => none

/-- A step of `perform_handshake`. -/
def callerStep (capabilities : Option Dictionary) (state : State) : Option State :=
  match state.caller with
  | .looking =>
    match state.supportedIdentifiers with
    | .received already => some { state with caller := .overwriting (some already) }
    | _ => some { state with caller := .overwriting none }
  | .overwriting already => some { state with
      supportedIdentifiers := overwritten capabilities already
      caller := if capabilities.isSome then .calling already else .returned (.ok none) }
  | .checking =>
    match state.supportedIdentifiers with
    | .received capabilities => some { state with caller := .returned (.ok (some capabilities)) }
    | .skipped => some { state with caller := .returned (.ok none) }
    | .pending => some { state with caller := .loading }
  | .loading => some { state with
      caller := if state.closed then .returned .closed else .registering }
  | .registering => some { state with caller := .registeringClosed false }
  | .registeringClosed woken => some { state with caller := .waiting woken false }
  | _ => none

/-- The build, the archive reader and the capabilities that the caller passes. -/
structure Setup where
  checks : Bool
  archive : Archive
  capabilities : Option Dictionary

def step (setup : Setup) (state : State) : Action → Option State
  | .incoming incoming =>
    match state.reader with
    | .reading => some { state with reader := dispatch setup.checks setup.archive incoming }
    | _ => none
  | .reader => readerStep state
  | .call =>
    match state.caller with
    | .idle => some { state with caller := .looking }
    | _ => none
  | .caller => callerStep setup.capabilities state
  | .called written =>
    match state.caller with
    | .calling already => some { state with
        caller := if written then already.elim .checking fun capabilities =>
            .returned (.ok (some capabilities))
          else .returned .writeFailed }
    | _ => none
  | .wake =>
    match state.caller with
    | .waiting true _ => some { state with caller := .checking }
    | _ => none
  | .wakeClosed =>
    match state.caller with
    | .waiting _ true => some { state with caller := .returned .closed }
    | _ => none
  | .timeout =>
    match state.caller with
    | .checking => some { state with caller := .returned .timedOut }
    | .waiting _ _ => some { state with caller := .returned .timedOut }
    | _ => none

abbrev run (setup : Setup) : State → List Action → Option State := StepRuns.run (step setup)

namespace State

def Returned (state : State) : Prop := ∃ result, state.caller = .returned result

/-- Capabilities were stored, and the state no longer has any. -/
def Forgotten (state : State) : Prop :=
  state.stored = true ∧ ¬ state.Returned ∧
    ∀ capabilities, state.supportedIdentifiers ≠ .received capabilities

/-- Capabilities were stored, and the caller waits for another notification. -/
def Stranded (state : State) : Prop :=
  state.stored = true ∧ state.caller = .waiting false false ∧ state.reader ≠ .notifying

/-- The reader is about to store what the caller is about to overwrite, or to wake the
caller before it has registered. -/
def Overtaking (state : State) : Prop :=
  match state.reader with
  | .storing _ => state.caller = .overwriting none
  | .notifying =>
    (state.caller = .loading ∧ state.closed = false) ∨ state.caller = .registering
  | _ => False

end State

/-- The condition on a step of a run. -/
def Timely (state : State) (action : Action) : Prop := action = .reader → ¬ state.Overtaking

section Invariant

variable {setup : Setup} {state next : State}

/-- What there is to tell the caller, the reader is about to tell. -/
def State.Announced (state : State) : Prop := state.stored = false ∨ state.reader = .notifying

/-- The caller has seen or will be told what there is. -/
def State.Heard (state : State) : Prop :=
  match state.caller with
  | .overwriting none => state.stored = false
  | .loading => state.closed = true ∨ state.Announced
  | .registering => state.Announced
  | .registeringClosed woken => woken = true ∨ state.Announced
  | .waiting woken closedWoken => woken = true ∨ closedWoken = true ∨ state.Announced
  | _ => True

/-- What was stored is there, and the caller will see it. -/
structure State.Kept (state : State) : Prop where
  received : state.stored = true → ∃ capabilities, state.supportedIdentifiers = .received capabilities
  heard : state.Heard

theorem State.Kept.not_forgotten (h : state.Kept) : ¬ state.Forgotten := by
  intro ⟨hstored, _, hnone⟩
  obtain ⟨capabilities, hreceived⟩ := h.received hstored
  exact hnone capabilities hreceived

theorem State.Kept.not_stranded (h : state.Kept) : ¬ state.Stranded := by
  intro ⟨hstored, hcaller, hreader⟩
  have hheard := h.heard
  unfold State.Heard at hheard
  rw [hcaller] at hheard
  have hannounced : state.Announced := by simpa using hheard
  rcases hannounced with hnot | hnotifying
  · rw [hnot] at hstored
    cases hstored
  · exact hreader hnotifying

/-- A step that the caller does not take part in. -/
theorem State.Heard.mono (h : state.Heard) (hcaller : next.caller = state.caller)
    (hstored : state.caller = .overwriting none → next.stored = state.stored)
    (hclosed : state.closed = true → next.closed = true)
    (hannounced : state.Announced → next.Announced) : next.Heard := by
  unfold State.Heard at h ⊢
  rw [hcaller]
  cases hphase : state.caller with
  | overwriting already =>
    cases already with
    | none =>
      rw [hphase] at h
      rw [hstored hphase]
      exact h
    | some capabilities => trivial
  | loading =>
    rw [hphase] at h
    exact h.imp hclosed hannounced
  | registering =>
    rw [hphase] at h
    exact hannounced h
  | registeringClosed woken =>
    rw [hphase] at h
    exact h.imp_right hannounced
  | waiting woken closedWoken =>
    rw [hphase] at h
    exact h.imp_right (Or.imp_right hannounced)
  | _ => trivial

/-- The step of a reader that is not about to wake anybody. -/
theorem State.Kept.quiet (h : state.Kept) (hreader : state.reader ≠ .notifying)
    (hcaller : next.caller = state.caller) (hstored : next.stored = state.stored)
    (hclosed : state.closed = true → next.closed = true)
    (hsupported : next.supportedIdentifiers = state.supportedIdentifiers) : next.Kept := by
  constructor
  · rw [hstored, hsupported]
    exact h.received
  · apply h.heard.mono hcaller (fun _ => hstored) hclosed
    intro hannounced
    left
    rw [hstored]
    exact hannounced.resolve_right hreader

theorem kept_storing {capabilities : Dictionary} (h : state.Kept)
    (hreader : state.reader = .storing capabilities) (htimely : ¬ state.Overtaking) :
    State.Kept { state with
      supportedIdentifiers := .received capabilities
      reader := .notifying
      stored := true } := by
  simp only [State.Overtaking, hreader] at htimely
  constructor
  · intro _
    exact ⟨capabilities, rfl⟩
  · refine h.heard.mono rfl ?_ id ?_
    · intro hcaller
      exact absurd hcaller htimely
    · intro _
      exact Or.inr rfl

/-- Waiters that are registered are woken, and no others are needed. -/
theorem kept_notifying (h : state.Kept) (hreader : state.reader = .notifying)
    (htimely : ¬ state.Overtaking) :
    State.Kept { state with reader := .reading, caller := state.caller.notify } := by
  have hheard := h.heard
  simp only [State.Overtaking, hreader, not_or, not_and] at htimely
  refine ⟨h.received, ?_⟩
  unfold State.Heard at hheard ⊢
  cases hphase : state.caller with
  | overwriting already =>
    rw [hphase] at hheard
    cases already with
    | none => exact hheard
    | some capabilities => trivial
  | loading => exact Or.inl (by simpa using htimely.1 hphase)
  | registering => exact absurd hphase htimely.2
  | registeringClosed woken => exact Or.inl rfl
  | waiting woken closedWoken => exact Or.inl rfl
  | _ => trivial

theorem kept_notifyingClosed {ends : Bool} (h : state.Kept)
    (hreader : state.reader = .notifyingClosed ends) :
    State.Kept { state with
      reader := if ends then .ended else .reading
      caller := state.caller.notifyClosed } := by
  have hquiet : State.Kept { state with reader := if ends then .ended else .reading } :=
    h.quiet (by simp [hreader]) rfl rfl id rfl
  have hheard := hquiet.heard
  refine ⟨hquiet.received, ?_⟩
  unfold State.Heard at hheard ⊢
  simp only at hheard ⊢
  cases hphase : state.caller with
  | overwriting already =>
    rw [hphase] at hheard
    cases already with
    | none => exact hheard
    | some capabilities => trivial
  | loading =>
    rw [hphase] at hheard
    exact hheard
  | registering =>
    rw [hphase] at hheard
    exact hheard
  | registeringClosed woken =>
    rw [hphase] at hheard
    exact hheard
  | waiting woken closedWoken => exact Or.inr (Or.inl rfl)
  | _ => trivial

theorem kept_reader (h : state.Kept) (htimely : ¬ state.Overtaking)
    (hstep : readerStep state = some next) : next.Kept := by
  unfold readerStep at hstep
  cases hreader : state.reader with
  | reading => simp [hreader] at hstep
  | ended => simp [hreader] at hstep
  | storing capabilities =>
    simp only [hreader, Option.some.injEq] at hstep
    rw [← hstep]
    exact kept_storing h hreader htimely
  | notifying =>
    simp only [hreader, Option.some.injEq] at hstep
    rw [← hstep]
    exact kept_notifying h hreader htimely
  | closing ends =>
    simp only [hreader, Option.some.injEq] at hstep
    rw [← hstep]
    exact h.quiet (by simp [hreader]) rfl rfl (fun _ => rfl) rfl
  | notifyingClosed ends =>
    simp only [hreader, Option.some.injEq] at hstep
    rw [← hstep]
    exact kept_notifyingClosed h hreader

/-- Where the state has no capabilities, none were stored. -/
theorem State.Kept.unstored (h : state.Kept)
    (hnone : ∀ capabilities, state.supportedIdentifiers ≠ .received capabilities) :
    state.stored = false := by
  rw [Bool.eq_false_iff]
  intro hstored
  obtain ⟨capabilities, hreceived⟩ := h.received hstored
  exact hnone capabilities hreceived

/-- The caller overwrites and waits only for what it has looked at. -/
theorem kept_caller {capabilities : Dictionary} (h : state.Kept)
    (hstep : callerStep (some capabilities) state = some next) : next.Kept := by
  have hheard := h.heard
  unfold State.Heard at hheard
  unfold callerStep at hstep
  cases hphase : state.caller with
  | looking =>
    simp only [hphase] at hstep
    split at hstep
    · cases hstep
      exact ⟨h.received, trivial⟩
    · rename_i hnone
      cases hstep
      exact ⟨h.received, h.unstored hnone⟩
  | overwriting already =>
    simp only [hphase, Option.some.injEq, Option.isSome_some, if_true] at hheard hstep
    rw [← hstep]
    refine ⟨?_, trivial⟩
    intro hstored
    cases already with
    | some received => exact ⟨received, rfl⟩
    | none =>
      rw [hheard] at hstored
      cases hstored
  | checking =>
    simp only [hphase] at hstep
    split at hstep
    · cases hstep
      exact ⟨h.received, trivial⟩
    · cases hstep
      exact ⟨h.received, trivial⟩
    · rename_i hpending
      cases hstep
      exact ⟨h.received, Or.inr (Or.inl (h.unstored (by simp [hpending])))⟩
  | loading =>
    simp only [hphase, Option.some.injEq] at hheard hstep
    rw [← hstep]
    refine ⟨h.received, ?_⟩
    by_cases hclosed : state.closed = true
    · simp [State.Heard, hclosed]
    · simp only [State.Heard, hclosed]
      exact hheard.resolve_left hclosed
  | registering =>
    simp only [hphase, Option.some.injEq] at hheard hstep
    rw [← hstep]
    exact ⟨h.received, Or.inr hheard⟩
  | registeringClosed woken =>
    simp only [hphase, Option.some.injEq] at hheard hstep
    rw [← hstep]
    exact ⟨h.received, hheard.imp_right Or.inr⟩
  | _ => simp [hphase] at hstep

theorem kept_step {capabilities : Dictionary} {action : Action}
    (hsetup : setup.capabilities = some capabilities) (h : state.Kept)
    (htimely : Timely state action) (hstep : step setup state action = some next) : next.Kept := by
  cases action with
  | incoming incoming =>
    simp only [step] at hstep
    split at hstep
    · rename_i hreader
      cases hstep
      exact h.quiet (by simp [hreader]) rfl rfl id rfl
    · cases hstep
  | reader => exact kept_reader h (htimely rfl) hstep
  | caller =>
    simp only [step, hsetup] at hstep
    exact kept_caller h hstep
  | called written =>
    simp only [step] at hstep
    split at hstep
    · rename_i already hcaller
      cases hstep
      refine ⟨h.received, ?_⟩
      cases written
      · trivial
      · cases already
        · trivial
        · trivial
    · cases hstep
  | _ =>
    -- the caller has not looked at anything yet, or returns
    simp only [step] at hstep
    split at hstep
    all_goals first | (cases hstep; exact ⟨h.received, trivial⟩) | cases hstep

end Invariant

section Lost

variable {setup : Setup} {state next : State}

/-- The reader wakes the waiters only after it has stored something. -/
def State.Told (state : State) : Prop := state.reader = .notifying → state.stored = true

theorem State.told_of_ne (h : state.reader ≠ .notifying) : state.Told :=
  fun hreader => absurd hreader h

theorem dispatch_ne_notifying (incoming : Incoming) :
    dispatch setup.checks setup.archive incoming ≠ .notifying := by
  cases incoming with
  | error => simp [dispatch]
  | panic => simp [dispatch]
  | message message correlated handled acknowledged =>
    simp only [dispatch]
    split
    · simp
    · split
      · split
        · simp
        · simp
      · split
        · simp
        · simp
      · simp
      · simp
      · simp

theorem told_reader (hstep : readerStep state = some next) : next.Told := by
  unfold readerStep at hstep
  split at hstep
  · cases hstep
  · cases hstep
    exact fun _ => rfl
  · cases hstep
    exact State.told_of_ne (by simp)
  · cases hstep
    exact State.told_of_ne (by simp)
  · rename_i ends _
    cases hstep
    apply State.told_of_ne
    cases ends
    · simp
    · simp
  · cases hstep

/-- The caller does not act for the reader. -/
theorem callerStep_frame {capabilities : Option Dictionary}
    (hstep : callerStep capabilities state = some next) :
    next.reader = state.reader ∧ next.stored = state.stored := by
  unfold callerStep at hstep
  split at hstep
  · split at hstep
    · cases hstep
      exact ⟨rfl, rfl⟩
    · cases hstep
      exact ⟨rfl, rfl⟩
  · cases hstep
    exact ⟨rfl, rfl⟩
  · split at hstep
    · cases hstep
      exact ⟨rfl, rfl⟩
    · cases hstep
      exact ⟨rfl, rfl⟩
    · cases hstep
      exact ⟨rfl, rfl⟩
  · cases hstep
    exact ⟨rfl, rfl⟩
  · cases hstep
    exact ⟨rfl, rfl⟩
  · cases hstep
    exact ⟨rfl, rfl⟩
  · cases hstep

theorem told_step {action : Action} (h : state.Told) (hstep : step setup state action = some next) :
    next.Told := by
  cases action with
  | incoming incoming =>
    simp only [step] at hstep
    split at hstep
    · cases hstep
      exact State.told_of_ne (dispatch_ne_notifying incoming)
    · cases hstep
  | reader => exact told_reader hstep
  | caller =>
    obtain ⟨hreader, hstored⟩ := callerStep_frame hstep
    unfold State.Told
    rw [hreader, hstored]
    exact h
  | _ =>
    simp only [step] at hstep
    split at hstep
    all_goals first | (cases hstep; exact h) | cases hstep

/-- What the reader stores before the caller writes is overwritten. -/
theorem forgotten_of_storing {published capabilities : Dictionary}
    (hsetup : setup.capabilities = some capabilities)
    (hreader : state.reader = .storing published) (hcaller : state.caller = .overwriting none) :
    ∃ next, run setup state [.reader, .caller] = some next ∧ next.Forgotten := by
  refine ⟨{ state with
    supportedIdentifiers := .pending
    reader := .notifying
    stored := true
    caller := .calling none }, ?_, rfl, ?_, ?_⟩
  · simp [StepRuns.run, step, readerStep, callerStep, overwritten, hsetup, hreader, hcaller]
  · intro ⟨result, hresult⟩
    cases hresult
  · intro received hreceived
    cases hreceived

/-- A wakeup that the caller does not hear: it registers after it and waits. -/
theorem stranded_of_notifying (htold : state.Told) (hreader : state.reader = .notifying)
    (hcaller : (state.caller = .loading ∧ state.closed = false) ∨ state.caller = .registering) :
    ∃ rest next, run setup state (.reader :: rest) = some next ∧ next.Stranded := by
  have hstranded : State.Stranded
      { state with reader := .reading, caller := .waiting false false } :=
    ⟨htold hreader, rfl, by simp⟩
  rcases hcaller with ⟨hcaller, hopen⟩ | hcaller
  · refine ⟨[.caller, .caller, .caller], _, ?_, hstranded⟩
    simp [StepRuns.run, step, readerStep, callerStep, CallerPhase.notify, hreader, hcaller, hopen]
  · refine ⟨[.caller, .caller], _, ?_, hstranded⟩
    simp [StepRuns.run, step, readerStep, callerStep, CallerPhase.notify, hreader, hcaller]

theorem lost_of_overtaking {capabilities : Dictionary}
    (hsetup : setup.capabilities = some capabilities) (htold : state.Told)
    (h : state.Overtaking) :
    ∃ rest next, run setup state (.reader :: rest) = some next ∧
      (next.Forgotten ∨ next.Stranded) := by
  unfold State.Overtaking at h
  cases hreader : state.reader with
  | storing published =>
    rw [hreader] at h
    obtain ⟨next, hrun, hforgotten⟩ := forgotten_of_storing hsetup hreader h
    exact ⟨[.caller], next, hrun, Or.inl hforgotten⟩
  | notifying =>
    rw [hreader] at h
    obtain ⟨rest, next, hrun, hstranded⟩ := stranded_of_notifying htold hreader h
    exact ⟨rest, next, hrun, Or.inr hstranded⟩
  | _ =>
    rw [hreader] at h
    exact h.elim

end Lost

/-- Stored capabilities stay, and the caller does not wait for others, as long as the reader
neither stores between the two lock sections of the caller nor wakes it between its last look
and its registration; and where the reader does, the capabilities can be lost. -/
theorem capabilities_kept (checks : Bool) (archive : Archive) (capabilities : Dictionary) :
    (∀ actions state, run ⟨checks, archive, some capabilities⟩ .new actions = some state →
      Along (step ⟨checks, archive, some capabilities⟩) Timely .new actions →
        ¬ state.Forgotten ∧ ¬ state.Stranded) ∧
    ∀ actions state, run ⟨checks, archive, some capabilities⟩ .new actions = some state →
      state.Overtaking → ∃ rest next,
        run ⟨checks, archive, some capabilities⟩ state (.reader :: rest) = some next ∧
          (next.Forgotten ∨ next.Stranded) := by
  constructor
  · intro actions state hrun htimely
    have hnew : State.new.Kept := by
      constructor
      · intro hstored
        cases hstored
      · trivial
    have hkept := run_along (fun _ _ _ => kept_step rfl) hnew htimely hrun
    exact ⟨hkept.not_forgotten, hkept.not_stranded⟩
  · intro actions state hrun hovertaking
    have hnew : State.new.Told := State.told_of_ne (by simp [State.new])
    have htold := run_invariant (fun _ _ _ => told_step) hnew hrun
    exact lost_of_overtaking rfl htold hovertaking

/-- The peer publishes an empty dictionary. -/
def hello : Message where
  messageHeader := ⟨0x1F3D5B79, 32, 0, 1, 16, 1, 0, 0, false⟩
  payloadHeader := ⟨2, 0, 0, 0, 0, 0, 0⟩
  aux := some ⟨{}, [.array []]⟩
  data := some (.string "_notifyOfPublishedCapabilities:")
  rawData := none

/-- The capabilities arrive between the two lock sections of the caller. -/
def betweenSections : List Action :=
  [.call, .caller, .incoming (.message hello false false false), .reader, .caller]

theorem betweenSections_forgotten :
    ¬ ∀ checks archive capabilities actions state,
      run ⟨checks, archive, some capabilities⟩ .new actions = some state →
        ¬ state.Forgotten ∧ ¬ state.Stranded := by
  intro h
  obtain ⟨state, hrun⟩ : ∃ state, run ⟨true, fun _ => some (.dictionary []), some []⟩ .new
      betweenSections = some state := ⟨_, rfl⟩
  apply (h true (fun _ => some (.dictionary [])) [] betweenSections state hrun).1
  cases hrun
  refine ⟨rfl, ?_, nofun⟩
  intro ⟨result, hresult⟩
  cases hresult

end XitForge.Dvt.Handshake
