import Mathlib.Logic.Function.Basic
import XitForge.Dvt.Message

/-!
The queues of a DTX connection. The reader task appends a message to the queue of
its channel and then wakes the waiters registered at that moment; a caller of
`read_message` looks at the queue and at the closed flag, then registers.
-/
namespace XitForge.Dvt

open RustEval

/-- What `handle_control_message` does with a message. -/
inductive Control where
  /-- It returns `false`. -/
  | unrelated
  /-- It returns `true` and does nothing. -/
  | malformed
  | capabilities
  | channelCanceled (code : Int32)
  | requestChannel (code : Int32)
  deriving DecidableEq, Repr

/-- `decode_identifier`. -/
def decodeIdentifier (archive : Archive) : AuxValue → Option String
  | .string text => some text
  | .array bytes =>
    match archive bytes with
    | some (.string text) => some text
    | _ => none
  | _ => none

/-- `decode_capabilities`, whether it succeeds. -/
def decodeCapabilities (archive : Archive) : AuxValue → Bool
  | .array bytes =>
    match archive bytes with
    | some (.dictionary _) => true
    | _ => false
  | _ => false

/-- `decode_channel_code`. -/
def decodeChannelCode : AuxValue → Option Int32
  | .u32 code => if code < 2 ^ 31 then some (Int32.ofNat code) else none
  | .i64 code =>
    if Int32.minValue.toInt ≤ code.toInt ∧ code.toInt ≤ Int32.maxValue.toInt then
      some (Int32.ofInt code.toInt)
    else none
  | _ => none

/-- The selectors that `handle_control_message` looks for. -/
def handleControlMessage (checks : Bool) (archive : Archive) (message : Message) :
    Eval ReadError Control :=
  if message.messageHeader.channel ≠ 0 then return .unrelated
  else
    match message.data with
    | some (.string selector) =>
      let values := (message.aux.map Aux.values).getD []
      if selector = "_notifyOfPublishedCapabilities:" then
        match values.head? with
        | none => return .malformed
        | some first => return if decodeCapabilities archive first then .capabilities else .malformed
      else if selector = "_channelCanceled:" then
        match values.head? with
        | none => return .malformed
        | some first =>
          match decodeChannelCode first with
          | some code => return .channelCanceled code
          | none => return .malformed
      else if selector = "_requestChannelWithCode:identifier:" then
        match values with
        | .u32 code :: identifier :: _ => do
          let code ← negate checks (UInt32.ofNat code).toInt32
          match decodeIdentifier archive identifier with
          | some _ => return .requestChannel code
          | none => return .unrelated
        | _ => return .unrelated
      else return .unrelated
    | _ => return .unrelated

/-- What `Message::from_reader` does for the reader task, and what the rest of the
program has in store for the message. -/
inductive Incoming where
  /-- `correlated`: a call waits for a reply with this identifier. `handled`: the
  handler of the channel takes the message. `acknowledged`: the reply to a channel
  request is written. -/
  | message (message : Message) (correlated handled acknowledged : Bool)
  | error
  | panic

/-- The next step of the reader task. -/
inductive ReaderPhase where
  | reading
  /-- `get_channel_queue_shared` of `enqueue_message`. -/
  | enqueuing (message : Message)
  /-- The lock of the messages of a queue. -/
  | pushing (queue : ℕ) (message : Message)
  /-- `notify.notify_waiters()`. -/
  | notifying (queue : ℕ)
  | removing (code : Int32)
  | registering (code : Int32) (acknowledged : Bool)
  /-- `closed.store(true)`, after which the task ends or goes on reading. -/
  | closing (ends : Bool)
  /-- `closed_notify.notify_waiters()`. -/
  | notifyingClosed (ends : Bool)
  /-- The task has ended, or panicked. -/
  | ended

inductive ReadResult where
  | message (message : Message)
  | unknownChannel
  | closed

/-- The next step of a caller of `read_message`. A queue is an `Arc`: the caller
keeps the one it got, also when the channel is removed. -/
inductive CallerPhase where
  | idle
  | returned (result : ReadResult)
  /-- `get_channel_queue`. -/
  | looking
  /-- The lock of the messages. -/
  | popping (queue : ℕ)
  /-- The queue was empty: `closed.load()`. -/
  | loading (queue : ℕ)
  /-- `queue.notify.notified()`. -/
  | registering (queue : ℕ)
  /-- `closed_notify.notified()`; the first future may be woken already. -/
  | registeringClosed (queue : ℕ) (woken : Bool)
  /-- `select!` of the two futures. -/
  | waiting (queue : ℕ) (woken closedWoken : Bool)

structure State where
  channels : Int32 → Option ℕ
  messages : ℕ → List Message
  /-- The number of queues made so far. -/
  created : ℕ
  closed : Bool
  reader : ReaderPhase
  caller : CallerPhase

/-- `RemoteServerShared::new`, with its root channel. -/
def State.new : State where
  channels := fun code => if code = 0 then some 0 else none
  messages := fun _ => []
  created := 1
  closed := false
  reader := .reading
  caller := .idle

/-- `ensure_channel_registered_shared`. -/
def State.ensureChannelRegistered (state : State) (code : Int32) : State :=
  match state.channels code with
  | some _ => state
  | none => { state with
      channels := Function.update state.channels code (some state.created)
      created := state.created + 1 }

/-- `notify_waiters` of a queue: only a future that exists is woken. -/
def CallerPhase.notify (queue : ℕ) : CallerPhase → CallerPhase
  | .registeringClosed queue' woken => .registeringClosed queue' (woken || queue == queue')
  | .waiting queue' woken closedWoken => .waiting queue' (woken || queue == queue') closedWoken
  | phase => phase

/-- `notify_waiters` of `closed_notify`. -/
def CallerPhase.notifyClosed : CallerPhase → CallerPhase
  | .waiting queue woken _ => .waiting queue woken true
  | phase => phase

/-- The loop of `spawn_reader`, from a message to the first step it takes for it. -/
def dispatch (checks : Bool) (archive : Archive) : Incoming → ReaderPhase
  | .error => .closing true
  | .panic => .ended
  | .message message correlated handled acknowledged =>
    -- `dispatch_pending_reply`
    if message.messageHeader.conversationIndex ≠ 0 ∧ correlated = true then .reading
    else
      match handleControlMessage checks archive message with
      | .ok .malformed => .reading
      | .ok .capabilities => .enqueuing message
      | .ok (.channelCanceled code) => .removing code
      | .ok (.requestChannel code) => .registering code acknowledged
      | .ok .unrelated =>
        -- `dispatch_to_handler`
        if message.messageHeader.conversationIndex = 0 ∧ handled = true then .reading
        else .enqueuing message
      | .err _ => .ended
      | .panic => .ended

inductive Action where
  | incoming (incoming : Incoming)
  | reader
  /-- `read_message` is called. -/
  | call
  | caller
  /-- `select!` takes the branch of the queue, or that of `closed_notify`. -/
  | wake
  | wakeClosed
  /-- The future of the call is dropped at one of its await points. -/
  | dropped
  /-- Another task registers a channel. -/
  | registered (code : Int32)

/-- A step of the reader task for the message it has. -/
def readerStep (state : State) : Option State :=
  match state.reader with
  | .reading => none
  | .enqueuing message =>
    match state.channels message.messageHeader.channel with
    | some queue => some { state with reader := .pushing queue message }
    | none => some { state with reader := .reading }
  | .pushing queue message => some { state with
      messages := Function.update state.messages queue (state.messages queue ++ [message])
      reader := .notifying queue }
  | .notifying queue => some { state with
      reader := .reading
      caller := state.caller.notify queue }
  | .removing code => some { state with
      channels := Function.update state.channels code none
      reader := .reading }
  | .registering code acknowledged => some { state.ensureChannelRegistered code with
      reader := if acknowledged then .reading else .closing false }
  | .closing ends => some { state with closed := true, reader := .notifyingClosed ends }
  | .notifyingClosed ends => some { state with
      reader := if ends then .ended else .reading
      caller := state.caller.notifyClosed }
  | .ended => none

/-- A step of `read_message` on a channel. -/
def callerStep (channel : Int32) (state : State) : Option State :=
  match state.caller with
  | .looking =>
    match state.channels channel with
    | some queue => some { state with caller := .popping queue }
    | none => some { state with caller := .returned .unknownChannel }
  | .popping queue =>
    match state.messages queue with
    | message :: rest => some { state with
        messages := Function.update state.messages queue rest
        caller := .returned (.message message) }
    | [] => some { state with caller := .loading queue }
  | .loading queue => some { state with
      caller := if state.closed then .returned .closed else .registering queue }
  | .registering queue => some { state with caller := .registeringClosed queue false }
  | .registeringClosed queue woken => some { state with caller := .waiting queue woken false }
  | _ => none

/-- The build, the archive reader and the channel of the caller. -/
structure Setup where
  checks : Bool
  archive : Archive
  channel : Int32

def step (setup : Setup) (state : State) : Action → Option State
  | .incoming incoming =>
    match state.reader with
    | .reading => some { state with reader := dispatch setup.checks setup.archive incoming }
    | _ => none
  | .reader => readerStep state
  | .call =>
    match state.caller with
    | .idle => some { state with caller := .looking }
    | .returned _ => some { state with caller := .looking }
    | _ => none
  | .caller => callerStep setup.channel state
  | .wake =>
    match state.caller with
    | .waiting _ true _ => some { state with caller := .looking }
    | _ => none
  | .wakeClosed =>
    match state.caller with
    | .waiting _ _ true => some { state with caller := .returned .closed }
    | _ => none
  | .dropped =>
    match state.caller with
    | .looking => some { state with caller := .idle }
    | .popping _ => some { state with caller := .idle }
    | .waiting _ _ _ => some { state with caller := .idle }
    | _ => none
  | .registered code => some (state.ensureChannelRegistered code)

def run (setup : Setup) : State → List Action → Option State
  | state, [] => some state
  | state, action :: rest => (step setup state action).bind (run setup · rest)

namespace State

/-- The caller waits, woken by nothing, while its queue holds a message or the
connection is closed, and the reader is not about to tell it. -/
def Stranded (state : State) : Prop :=
  ∃ queue, state.caller = .waiting queue false false ∧
    ((state.messages queue ≠ [] ∧ state.reader ≠ .notifying queue) ∨
      (state.closed = true ∧ ∀ ends, state.reader ≠ .notifyingClosed ends))

/-- The reader is about to tell the caller what it has not seen, and the caller is
past its look and about to register. -/
def Unheard (state : State) : Prop :=
  match state.reader with
  | .notifying queue => state.messages queue ≠ [] ∧
      (state.caller = .loading queue ∧ state.closed = false ∨ state.caller = .registering queue)
  | .notifyingClosed _ => ∃ queue,
      state.caller = .registering queue ∨ state.caller = .registeringClosed queue false
  | _ => False

end State

/-- No waiters are woken while the caller is between its look and its registration. -/
def Timely (setup : Setup) : State → List Action → Prop
  | _, [] => True
  | state, action :: rest => (action = .reader → ¬ state.Unheard) ∧
      ∀ next, step setup state action = some next → Timely setup next rest

section Invariant

variable {setup : Setup} {state next : State} {channel : Int32}

/-- What there is to tell the caller of a queue, the reader is about to tell. -/
def State.Announced (state : State) (queue : ℕ) : Prop :=
  (state.messages queue = [] ∨ state.reader = .notifying queue) ∧
    (state.closed = false ∨ ∃ ends, state.reader = .notifyingClosed ends)

/-- The caller will see it at the closed flag, or will be told. -/
def State.Noticed (state : State) (queue : ℕ) : Prop :=
  state.messages queue = [] ∨ state.reader = .notifying queue ∨ state.closed = true

/-- The caller has seen or will be told what there is. -/
def State.Heard (state : State) : Prop :=
  match state.caller with
  | .loading queue => state.Noticed queue
  | .registering queue => state.Announced queue
  | .registeringClosed queue woken => woken = true ∨ state.Announced queue
  | .waiting queue woken closedWoken =>
    woken = true ∨ closedWoken = true ∨ state.Announced queue
  | _ => True

theorem State.Heard.not_stranded (h : state.Heard) : ¬ state.Stranded := by
  intro ⟨queue, hcaller, hstranded⟩
  unfold State.Heard at h
  rw [hcaller] at h
  have hannounced : state.Announced queue := by simpa using h
  rcases hstranded with ⟨hmessages, hreader⟩ | ⟨hclosed, hreader⟩
  · exact hannounced.1.elim hmessages hreader
  · rcases hannounced.2 with hopen | ⟨ends, hends⟩
    · rw [hopen] at hclosed
      cases hclosed
    · exact hreader ends hends

/-- The reader is not about to tell anybody anything. -/
def State.Silent (state : State) : Prop :=
  (∀ queue, state.reader ≠ .notifying queue) ∧ ∀ ends, state.reader ≠ .notifyingClosed ends

theorem State.Announced.silent {queue : ℕ} (h : state.Announced queue) (hsilent : state.Silent) :
    state.messages queue = [] ∧ state.closed = false := by
  obtain ⟨hmessages, hopen⟩ := h
  refine ⟨hmessages.resolve_right (hsilent.1 queue), hopen.resolve_right ?_⟩
  intro ⟨ends, hends⟩
  exact hsilent.2 ends hends

theorem State.Heard.mono (h : state.Heard) (hcaller : next.caller = state.caller)
    (hannounced : ∀ queue, state.Announced queue → next.Announced queue)
    (hnoticed : ∀ queue, state.Noticed queue → next.Noticed queue) : next.Heard := by
  unfold State.Heard at h ⊢
  rw [hcaller]
  cases hphase : state.caller with
  | loading queue =>
    rw [hphase] at h
    exact hnoticed queue h
  | registering queue =>
    rw [hphase] at h
    exact hannounced queue h
  | registeringClosed queue woken =>
    rw [hphase] at h
    exact h.imp_right (hannounced queue)
  | waiting queue woken closedWoken =>
    rw [hphase] at h
    exact h.imp_right (Or.imp_right (hannounced queue))
  | _ => trivial

/-- The step of a silent reader that neither appends nor closes. -/
theorem State.Heard.quiet (h : state.Heard) (hsilent : state.Silent)
    (hcaller : next.caller = state.caller) (hmessages : next.messages = state.messages)
    (hclosed : next.closed = state.closed) : next.Heard := by
  apply h.mono hcaller
  · intro queue hannounced
    obtain ⟨hempty, hopen⟩ := hannounced.silent hsilent
    exact ⟨Or.inl (by rw [hmessages, hempty]), Or.inl (by rw [hclosed, hopen])⟩
  · intro queue hnoticed
    rcases hnoticed with hempty | hreader | hshut
    · exact Or.inl (by rw [hmessages, hempty])
    · exact absurd hreader (hsilent.1 queue)
    · exact Or.inr (Or.inr (by rw [hclosed, hshut]))

theorem heard_pushing {queue : ℕ} {message : Message} (h : state.Heard)
    (hreader : state.reader = .pushing queue message) :
    State.Heard { state with
      messages := Function.update state.messages queue (state.messages queue ++ [message])
      reader := .notifying queue } := by
  have hsilent : state.Silent := by simp [State.Silent, hreader]
  have hmessages : ∀ other, state.messages other = [] →
      Function.update state.messages queue (state.messages queue ++ [message]) other = [] ∨
        ReaderPhase.notifying queue = .notifying other := by
    intro other hempty
    by_cases hother : other = queue
    · exact Or.inr (by rw [hother])
    · exact Or.inl (by rw [Function.update_of_ne hother, hempty])
  refine h.mono rfl ?_ ?_
  · intro other hannounced
    obtain ⟨hempty, hopen⟩ := hannounced.silent hsilent
    exact ⟨hmessages other hempty, Or.inl hopen⟩
  · intro other hnoticed
    rcases hnoticed with hempty | htold | hshut
    · exact (hmessages other hempty).imp_right Or.inl
    · exact absurd htold (hsilent.1 other)
    · exact Or.inr (Or.inr hshut)

theorem heard_closing {ends : Bool} (h : state.Heard) (hreader : state.reader = .closing ends) :
    State.Heard { state with closed := true, reader := .notifyingClosed ends } := by
  have hsilent : state.Silent := by simp [State.Silent, hreader]
  refine h.mono rfl ?_ ?_
  · intro queue hannounced
    exact ⟨Or.inl (hannounced.silent hsilent).1, Or.inr ⟨ends, rfl⟩⟩
  · intro queue _
    exact Or.inr (Or.inr rfl)

/-- Waiters that are registered are woken, and no others are needed. -/
theorem heard_notifying {queue : ℕ} (h : state.Heard) (hreader : state.reader = .notifying queue)
    (htimely : ¬ state.Unheard) :
    State.Heard { state with reader := .reading, caller := state.caller.notify queue } := by
  have hopen : (∃ ends, state.reader = .notifyingClosed ends) → False := by
    simp [hreader]
  have hkept : ∀ other, state.Announced other → other ≠ queue →
      state.messages other = [] ∧ state.closed = false := by
    intro other hannounced hother
    refine ⟨hannounced.1.resolve_right ?_, hannounced.2.resolve_right hopen⟩
    rw [hreader]
    intro heq
    exact hother (ReaderPhase.notifying.inj heq).symm
  simp only [State.Unheard, hreader, not_and, not_or] at htimely
  unfold State.Heard at h ⊢
  cases hphase : state.caller with
  | loading other =>
    simp only [hphase, State.Noticed, hreader] at h htimely ⊢
    by_cases hother : other = queue
    · by_cases hempty : state.messages queue = []
      · exact Or.inl (hother ▸ hempty)
      · have hshut := (htimely hempty).1 (by rw [hother])
        exact Or.inr (Or.inr (by simpa using hshut))
    · rcases h with hempty | htold | hshut
      · exact Or.inl hempty
      · exact absurd (ReaderPhase.notifying.inj htold).symm hother
      · exact Or.inr (Or.inr hshut)
  | registering other =>
    simp only [hphase] at h htimely ⊢
    by_cases hother : other = queue
    · by_cases hempty : state.messages queue = []
      · exact ⟨Or.inl (hother ▸ hempty), Or.inl (h.2.resolve_right hopen)⟩
      · exact absurd (by rw [hother]) (htimely hempty).2
    · obtain ⟨hempty, hunshut⟩ := hkept other h hother
      exact ⟨Or.inl hempty, Or.inl hunshut⟩
  | registeringClosed other woken =>
    simp only [hphase] at h ⊢
    by_cases hother : other = queue
    · exact Or.inl (by simp [hother])
    · rcases h with hwoken | hannounced
      · exact Or.inl (by simp [hwoken])
      · obtain ⟨hempty, hunshut⟩ := hkept other hannounced hother
        exact Or.inr ⟨Or.inl hempty, Or.inl hunshut⟩
  | waiting other woken closedWoken =>
    simp only [hphase] at h ⊢
    by_cases hother : other = queue
    · exact Or.inl (by simp [hother])
    · rcases h with hwoken | hclosed | hannounced
      · exact Or.inl (by simp [hwoken])
      · exact Or.inr (Or.inl hclosed)
      · obtain ⟨hempty, hunshut⟩ := hkept other hannounced hother
        exact Or.inr (Or.inr ⟨Or.inl hempty, Or.inl hunshut⟩)
  | _ => trivial

theorem heard_notifyingClosed {ends : Bool} (h : state.Heard)
    (hreader : state.reader = .notifyingClosed ends) (htimely : ¬ state.Unheard) :
    State.Heard { state with
      reader := if ends then .ended else .reading
      caller := state.caller.notifyClosed } := by
  simp only [State.Unheard, hreader, not_exists, not_or] at htimely
  unfold State.Heard at h ⊢
  cases hphase : state.caller with
  | loading queue =>
    simp only [hphase, State.Noticed, hreader] at h ⊢
    rcases h with hempty | htold | hshut
    · exact Or.inl hempty
    · cases htold
    · exact Or.inr (Or.inr hshut)
  | registering queue => exact absurd hphase (htimely queue).1
  | registeringClosed queue woken =>
    cases woken with
    | false => exact absurd hphase (htimely queue).2
    | true => exact Or.inl rfl
  | waiting queue woken closedWoken => exact Or.inr (Or.inl rfl)
  | _ => trivial

theorem ensureChannelRegistered_eq (state : State) (code : Int32) :
    ∃ channels created, state.ensureChannelRegistered code =
      { state with channels := channels, created := created } := by
  unfold State.ensureChannelRegistered
  split
  · exact ⟨state.channels, state.created, rfl⟩
  · exact ⟨_, _, rfl⟩

theorem heard_reader (h : state.Heard) (htimely : ¬ state.Unheard)
    (hstep : readerStep state = some next) : next.Heard := by
  unfold readerStep at hstep
  cases hreader : state.reader with
  | reading => simp [hreader] at hstep
  | ended => simp [hreader] at hstep
  | enqueuing message =>
    have hsilent : state.Silent := by simp [State.Silent, hreader]
    simp only [hreader] at hstep
    split at hstep
    · cases hstep
      exact h.quiet hsilent rfl rfl rfl
    · cases hstep
      exact h.quiet hsilent rfl rfl rfl
  | pushing queue message =>
    simp only [hreader, Option.some.injEq] at hstep
    rw [← hstep]
    exact heard_pushing h hreader
  | notifying queue =>
    simp only [hreader, Option.some.injEq] at hstep
    rw [← hstep]
    exact heard_notifying h hreader htimely
  | removing code =>
    have hsilent : state.Silent := by simp [State.Silent, hreader]
    simp only [hreader, Option.some.injEq] at hstep
    rw [← hstep]
    exact h.quiet hsilent rfl rfl rfl
  | registering code acknowledged =>
    have hsilent : state.Silent := by simp [State.Silent, hreader]
    simp only [hreader, Option.some.injEq] at hstep
    obtain ⟨channels, created, heq⟩ := ensureChannelRegistered_eq state code
    rw [← hstep, heq]
    exact h.quiet hsilent rfl rfl rfl
  | closing ends =>
    simp only [hreader, Option.some.injEq] at hstep
    rw [← hstep]
    exact heard_closing h hreader
  | notifyingClosed ends =>
    simp only [hreader, Option.some.injEq] at hstep
    rw [← hstep]
    exact heard_notifyingClosed h hreader htimely

/-- The caller loads and registers only what it has looked at. -/
theorem heard_caller (h : state.Heard) (hstep : callerStep channel state = some next) :
    next.Heard := by
  unfold State.Heard at h
  unfold callerStep at hstep
  cases hphase : state.caller with
  | looking =>
    simp only [hphase] at hstep
    split at hstep
    · cases hstep
      trivial
    · cases hstep
      trivial
  | popping queue =>
    simp only [hphase] at hstep
    split at hstep
    · cases hstep
      trivial
    · rename_i hempty
      cases hstep
      exact Or.inl hempty
  | loading queue =>
    simp only [hphase, Option.some.injEq] at h hstep
    rw [← hstep]
    by_cases hclosed : state.closed = true
    · simp [State.Heard, hclosed]
    · simp only [State.Heard, hclosed]
      rcases h with hempty | htold | hshut
      · exact ⟨Or.inl hempty, Or.inl (by simp)⟩
      · exact ⟨Or.inr htold, Or.inl (by simp)⟩
      · exact absurd hshut hclosed
  | registering queue =>
    simp only [hphase, Option.some.injEq] at h hstep
    rw [← hstep]
    exact Or.inr h
  | registeringClosed queue woken =>
    simp only [hphase, Option.some.injEq] at h hstep
    rw [← hstep]
    exact h.imp_right Or.inr
  | _ => simp [hphase] at hstep

theorem heard_step (h : state.Heard) {action : Action}
    (htimely : action = .reader → ¬ state.Unheard)
    (hstep : step setup state action = some next) : next.Heard := by
  cases action with
  | incoming incoming =>
    simp only [step] at hstep
    split at hstep
    · rename_i hreader
      have hsilent : state.Silent := by simp [State.Silent, hreader]
      cases hstep
      exact h.quiet hsilent rfl rfl rfl
    · cases hstep
  | reader => exact heard_reader h (htimely rfl) hstep
  | caller => exact heard_caller h hstep
  | registered code =>
    obtain ⟨channels, created, heq⟩ := ensureChannelRegistered_eq state code
    simp only [step, heq, Option.some.injEq] at hstep
    rw [← hstep]
    exact h.mono rfl (fun _ => id) (fun _ => id)
  | _ =>
    -- these end or begin a call, before it has looked at anything
    simp only [step] at hstep
    split at hstep
    all_goals first | (cases hstep; trivial) | cases hstep

theorem heard_run {actions : List Action} (h : state.Heard) (htimely : Timely setup state actions)
    (hrun : run setup state actions = some next) : next.Heard := by
  induction actions generalizing state with
  | nil =>
    cases hrun
    exact h
  | cons action rest ih =>
    obtain ⟨middle, hstep, hrest⟩ := Option.bind_eq_some_iff.mp hrun
    exact ih (heard_step h htimely.1 hstep) (htimely.2 middle hstep) hrest

end Invariant

section Lost

variable {setup : Setup} {state next : State} {channel : Int32}

/-- The closed flag is up when its waiters are woken. -/
def State.Closes (state : State) : Prop :=
  (∃ ends, state.reader = .notifyingClosed ends) → state.closed = true

theorem State.closes_of_ne (h : ∀ ends, state.reader ≠ .notifyingClosed ends) : state.Closes := by
  intro ⟨ends, hends⟩
  exact absurd hends (h ends)

theorem dispatch_ne_notifyingClosed (incoming : Incoming) (ends : Bool) :
    dispatch setup.checks setup.archive incoming ≠ .notifyingClosed ends := by
  cases incoming with
  | error => simp [dispatch]
  | panic => simp [dispatch]
  | message message correlated handled acknowledged =>
    simp only [dispatch]
    split
    · simp
    · split
      · simp
      · simp
      · simp
      · simp
      · split
        · simp
        · simp
      · simp
      · simp

theorem closes_reader (hstep : readerStep state = some next) : next.Closes := by
  unfold readerStep at hstep
  split at hstep
  · cases hstep
  · split at hstep
    · cases hstep
      exact State.closes_of_ne (by simp)
    · cases hstep
      exact State.closes_of_ne (by simp)
  · cases hstep
    exact State.closes_of_ne (by simp)
  · cases hstep
    exact State.closes_of_ne (by simp)
  · cases hstep
    exact State.closes_of_ne (by simp)
  · cases hstep
    apply State.closes_of_ne
    intro ends
    dsimp only
    split
    · simp
    · simp
  · cases hstep
    exact fun _ => rfl
  · cases hstep
    apply State.closes_of_ne
    intro ends
    dsimp only
    split
    · simp
    · simp
  · cases hstep

/-- The caller raises no flag and does not act for the reader. -/
theorem callerStep_frame (hstep : callerStep channel state = some next) :
    next.reader = state.reader ∧ next.closed = state.closed := by
  unfold callerStep at hstep
  split at hstep
  · split at hstep
    · cases hstep
      exact ⟨rfl, rfl⟩
    · cases hstep
      exact ⟨rfl, rfl⟩
  · split at hstep
    · cases hstep
      exact ⟨rfl, rfl⟩
    · cases hstep
      exact ⟨rfl, rfl⟩
  · cases hstep
    exact ⟨rfl, rfl⟩
  · cases hstep
    exact ⟨rfl, rfl⟩
  · cases hstep
    exact ⟨rfl, rfl⟩
  · cases hstep

theorem closes_step (h : state.Closes) {action : Action}
    (hstep : step setup state action = some next) : next.Closes := by
  cases action with
  | incoming incoming =>
    simp only [step] at hstep
    split at hstep
    · cases hstep
      exact State.closes_of_ne (dispatch_ne_notifyingClosed incoming)
    · cases hstep
  | reader => exact closes_reader hstep
  | registered code =>
    obtain ⟨channels, created, heq⟩ := ensureChannelRegistered_eq state code
    simp only [step, heq, Option.some.injEq] at hstep
    rw [← hstep]
    exact h
  | caller =>
    obtain ⟨hreader, hclosed⟩ := callerStep_frame hstep
    unfold State.Closes
    rw [hreader, hclosed]
    exact h
  | _ =>
    simp only [step] at hstep
    split at hstep
    all_goals first | (cases hstep; exact h) | cases hstep

theorem closes_run {actions : List Action} (h : state.Closes)
    (hrun : run setup state actions = some next) : next.Closes := by
  induction actions generalizing state with
  | nil =>
    cases hrun
    exact h
  | cons action rest ih =>
    obtain ⟨middle, hstep, hrest⟩ := Option.bind_eq_some_iff.mp hrun
    exact ih (closes_step h hstep) hrest

/-- The caller goes on to wait, if it has looked and the flag is down. -/
theorem run_to_waiting (setup : Setup) (state : State) {queue : ℕ}
    (h : (state.caller = .loading queue ∧ state.closed = false) ∨
      state.caller = .registering queue ∨ state.caller = .registeringClosed queue false) :
    ∃ actions, run setup state actions =
      some { state with caller := .waiting queue false false } := by
  rcases h with ⟨hcaller, hopen⟩ | hcaller | hcaller
  · refine ⟨[.caller, .caller, .caller], ?_⟩
    simp [run, step, callerStep, hcaller, hopen]
  · refine ⟨[.caller, .caller], ?_⟩
    simp [run, step, callerStep, hcaller]
  · refine ⟨[.caller], ?_⟩
    simp [run, step, callerStep, hcaller]

/-- A wakeup that nobody hears: the caller registers after it and waits. -/
theorem stranded_of_unheard (h : state.Unheard) (hcloses : state.Closes) :
    ∃ rest next, run setup state (.reader :: rest) = some next ∧ next.Stranded := by
  unfold State.Unheard at h
  cases hreader : state.reader with
  | notifying queue =>
    simp only [hreader] at h
    obtain ⟨hmessages, hcaller⟩ := h
    have hstep : readerStep state = some { state with reader := .reading } := by
      simp only [readerStep, hreader]
      rcases hcaller with ⟨hcaller, -⟩ | hcaller
      · simp [CallerPhase.notify, hcaller]
      · simp [CallerPhase.notify, hcaller]
    obtain ⟨rest, hrest⟩ := run_to_waiting setup { state with reader := .reading }
      (hcaller.imp_right Or.inl)
    refine ⟨rest, { state with reader := .reading, caller := .waiting queue false false }, ?_, queue,
      rfl, Or.inl ⟨hmessages, by simp⟩⟩
    simp only [run, step, hstep, Option.bind_some]
    exact hrest
  | notifyingClosed ends =>
    have hclosed : state.closed = true := hcloses ⟨ends, hreader⟩
    simp only [hreader] at h
    obtain ⟨queue, hcaller⟩ := h
    have hstep : readerStep state =
        some { state with reader := if ends then .ended else .reading } := by
      simp only [readerStep, hreader]
      rcases hcaller with hcaller | hcaller
      · simp [CallerPhase.notifyClosed, hcaller]
      · simp [CallerPhase.notifyClosed, hcaller]
    obtain ⟨rest, hrest⟩ := run_to_waiting setup
      { state with reader := if ends then .ended else .reading } (Or.inr hcaller)
    refine ⟨rest, { state with
      reader := if ends then .ended else .reading
      caller := .waiting queue false false }, ?_, queue, rfl, Or.inr ⟨hclosed, ?_⟩⟩
    · simp only [run, step, hstep, Option.bind_some]
      exact hrest
    · intro other
      cases ends
      · simp
      · simp
  | _ => simp [hreader] at h

end Lost

/-- No caller is stranded as long as no waiters are woken between its look and its
registration; and once they are, the caller goes on to wait for what it missed. -/
theorem not_stranded_of_timely (setup : Setup) :
    (∀ actions state, run setup .new actions = some state → Timely setup .new actions →
      ¬ state.Stranded) ∧
    ∀ actions state, run setup .new actions = some state → state.Unheard →
      ∃ rest next, run setup state (.reader :: rest) = some next ∧ next.Stranded := by
  constructor
  · intro actions state hrun htimely
    have hnew : State.new.Heard := trivial
    exact (heard_run hnew htimely hrun).not_stranded
  · intro actions state hrun hunheard
    have hnew : State.new.Closes := by
      intro ⟨ends, hends⟩
      cases hends
    exact stranded_of_unheard hunheard (closes_run hnew hrun)

/-- A reply on the root channel that no call waits for. -/
def strayReply : Message where
  messageHeader := ⟨0x1F3D5B79, 32, 0, 1, 16, 1, 1, 0, false⟩
  payloadHeader := ⟨0, 0, 0, 0, 0, 0, 0⟩
  aux := none
  data := none
  rawData := none

/-- The reply arrives while a caller is past its look at the queue. -/
def missedMessage : List Action :=
  [.call, .caller, .caller, .incoming (.message strayReply false false false), .reader, .reader,
    .reader, .caller, .caller, .caller]

theorem missedMessage_stranded :
    ¬ ∀ setup actions state, run setup .new actions = some state → ¬ state.Stranded := by
  intro h
  obtain ⟨state, hrun⟩ : ∃ state, run ⟨true, fun _ => none, 0⟩ .new missedMessage = some state :=
    ⟨_, rfl⟩
  apply h _ missedMessage state hrun
  cases hrun
  exact ⟨0, rfl, Or.inl ⟨nofun, nofun⟩⟩

end XitForge.Dvt
