import XitForge.StepRuns
import XitForge.Dvt.ChannelQueue

/-!
The correlation of replies on a DTX connection. A call enters the sender of a oneshot
channel under its identifier, writes its message and waits for the receiver; the reader
task takes the sender out for the reply, and when it exits on an error it first drops
all senders and then raises the closed flag.
-/
namespace XitForge.Dvt.Replies

open RustEval
open StepRuns (Along run_along run_invariant)

inductive CallResult where
  | message (message : Message)
  /-- The message could not be written. -/
  | writeFailed
  | closed
  /-- The sender was dropped while the connection is open. -/
  | unexpectedResponse

/-- The next step of a `call_method_with_reply`. -/
inductive CallPhase where
  | idle
  /-- The lock section that enters the sender. -/
  | inserting (identifier : ℕ)
  | writing (identifier : ℕ)
  /-- The lock section that takes the sender back. -/
  | removing (identifier : ℕ)
  /-- `receiver.await`. -/
  | waiting (identifier : ℕ)
  /-- The lock section of `wait_for_reply`, where the sender was dropped. -/
  | cleaning (identifier : ℕ)
  /-- `closed.load()`. -/
  | loading (identifier : ℕ)
  | returned (identifier : ℕ) (result : CallResult)
  /-- The future was dropped at one of its await points. -/
  | dropped (identifier : ℕ)
  /-- The identifier overflowed. -/
  | panicked

/-- The identifier under which a call may have entered its sender. -/
def CallPhase.entered : CallPhase → Option ℕ
  | .writing identifier => some identifier
  | .removing identifier => some identifier
  | .waiting identifier => some identifier
  | .cleaning identifier => some identifier
  | .loading identifier => some identifier
  | .returned identifier _ => some identifier
  | .dropped identifier => some identifier
  | .inserting _ => none
  | .idle => none
  | .panicked => none

/-- The next step of the reader task. A message has its number among those that arrived. -/
inductive ReaderPhase where
  | reading
  /-- The lock section of `dispatch_pending_reply`. -/
  | dispatching (number : ℕ) (message : Message) (acknowledged : Bool)
  /-- `sender.send(msg)`. -/
  | sending (call number : ℕ) (message : Message)
  /-- `fail_pending_replies`. -/
  | failing
  /-- `closed.store(true)`, after which the task ends or goes on reading. -/
  | closing (ends : Bool)
  /-- `closed_notify.notify_waiters()`. -/
  | notifyingClosed (ends : Bool)
  | ended
  | panicked

structure State where
  /-- `current_message`. -/
  currentMessage : ℕ
  /-- The sender under an identifier, by its call. -/
  pendingReplies : ℕ → Option ℕ
  closed : Bool
  reader : ReaderPhase
  calls : ℕ → CallPhase
  /-- What was sent to the receiver of a call: a message and its number. -/
  delivered : ℕ → Option (ℕ × Message)
  arrived : List Message

/-- `RemoteServerShared::new`. -/
def State.new : State where
  currentMessage := 0
  pendingReplies := fun _ => none
  closed := false
  reader := .reading
  calls := fun _ => .idle
  delivered := fun _ => none
  arrived := []

inductive Action where
  /-- `Message::from_reader` returns a message. `acknowledged`: the reply to a channel
  request is written. -/
  | incoming (message : Message) (acknowledged : Bool)
  | error
  /-- `Message::from_reader` panics. -/
  | panic
  | reader
  /-- A message is sent that no call waits for. -/
  | send
  | call (call : ℕ)
  | caller (call : ℕ)
  /-- `write_all` returns. -/
  | wrote (call : ℕ) (written : Bool)
  | drop (call : ℕ)

/-- What `handle_control_message` and the rest of the loop leave to the reader. -/
def handled (checks : Bool) (archive : Archive) (message : Message) (acknowledged : Bool) :
    ReaderPhase :=
  match handleControlMessage checks archive message with
  | .ok (.requestChannel _) => if acknowledged then .reading else .closing false
  | .ok _ => .reading
  | .err _ => .panicked
  | .panic => .panicked

/-- A step of the reader task for the message it has. -/
def readerStep (checks : Bool) (archive : Archive) (state : State) : Option State :=
  match state.reader with
  | .dispatching number message acknowledged =>
    if message.messageHeader.conversationIndex = 0 then
      some { state with reader := handled checks archive message acknowledged }
    else
      match state.pendingReplies message.messageHeader.identifier with
      | none => some { state with reader := handled checks archive message acknowledged }
      | some call => some { state with
          pendingReplies :=
            Function.update state.pendingReplies message.messageHeader.identifier none
          reader := .sending call number message }
  | .sending call number message =>
    match state.calls call with
    | .dropped _ => some { state with reader := .reading }
    | _ => some { state with
        delivered := Function.update state.delivered call (some (number, message))
        reader := .reading }
  | .failing => some { state with pendingReplies := fun _ => none, reader := .closing true }
  | .closing ends => some { state with closed := true, reader := .notifyingClosed ends }
  | .notifyingClosed ends => some { state with reader := if ends then .ended else .reading }
  | _ => none

/-- The sender of a call exists: it is in the map, or the reader has it. -/
def State.sendable (state : State) (call identifier : ℕ) : Bool :=
  state.pendingReplies identifier == some call ||
    match state.reader with
    | .sending other _ _ => other == call
    | _ => false

/-- A step of a call. It is blocked while its sender exists and has sent nothing. -/
def callerStep (state : State) (call : ℕ) : Option State :=
  match state.calls call with
  | .inserting identifier => some { state with
      pendingReplies := Function.update state.pendingReplies identifier (some call)
      calls := Function.update state.calls call (.writing identifier) }
  | .removing identifier => some { state with
      pendingReplies := Function.update state.pendingReplies identifier none
      calls := Function.update state.calls call (.returned identifier .writeFailed) }
  | .waiting identifier =>
    match state.delivered call with
    | some (_, message) => some { state with
        calls := Function.update state.calls call (.returned identifier (.message message)) }
    | none =>
      if state.sendable call identifier then none
      else some { state with calls := Function.update state.calls call (.cleaning identifier) }
  | .cleaning identifier => some { state with
      pendingReplies := Function.update state.pendingReplies identifier none
      calls := Function.update state.calls call (.loading identifier) }
  | .loading identifier => some { state with
      calls := Function.update state.calls call
        (.returned identifier (if state.closed then .closed else .unexpectedResponse)) }
  | _ => none

/-- The future of a call is dropped, which it can be where it awaits. -/
def dropStep (state : State) (call : ℕ) : Option State :=
  match state.calls call with
  | .inserting identifier => some { state with
      calls := Function.update state.calls call (.dropped identifier) }
  | .writing identifier => some { state with
      calls := Function.update state.calls call (.dropped identifier) }
  | .removing identifier => some { state with
      calls := Function.update state.calls call (.dropped identifier) }
  | .waiting identifier => some { state with
      calls := Function.update state.calls call (.dropped identifier) }
  | .cleaning identifier => some { state with
      calls := Function.update state.calls call (.dropped identifier) }
  | _ => none

/-- The build and the archive reader. -/
structure Setup where
  checks : Bool
  archive : Archive

def step (setup : Setup) (state : State) : Action → Option State
  | .incoming message acknowledged =>
    match state.reader with
    | .reading => some { state with
        arrived := state.arrived ++ [message]
        reader := .dispatching state.arrived.length message acknowledged }
    | _ => none
  | .error =>
    match state.reader with
    | .reading => some { state with reader := .failing }
    | _ => none
  | .panic =>
    match state.reader with
    | .reading => some { state with reader := .panicked }
    | _ => none
  | .reader => readerStep setup.checks setup.archive state
  | .send => some { state with currentMessage := (state.currentMessage + 1) % 2 ^ 32 }
  | .call call =>
    match state.calls call with
    | .idle => some { state with
        currentMessage := (state.currentMessage + 1) % 2 ^ 32
        calls := Function.update state.calls call
          (match (Eval.add 32 setup.checks state.currentMessage 1 : Eval ReadError ℕ) with
            | .ok identifier => .inserting identifier
            | _ => .panicked) }
    | _ => none
  | .caller call => callerStep state call
  | .wrote call written =>
    match state.calls call with
    | .writing identifier => some { state with
        calls := Function.update state.calls call
          (if written then .waiting identifier else .removing identifier) }
    | _ => none
  | .drop call => dropStep state call

abbrev run (setup : Setup) : State → List Action → Option State := StepRuns.run (step setup)

namespace State

/-- A call that received a message received a reply to it, which arrived, and nobody else
received it. -/
structure Correlated (state : State) : Prop where
  reply : ∀ call identifier message,
    state.calls call = .returned identifier (.message message) →
      message.messageHeader.conversationIndex ≠ 0 ∧
        message.messageHeader.identifier = identifier ∧
        ∃ number, state.delivered call = some (number, message) ∧
          state.arrived[number]? = some message
  once : ∀ call call' number message message',
    state.delivered call = some (number, message) →
      state.delivered call' = some (number, message') → call = call'

/-- The reader has dropped all senders, on its way out. -/
def Failed (state : State) : Prop :=
  state.reader = .closing true ∨ state.reader = .notifyingClosed true ∨ state.reader = .ended

/-- The reader has exited, and a call waits for an entry of the map. -/
def Stranded (state : State) : Prop :=
  state.reader = .ended ∧ state.closed = true ∧ ∃ call identifier, state.calls call = .waiting identifier ∧
    state.pendingReplies identifier = some call ∧ state.delivered call = none

end State

/-- The condition on a step of a run: no sender enters the map after the reader has
dropped them. -/
def Timely (state : State) (action : Action) : Prop :=
  ∀ call identifier, action = .caller call → state.calls call = .inserting identifier →
    ¬ state.Failed

section Invariant

variable {setup : Setup} {state next : State} {call : ℕ}

/-- Nobody received the message with a number. -/
def State.Untold (state : State) (number : ℕ) : Prop :=
  ∀ call message, state.delivered call ≠ some (number, message)

/-- A sender and a message belong to a call by its identifier. -/
structure State.Sound (state : State) : Prop where
  entry : ∀ identifier call, state.pendingReplies identifier = some call →
    (state.calls call).entered = some identifier ∧ state.delivered call = none
  dispatching : ∀ number message acknowledged,
    state.reader = .dispatching number message acknowledged →
      state.arrived[number]? = some message ∧ state.Untold number
  sending : ∀ call number message, state.reader = .sending call number message →
    (state.calls call).entered = some message.messageHeader.identifier ∧
      message.messageHeader.conversationIndex ≠ 0 ∧
      state.delivered call = none ∧ (∀ identifier, state.pendingReplies identifier ≠ some call) ∧
      state.arrived[number]? = some message ∧ state.Untold number
  delivered : ∀ call number message, state.delivered call = some (number, message) →
    (state.calls call).entered = some message.messageHeader.identifier ∧
      message.messageHeader.conversationIndex ≠ 0 ∧ state.arrived[number]? = some message
  once : ∀ call call' number message message',
    state.delivered call = some (number, message) →
      state.delivered call' = some (number, message') → call = call'
  returned : ∀ call identifier message,
    state.calls call = .returned identifier (.message message) →
      ∃ number, state.delivered call = some (number, message)

theorem sound_new : State.new.Sound where
  entry identifier call h := by cases h
  dispatching number message acknowledged h := by cases h
  sending call number message h := by cases h
  delivered call number message h := by cases h
  once call call' number message message' h := by cases h
  returned call identifier message h := by cases h

theorem State.Sound.correlated (h : state.Sound) : state.Correlated where
  reply call identifier message hcall := by
    obtain ⟨number, hdelivered⟩ := h.returned call identifier message hcall
    obtain ⟨hentered, hindex, harrived⟩ := h.delivered call number message hdelivered
    rw [hcall] at hentered
    exact ⟨hindex, (Option.some.inj hentered).symm, number, hdelivered, harrived⟩
  once := h.once

/-- A step that leaves the reader and what it sent alone. -/
theorem State.Sound.mono (h : state.Sound) (hreader : next.reader = state.reader)
    (hdelivered : next.delivered = state.delivered) (harrived : next.arrived = state.arrived)
    (hentered : ∀ call identifier, (state.calls call).entered = some identifier →
      (next.calls call).entered = some identifier)
    (hentry : ∀ identifier call, next.pendingReplies identifier = some call →
      state.pendingReplies identifier = some call)
    (hreturned : ∀ call identifier message,
      next.calls call = .returned identifier (.message message) →
        state.calls call = .returned identifier (.message message) ∨
          ∃ number, state.delivered call = some (number, message)) : next.Sound := by
  constructor
  · intro identifier call hpending
    obtain ⟨hcall, hnone⟩ := h.entry identifier call (hentry identifier call hpending)
    rw [hdelivered]
    exact ⟨hentered _ _ hcall, hnone⟩
  · unfold State.Untold
    rw [hreader, hdelivered, harrived]
    exact h.dispatching
  · intro call number message hsending
    unfold State.Untold
    rw [hdelivered, harrived]
    obtain ⟨hcall, hindex, hnone, hout, hrest⟩ :=
      h.sending call number message (by rw [← hreader, hsending])
    refine ⟨hentered _ _ hcall, hindex, hnone, ?_, hrest⟩
    intro identifier hpending
    exact hout identifier (hentry identifier call hpending)
  · intro call number message hsome
    rw [harrived]
    rw [hdelivered] at hsome
    obtain ⟨hcall, hrest⟩ := h.delivered call number message hsome
    exact ⟨hentered _ _ hcall, hrest⟩
  · rw [hdelivered]
    exact h.once
  · intro call identifier message hcall
    rw [hdelivered]
    rcases hreturned call identifier message hcall with hold | hnew
    · exact h.returned call identifier message hold
    · exact hnew

/-- A call goes from one phase to another with the same identifier. -/
theorem State.Sound.move (h : state.Sound) {phase : CallPhase}
    {pendingReplies : ℕ → Option ℕ}
    (hentered : ∀ identifier, (state.calls call).entered = some identifier →
      phase.entered = some identifier)
    (hentry : ∀ identifier call, pendingReplies identifier = some call →
      state.pendingReplies identifier = some call)
    (hreturned : ∀ identifier message, phase = .returned identifier (.message message) →
      ∃ number, state.delivered call = some (number, message)) :
    State.Sound { state with
      pendingReplies := pendingReplies
      calls := Function.update state.calls call phase } := by
  refine h.mono rfl rfl rfl ?_ hentry ?_
  · intro other identifier hother
    by_cases heq : other = call
    · subst heq
      simpa using hentered identifier hother
    · simpa [Function.update_of_ne heq] using hother
  · intro other identifier message hother
    by_cases heq : other = call
    · subst heq
      exact Or.inr (hreturned identifier message (by simpa using hother))
    · exact Or.inl (by simpa [Function.update_of_ne heq] using hother)

theorem removed_entry {pendingReplies : ℕ → Option ℕ} {removed identifier : ℕ}
    (h : Function.update pendingReplies removed none identifier = some call) :
    pendingReplies identifier = some call := by
  by_cases heq : identifier = removed
  · rw [heq, Function.update_self] at h
    cases h
  · rwa [Function.update_of_ne heq] at h

theorem sound_inserting {identifier : ℕ} (h : state.Sound)
    (hphase : state.calls call = .inserting identifier) :
    State.Sound { state with
      pendingReplies := Function.update state.pendingReplies identifier (some call)
      calls := Function.update state.calls call (.writing identifier) } := by
  have hcall : (state.calls call).entered = none := by
    rw [hphase]
    rfl
  have hmoved : State.Sound { state with
      pendingReplies := state.pendingReplies
      calls := Function.update state.calls call (.writing identifier) } := by
    apply h.move
    · intro other hother
      rw [hcall] at hother
      cases hother
    · exact fun _ _ => id
    · intro other message hother
      cases hother
  have hnone : state.delivered call = none := by
    rcases hdelivered : state.delivered call with _ | ⟨number, message⟩
    · rfl
    · rw [(h.delivered call number message hdelivered).1] at hcall
      cases hcall
  refine { hmoved with entry := ?_, sending := ?_ }
  · intro other caller hpending
    by_cases heq : other = identifier
    · subst heq
      obtain rfl : call = caller := by simpa using hpending
      exact ⟨by simp [CallPhase.entered], hnone⟩
    · exact hmoved.entry other caller (by simpa [Function.update_of_ne heq] using hpending)
  · intro caller number message hsending
    obtain ⟨hentered, hindex, hempty, hout, hrest⟩ := hmoved.sending caller number message hsending
    refine ⟨hentered, hindex, hempty, ?_, hrest⟩
    intro other hpending
    by_cases heq : other = identifier
    · subst heq
      obtain rfl : call = caller := by simpa using hpending
      rw [(h.sending call number message hsending).1] at hcall
      cases hcall
    · exact hout other (by simpa [Function.update_of_ne heq] using hpending)

theorem sound_caller (h : state.Sound) (hstep : callerStep state call = some next) :
    next.Sound := by
  unfold callerStep at hstep
  cases hphase : state.calls call with
  | inserting identifier =>
    simp only [hphase, Option.some.injEq] at hstep
    rw [← hstep]
    exact sound_inserting h hphase
  | removing identifier =>
    simp only [hphase, Option.some.injEq] at hstep
    rw [← hstep]
    apply h.move
    · rw [hphase]
      exact fun _ => id
    · exact fun _ _ => removed_entry
    · intro other message hother
      cases hother
  | waiting identifier =>
    simp only [hphase] at hstep
    split at hstep
    · rename_i number message hdelivered
      cases hstep
      apply h.move
      · rw [hphase]
        exact fun _ => id
      · exact fun _ _ => id
      · intro other message' hother
        cases hother
        exact ⟨number, hdelivered⟩
    · split at hstep
      · cases hstep
      · cases hstep
        apply h.move
        · rw [hphase]
          exact fun _ => id
        · exact fun _ _ => id
        · intro other message hother
          cases hother
  | cleaning identifier =>
    simp only [hphase, Option.some.injEq] at hstep
    rw [← hstep]
    apply h.move
    · rw [hphase]
      exact fun _ => id
    · exact fun _ _ => removed_entry
    · intro other message hother
      cases hother
  | loading identifier =>
    simp only [hphase, Option.some.injEq] at hstep
    rw [← hstep]
    apply h.move
    · rw [hphase]
      exact fun _ => id
    · exact fun _ _ => id
    · intro other message hother
      split at hother
      · cases hother
      · cases hother
  | _ => simp [hphase] at hstep

/-- A dropped call is marked with its identifier, and nothing else changes. -/
theorem dropStep_eq_some (hstep : dropStep state call = some next) :
    ∃ identifier,
      next = { state with calls := Function.update state.calls call (.dropped identifier) } ∧
        ∀ other, (state.calls call).entered = some other → identifier = other := by
  unfold dropStep at hstep
  cases hphase : state.calls call with
  | inserting identifier =>
    simp only [hphase, Option.some.injEq] at hstep
    exact ⟨identifier, hstep.symm, fun other hother => by cases hother⟩
  | writing identifier =>
    simp only [hphase, Option.some.injEq] at hstep
    exact ⟨identifier, hstep.symm, fun other => Option.some.inj⟩
  | removing identifier =>
    simp only [hphase, Option.some.injEq] at hstep
    exact ⟨identifier, hstep.symm, fun other => Option.some.inj⟩
  | waiting identifier =>
    simp only [hphase, Option.some.injEq] at hstep
    exact ⟨identifier, hstep.symm, fun other => Option.some.inj⟩
  | cleaning identifier =>
    simp only [hphase, Option.some.injEq] at hstep
    exact ⟨identifier, hstep.symm, fun other => Option.some.inj⟩
  | _ => simp [hphase] at hstep

theorem sound_drop (h : state.Sound) (hstep : dropStep state call = some next) : next.Sound := by
  obtain ⟨identifier, hnext, hentered⟩ := dropStep_eq_some hstep
  rw [hnext]
  apply h.move
  · intro other hother
    rw [hentered other hother]
    rfl
  · intro identifier other hpending
    exact hpending
  · intro other message hother
    cases hother

/-- The reader has no message for a call. -/
def ReaderPhase.Free : ReaderPhase → Prop
  | .dispatching _ _ _ => False
  | .sending _ _ _ => False
  | _ => True

/-- A step of the reader alone, after which it has no message. -/
theorem State.Sound.quiet (h : state.Sound) (hfree : next.reader.Free)
    (hcalls : next.calls = state.calls) (hdelivered : next.delivered = state.delivered)
    (harrived : next.arrived = state.arrived)
    (hentry : ∀ identifier call, next.pendingReplies identifier = some call →
      state.pendingReplies identifier = some call) : next.Sound := by
  constructor
  · intro identifier call hpending
    rw [hcalls, hdelivered]
    exact h.entry identifier call (hentry identifier call hpending)
  · intro number message acknowledged hreader
    rw [hreader] at hfree
    exact hfree.elim
  · intro call number message hreader
    rw [hreader] at hfree
    exact hfree.elim
  · rw [hcalls, hdelivered, harrived]
    exact h.delivered
  · rw [hdelivered]
    exact h.once
  · rw [hcalls, hdelivered]
    exact h.returned

theorem free_handled (checks : Bool) (archive : Archive) (message : Message) (acknowledged : Bool) :
    (handled checks archive message acknowledged).Free := by
  unfold handled
  split
  · cases acknowledged
    · trivial
    · trivial
  · trivial
  · trivial
  · trivial

/-- The sender of a call is taken out for a reply. -/
theorem sound_taken {number : ℕ} {message : Message} {acknowledged : Bool} (h : state.Sound)
    (hreader : state.reader = .dispatching number message acknowledged)
    (hindex : message.messageHeader.conversationIndex ≠ 0)
    (hpending : state.pendingReplies message.messageHeader.identifier = some call) :
    State.Sound { state with
      pendingReplies := Function.update state.pendingReplies message.messageHeader.identifier none
      reader := .sending call number message } := by
  obtain ⟨harrived, huntold⟩ := h.dispatching number message acknowledged hreader
  obtain ⟨hentered, hnone⟩ := h.entry _ call hpending
  constructor
  · intro identifier other hother
    exact h.entry identifier other (removed_entry hother)
  · intro number message acknowledged hdispatching
    cases hdispatching
  · intro other number' message' hsending
    cases hsending
    refine ⟨hentered, hindex, hnone, ?_, harrived, huntold⟩
    intro identifier hother
    -- the call entered one sender, which is the one taken out
    have hsame := (h.entry identifier call (removed_entry hother)).1
    rw [hentered] at hsame
    rw [← Option.some.inj hsame] at hother
    simp at hother
  · exact h.delivered
  · exact h.once
  · exact h.returned

theorem sound_sent {number : ℕ} {message : Message} (h : state.Sound)
    (hreader : state.reader = .sending call number message) :
    State.Sound { state with
      delivered := Function.update state.delivered call (some (number, message))
      reader := .reading } := by
  obtain ⟨hentered, hindex, hnone, hout, harrived, huntold⟩ :=
    h.sending call number message hreader
  constructor
  · intro identifier other hpending
    have hne : other ≠ call := by
      intro heq
      rw [heq] at hpending
      exact hout identifier hpending
    simpa [Function.update_of_ne hne] using h.entry identifier other hpending
  · intro number message acknowledged hdispatching
    cases hdispatching
  · intro other number message hsending
    cases hsending
  · intro other number' message' hdelivered
    by_cases heq : other = call
    · subst heq
      obtain ⟨rfl, rfl⟩ : number = number' ∧ message = message' := by simpa using hdelivered
      exact ⟨hentered, hindex, harrived⟩
    · exact h.delivered other number' message' (by simpa [Function.update_of_ne heq] using hdelivered)
  · intro first second number' message₁ message₂ hfirst hsecond
    dsimp only at hfirst hsecond
    by_cases heq : first = call
    · by_cases heq' : second = call
      · rw [heq, heq']
      · obtain ⟨rfl, -⟩ : number = number' ∧ message = message₁ := by simpa [heq] using hfirst
        rw [Function.update_of_ne heq'] at hsecond
        exact absurd hsecond (huntold second message₂)
    · rw [Function.update_of_ne heq] at hfirst
      by_cases heq' : second = call
      · obtain ⟨rfl, -⟩ : number = number' ∧ message = message₂ := by simpa [heq'] using hsecond
        exact absurd hfirst (huntold first message₁)
      · rw [Function.update_of_ne heq'] at hsecond
        exact h.once first second number' message₁ message₂ hfirst hsecond
  · intro other identifier message' hreturned
    obtain ⟨number', hdelivered⟩ := h.returned other identifier message' hreturned
    have hne : other ≠ call := by
      intro heq
      rw [heq, hnone] at hdelivered
      cases hdelivered
    exact ⟨number', by simpa [Function.update_of_ne hne] using hdelivered⟩

theorem sound_reader (h : state.Sound)
    (hstep : readerStep setup.checks setup.archive state = some next) : next.Sound := by
  unfold readerStep at hstep
  split at hstep
  · rename_i number message acknowledged hreader
    split at hstep
    · cases hstep
      exact h.quiet (free_handled _ _ _ _) rfl rfl rfl (fun _ _ => id)
    · rename_i hindex
      split at hstep
      · cases hstep
        exact h.quiet (free_handled _ _ _ _) rfl rfl rfl (fun _ _ => id)
      · rename_i hpending
        cases hstep
        exact sound_taken h hreader hindex hpending
  · rename_i hreader
    split at hstep
    · cases hstep
      exact h.quiet trivial rfl rfl rfl (fun _ _ => id)
    · cases hstep
      exact sound_sent h hreader
  · cases hstep
    exact h.quiet trivial rfl rfl rfl (fun _ _ hnone => by cases hnone)
  · cases hstep
    exact h.quiet trivial rfl rfl rfl (fun _ _ => id)
  · rename_i ends _
    cases hstep
    refine h.quiet ?_ rfl rfl rfl (fun _ _ => id)
    cases ends
    · trivial
    · trivial
  · cases hstep

theorem sound_incoming {message : Message} {acknowledged : Bool} (h : state.Sound) :
    State.Sound { state with
      arrived := state.arrived ++ [message]
      reader := .dispatching state.arrived.length message acknowledged } := by
  have hkept {number : ℕ} {other : Message} (hother : state.arrived[number]? = some other) :
      (state.arrived ++ [message])[number]? = some other := by
    rw [List.getElem?_append_left (List.getElem?_eq_some_iff.mp hother).1, hother]
  constructor
  · exact h.entry
  · intro number other acknowledged' hdispatching
    cases hdispatching
    refine ⟨by simp, ?_⟩
    intro call other hdelivered
    have harrived := (h.delivered call _ other hdelivered).2.2
    rw [List.getElem?_eq_none (Nat.le_refl _)] at harrived
    cases harrived
  · intro call number other hsending
    cases hsending
  · intro call number other hdelivered
    obtain ⟨hentered, hindex, harrived⟩ := h.delivered call number other hdelivered
    exact ⟨hentered, hindex, hkept harrived⟩
  · exact h.once
  · exact h.returned

theorem sound_step {action : Action} (h : state.Sound) (hstep : step setup state action = some next) :
    next.Sound := by
  cases action with
  | incoming message acknowledged =>
    simp only [step] at hstep
    split at hstep
    · cases hstep
      exact sound_incoming h
    · cases hstep
  | error =>
    simp only [step] at hstep
    split at hstep
    · cases hstep
      exact h.quiet trivial rfl rfl rfl (fun _ _ => id)
    · cases hstep
  | panic =>
    simp only [step] at hstep
    split at hstep
    · cases hstep
      exact h.quiet trivial rfl rfl rfl (fun _ _ => id)
    · cases hstep
  | reader => exact sound_reader h hstep
  | send =>
    cases hstep
    exact h.mono rfl rfl rfl (fun _ _ => id) (fun _ _ => id) (fun _ _ _ => Or.inl)
  | call call =>
    simp only [step] at hstep
    split at hstep
    · rename_i hphase
      cases hstep
      have hmoved : State.Sound { state with
          pendingReplies := state.pendingReplies
          calls := Function.update state.calls call
            (match (Eval.add 32 setup.checks state.currentMessage 1 : Eval ReadError ℕ) with
              | .ok identifier => .inserting identifier
              | _ => .panicked) } := by
        apply h.move
        · rw [hphase]
          intro identifier hidentifier
          cases hidentifier
        · exact fun _ _ => id
        · intro identifier message hreturned
          split at hreturned
          · cases hreturned
          · cases hreturned
      exact hmoved.mono rfl rfl rfl (fun _ _ => id) (fun _ _ => id) (fun _ _ _ => Or.inl)
    · cases hstep
  | caller call => exact sound_caller h hstep
  | wrote call written =>
    simp only [step] at hstep
    split at hstep
    · rename_i identifier hphase
      cases hstep
      apply h.move
      · rw [hphase]
        cases written
        · exact fun _ => id
        · exact fun _ => id
      · exact fun _ _ => id
      · intro other message hother
        cases written
        · cases hother
        · cases hother
    · cases hstep
  | drop call => exact sound_drop h hstep

end Invariant

section Exit

variable {setup : Setup} {state next : State} {call : ℕ} {action : Action}

/-- No entry of the map is new. -/
def Shrinks (state next : State) : Prop :=
  ∀ identifier call, next.pendingReplies identifier = some call →
    state.pendingReplies identifier = some call

theorem shrinks_caller (hstep : callerStep state call = some next)
    (hphase : ∀ identifier, state.calls call ≠ .inserting identifier) : Shrinks state next := by
  unfold callerStep at hstep
  split at hstep
  · rename_i identifier heq
    exact absurd heq (hphase identifier)
  · cases hstep
    exact fun _ _ => removed_entry
  · split at hstep
    · cases hstep
      exact fun _ _ => id
    · split at hstep
      · cases hstep
      · cases hstep
        exact fun _ _ => id
  · cases hstep
    exact fun _ _ => removed_entry
  · cases hstep
    exact fun _ _ => id
  · cases hstep

theorem callerStep_frame (hstep : callerStep state call = some next) :
    next.reader = state.reader ∧ next.closed = state.closed := by
  unfold callerStep at hstep
  split at hstep
  · cases hstep
    exact ⟨rfl, rfl⟩
  · cases hstep
    exact ⟨rfl, rfl⟩
  · split at hstep
    · cases hstep
      exact ⟨rfl, rfl⟩
    · split at hstep
      · cases hstep
      · cases hstep
        exact ⟨rfl, rfl⟩
  · cases hstep
    exact ⟨rfl, rfl⟩
  · cases hstep
    exact ⟨rfl, rfl⟩
  · cases hstep

theorem dropStep_frame (hstep : dropStep state call = some next) :
    next.reader = state.reader ∧ next.closed = state.closed ∧
      next.pendingReplies = state.pendingReplies := by
  obtain ⟨identifier, hnext, _⟩ := dropStep_eq_some hstep
  rw [hnext]
  exact ⟨rfl, rfl, rfl⟩

/-- The flag is up when the reader is on its way out and has told so. -/
def State.Closes (state : State) : Prop :=
  (∃ ends, state.reader = .notifyingClosed ends) ∨ state.reader = .ended → state.closed = true

/-- The reader on its way out has left no entry in the map. -/
def State.Emptied (state : State) : Prop :=
  state.Failed → ∀ identifier, state.pendingReplies identifier = none

/-- What a step of the reader does to the map and the flag. -/
structure ReaderMoves (state next : State) : Prop where
  shrinks : Shrinks state next
  failed : next.Failed → state.Failed ∨ ∀ identifier, next.pendingReplies identifier = none
  closes : state.Closes → next.Closes

theorem handled_cases (checks : Bool) (archive : Archive) (message : Message) (acknowledged : Bool) :
    handled checks archive message acknowledged = .reading ∨
      handled checks archive message acknowledged = .closing false ∨
      handled checks archive message acknowledged = .panicked := by
  unfold handled
  split
  · cases acknowledged
    · exact Or.inr (Or.inl rfl)
    · exact Or.inl rfl
  · exact Or.inl rfl
  · exact Or.inr (Or.inr rfl)
  · exact Or.inr (Or.inr rfl)

/-- A step after which the reader is not on its way out. -/
theorem ReaderMoves.stays (hshrinks : Shrinks state next)
    (hreader : next.reader ≠ .closing true ∧ (∀ ends, next.reader ≠ .notifyingClosed ends) ∧
      next.reader ≠ .ended) : ReaderMoves state next where
  shrinks := hshrinks
  failed := by
    intro hcase
    rcases hcase with hfailed | hfailed | hfailed
    · exact absurd hfailed hreader.1
    · exact absurd hfailed (hreader.2.1 true)
    · exact absurd hfailed hreader.2.2
  closes _ := by
    intro hcase
    rcases hcase with ⟨ends, hends⟩ | hended
    · exact absurd hends (hreader.2.1 ends)
    · exact absurd hended hreader.2.2

theorem readerMoves_reader (hstep : readerStep setup.checks setup.archive state = some next) :
    ReaderMoves state next := by
  have hhandled (message : Message) (acknowledged : Bool) : ReaderMoves state
      { state with reader := handled setup.checks setup.archive message acknowledged } := by
    apply ReaderMoves.stays
    · exact fun _ _ => id
    · rcases handled_cases setup.checks setup.archive message acknowledged with heq | heq | heq
      all_goals
        rw [heq]
        simp
  unfold readerStep at hstep
  split at hstep
  · split at hstep
    · cases hstep
      exact hhandled _ _
    · split at hstep
      · cases hstep
        exact hhandled _ _
      · cases hstep
        apply ReaderMoves.stays
        · exact fun _ _ => removed_entry
        · simp
  · split at hstep
    · cases hstep
      apply ReaderMoves.stays
      · exact fun _ _ => id
      · simp
    · cases hstep
      apply ReaderMoves.stays
      · exact fun _ _ => id
      · simp
  · cases hstep
    constructor
    · intro identifier call hentry
      cases hentry
    · exact fun _ => Or.inr fun _ => rfl
    · intro _
      simp [State.Closes]
  · rename_i ends hreader
    cases hstep
    constructor
    · exact fun _ _ => id
    · intro hfailed
      have hends : ends = true := by simpa [State.Failed] using hfailed
      rw [hends] at hreader
      exact Or.inl (Or.inl hreader)
    · exact fun _ _ => rfl
  · rename_i ends hreader
    cases hstep
    constructor
    · exact fun _ _ => id
    · intro hfailed
      have hends : ends = true := by
        cases ends
        · simp [State.Failed] at hfailed
        · rfl
      rw [hends] at hreader
      exact Or.inl (Or.inr (Or.inl hreader))
    · intro hcloses _
      exact hcloses (Or.inl ⟨ends, hreader⟩)
  · cases hstep

/-- A step that the reader does not take part in. -/
theorem ReaderMoves.other (hshrinks : Shrinks state next) (hreader : next.reader = state.reader)
    (hclosed : next.closed = state.closed) : ReaderMoves state next where
  shrinks := hshrinks
  failed hfailed := by
    unfold State.Failed at hfailed ⊢
    rw [hreader] at hfailed
    exact Or.inl hfailed
  closes hcloses := by
    unfold State.Closes
    rw [hreader, hclosed]
    exact hcloses

theorem readerMoves_step (hstep : step setup state action = some next)
    (hinserting : ∀ call identifier, action = .caller call →
      state.calls call ≠ .inserting identifier) : ReaderMoves state next := by
  cases action with
  | incoming message acknowledged =>
    simp only [step] at hstep
    split at hstep
    · cases hstep
      apply ReaderMoves.stays
      · exact fun _ _ => id
      · simp
    · cases hstep
  | error =>
    simp only [step] at hstep
    split at hstep
    · cases hstep
      apply ReaderMoves.stays
      · exact fun _ _ => id
      · simp
    · cases hstep
  | panic =>
    simp only [step] at hstep
    split at hstep
    · cases hstep
      apply ReaderMoves.stays
      · exact fun _ _ => id
      · simp
    · cases hstep
  | reader => exact readerMoves_reader hstep
  | send =>
    cases hstep
    exact ReaderMoves.other (fun _ _ => id) rfl rfl
  | call call =>
    simp only [step] at hstep
    split at hstep
    · cases hstep
      exact ReaderMoves.other (fun _ _ => id) rfl rfl
    · cases hstep
  | caller call =>
    obtain ⟨hreader, hclosed⟩ := callerStep_frame hstep
    exact ReaderMoves.other (shrinks_caller hstep fun identifier => hinserting call identifier rfl)
      hreader hclosed
  | wrote call written =>
    simp only [step] at hstep
    split at hstep
    · cases hstep
      exact ReaderMoves.other (fun _ _ => id) rfl rfl
    · cases hstep
  | drop call =>
    obtain ⟨hreader, hclosed, hpending⟩ := dropStep_frame hstep
    apply ReaderMoves.other _ hreader hclosed
    intro identifier caller hentry
    rwa [hpending] at hentry

theorem closes_step (h : state.Closes) (hstep : step setup state action = some next) :
    next.Closes := by
  by_cases hinserting : ∃ call identifier, action = .caller call ∧
      state.calls call = .inserting identifier
  · obtain ⟨call, identifier, rfl, -⟩ := hinserting
    obtain ⟨hreader, hclosed⟩ := callerStep_frame hstep
    unfold State.Closes
    rw [hreader, hclosed]
    exact h
  · apply (readerMoves_step hstep ?_).closes h
    intro call identifier haction hphase
    exact hinserting ⟨call, identifier, haction, hphase⟩

theorem emptied_step (h : state.Emptied) (htimely : Timely state action)
    (hstep : step setup state action = some next) : next.Emptied := by
  intro hfailed
  by_cases hinserting : ∃ call identifier, action = .caller call ∧
      state.calls call = .inserting identifier
  · obtain ⟨call, identifier, rfl, hphase⟩ := hinserting
    obtain ⟨hreader, -⟩ := callerStep_frame hstep
    unfold State.Failed at hfailed
    rw [hreader] at hfailed
    exact absurd hfailed (htimely call identifier rfl hphase)
  · have hmoves := readerMoves_step hstep (fun call identifier haction hphase =>
      hinserting ⟨call, identifier, haction, hphase⟩)
    rcases hmoves.failed hfailed with hbefore | hempty
    · intro identifier
      rcases hentry : next.pendingReplies identifier with _ | call
      · rfl
      · have hold := hmoves.shrinks identifier call hentry
        rw [h hbefore identifier] at hold
        cases hold
    · exact hempty

theorem State.Emptied.not_stranded (h : state.Emptied) : ¬ state.Stranded := by
  intro ⟨hended, _, call, identifier, _, hpending, _⟩
  rw [h (Or.inr (Or.inr hended)) identifier] at hpending
  cases hpending

/-- The rest of the way out of the reader. -/
theorem run_to_ended (setup : Setup) (state : State) (hfailed : state.Failed) (hcloses : state.Closes) :
    ∃ actions, run setup state actions = some { state with reader := .ended, closed := true } := by
  have hclosed : (∃ ends, state.reader = .notifyingClosed ends) ∨ state.reader = .ended →
      { state with reader := .ended, closed := true } = { state with reader := .ended } := by
    intro hreader
    rw [← hcloses hreader]
  rcases hfailed with hreader | hreader | hreader
  · refine ⟨[.reader, .reader], ?_⟩
    simp [StepRuns.run, step, readerStep, hreader]
  · refine ⟨[.reader], ?_⟩
    rw [hclosed (Or.inl ⟨true, hreader⟩)]
    simp [StepRuns.run, step, readerStep, hreader]
  · refine ⟨[], ?_⟩
    rw [hclosed (Or.inr hreader), ← hreader]
    rfl

/-- A sender that enters the map after the others were dropped stays there. -/
theorem stranded_of_inserting {identifier : ℕ} (hsound : state.Sound) (hcloses : state.Closes)
    (hfailed : state.Failed) (hphase : state.calls call = .inserting identifier) :
    ∃ rest next, run setup state (.caller call :: rest) = some next ∧ next.Stranded := by
  have hnone : state.delivered call = none := by
    rcases hdelivered : state.delivered call with _ | ⟨number, message⟩
    · rfl
    · have hentered := (hsound.delivered call number message hdelivered).1
      rw [hphase] at hentered
      cases hentered
  obtain ⟨actions, hactions⟩ := run_to_ended setup
    { state with
      pendingReplies := Function.update state.pendingReplies identifier (some call)
      calls := Function.update state.calls call (.waiting identifier) } hfailed hcloses
  refine ⟨.wrote call true :: actions,
    { state with
      pendingReplies := Function.update state.pendingReplies identifier (some call)
      calls := Function.update state.calls call (.waiting identifier)
      reader := .ended
      closed := true }, ?_, rfl, rfl, call, identifier, by simp, by simp, hnone⟩
  rw [← hactions]
  simp [StepRuns.run, step, callerStep, hphase]

end Exit

/-- A call receives only a reply to it, which nobody else receives. After the reader has
exited no call waits for an entry of the map, as long as none is entered once the reader has
dropped them; and one that is entered then stays, and its call waits for it. -/
theorem replies_correlated (setup : Setup) :
    (∀ actions state, run setup .new actions = some state → state.Correlated) ∧
    (∀ actions state, run setup .new actions = some state →
      Along (step setup) Timely .new actions → ¬ state.Stranded) ∧
    ∀ actions state call identifier, run setup .new actions = some state → state.Failed →
      state.calls call = .inserting identifier →
        ∃ rest next, run setup state (.caller call :: rest) = some next ∧ next.Stranded := by
  have hsound : ∀ actions state, run setup .new actions = some state → state.Sound :=
    fun actions state hrun => run_invariant (fun _ _ _ => sound_step) sound_new hrun
  refine ⟨?_, ?_, ?_⟩
  · intro actions state hrun
    exact (hsound actions state hrun).correlated
  · intro actions state hrun htimely
    have hnew : State.new.Emptied := fun _ _ => rfl
    exact (run_along (fun _ _ _ => emptied_step) hnew htimely hrun).not_stranded
  · intro actions state call identifier hrun hfailed hphase
    have hnew : State.new.Closes := by simp [State.Closes, State.new]
    have hcloses := run_invariant (fun _ _ _ => closes_step) hnew hrun
    exact stranded_of_inserting (hsound actions state hrun) hcloses hfailed hphase

/-- The reader exits on an error, and then a method is called. -/
def lateCall : List Action :=
  [.error, .reader, .reader, .reader, .call 0, .caller 0, .wrote 0 true]

theorem lateCall_stranded :
    ¬ ∀ setup actions state, run setup .new actions = some state →
      state.Correlated ∧ ¬ state.Stranded := by
  intro h
  obtain ⟨state, hrun⟩ : ∃ state, run ⟨true, fun _ => none⟩ .new lateCall = some state := ⟨_, rfl⟩
  apply (h _ lateCall state hrun).2
  cases hrun
  exact ⟨rfl, rfl, 0, 1, rfl, rfl, rfl⟩

end XitForge.Dvt.Replies
