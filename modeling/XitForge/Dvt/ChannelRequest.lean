import XitForge.Dvt.Registry
import XitForge.Dvt.Replies

/-!
A whole call of `make_channel`. It enters the metadata and the queue of its code, each
under the lock of its map, and only then asks the peer; no exit takes the entries back.
Between its steps other tasks change the maps, so what the call leaves behind is told by
comparing the maps with those that the other tasks alone would have made.
-/
namespace XitForge.Dvt.Registry

open RustEval
open Replies (CallResult)

variable {Handler : Type}

/-- A lock section of another task on one of the two maps, or on the messages of a queue. -/
inductive Section where
  | registerMetadata (code : Int32) (identifier : String) (remote : Bool)
  | removeMetadata (code : Int32)
  | ensureQueue (code : Int32)
  | removeQueue (code : Int32)
  | push (message : Message)
  /-- The first message of a queue is read. -/
  | pop (code : Int32)

def Section.apply (state : State Handler) : Section → State Handler
  | registerMetadata code identifier remote => state.registerChannelMetadata code identifier remote
  | removeMetadata code =>
    { state with channelMetadata := Function.update state.channelMetadata code none }
  | ensureQueue code => state.ensureChannelRegistered code
  | removeQueue code => { state with channels := Function.update state.channels code none }
  | push message => state.enqueueMessage message
  | pop code =>
    { state with
      channels := Function.update state.channels code ((state.channels code).map List.tail) }

def State.applyAll (state : State Handler) (sections : List Section) : State Handler :=
  sections.foldl Section.apply state

/-- What other tasks do while a channel with a code is made: before its metadata is entered,
before its queue is entered, and until the call returns. The queue is not read before: that
takes a handle, which the call has yet to give. -/
structure Others (code : Int32) where
  earlier : List Section
  between : List Section
  after : List Section
  unread : .pop code ∉ after

inductive ChannelError where
  | writeFailed
  | closed
  | unexpectedResponse
  deriving DecidableEq, Repr

/-- What `make_channel` makes of the result of `call_method_with_reply`. -/
def channelResult (code : Int32) : CallResult → Eval ChannelError Int32
  | .message message => if message.data.isSome then .err .unexpectedResponse else .ok code
  | .writeFailed => .err .writeFailed
  | .closed => .err .closed
  | .unexpectedResponse => .err .unexpectedResponse

/-- The code that `make_channel` takes from the counter. -/
def State.nextCode (state : State Handler) : Int32 := state.newChannel.toInt32

def State.taken (state : State Handler) : State Handler :=
  { state with newChannel := state.newChannel + 1, made := state.nextCode :: state.made }

/-- `make_channel`. A negative code panics where the request is made. -/
def makeChannelCall (state : State Handler) (identifier : String) (others : Others state.nextCode)
    (result : CallResult) : Eval ChannelError Int32 × State Handler :=
  let code := state.nextCode
  let state := state.taken.applyAll others.earlier
  let state := (state.registerChannelMetadata code identifier false).applyAll others.between
  let state := (state.ensureChannelRegistered code).applyAll others.after
  (if code < 0 then .panic else channelResult code result, state)

/-- The registry that the other tasks alone make. -/
def Others.alone {code : Int32} (others : Others code) (state : State Handler) : State Handler :=
  state.applyAll (others.earlier ++ others.between ++ others.after)

/-- A code that `find_registered_channel_code` can return: the map is looked through in any
order. -/
def State.MayFind (state : State Handler) (identifiers : List String) (remote : Option Bool)
    (code : Int32) : Prop :=
  ∃ key metadata, state.channelMetadata key = some metadata ∧
    metadata.identifier ∈ identifiers ∧ (∀ flag ∈ remote, flag = metadata.remote) ∧
      metadata.code = code

/-- A call that changed nothing in the two maps. -/
structure LeavesNoTrace (alone state : State Handler) : Prop where
  channels : state.channels = alone.channels
  metadata : state.channelMetadata = alone.channelMetadata
  notFound : ∀ identifiers remote code, state.MayFind identifiers remote code →
    alone.MayFind identifiers remote code

namespace Section

/-- The section enters or removes the metadata of a code. -/
def writesMetadata (code : Int32) : Section → Bool
  | registerMetadata other _ _ => other == code
  | removeMetadata other => other == code
  | _ => false

/-- The section has to do with the queue of a code. -/
def touchesQueue (code : Int32) : Section → Bool
  | ensureQueue other => other == code
  | removeQueue other => other == code
  | push message => message.messageHeader.channel == code
  | pop other => other == code
  | _ => false

/-- The metadata of a code after a section. -/
def metadataAt (code : Int32) (old : Option ChannelMetadata) : Section → Option ChannelMetadata
  | registerMetadata other identifier remote =>
    if other = code then some ⟨code, identifier, remote⟩ else old
  | removeMetadata other => if other = code then none else old
  | _ => old

/-- The queue of a code after a section. -/
def queueAt (code : Int32) (old : Option (List Message)) : Section → Option (List Message)
  | ensureQueue other => if other = code then some (old.getD []) else old
  | removeQueue other => if other = code then none else old
  | push message =>
    if message.messageHeader.channel = code then old.map (· ++ [message]) else old
  | pop other => if other = code then old.map List.tail else old
  | _ => old

def metadataAfter (code : Int32) (sections : List Section) (old : Option ChannelMetadata) :
    Option ChannelMetadata := sections.foldl (metadataAt code) old

def queueAfter (code : Int32) (sections : List Section) (old : Option (List Message)) :
    Option (List Message) := sections.foldl (queueAt code) old

end Section

section Entries

variable {state : State Handler} {code : Int32} {sections : List Section}

theorem enqueueMessage_eq (state : State Handler) (message : Message) :
    state.enqueueMessage message = { state with
      channels := Function.update state.channels message.messageHeader.channel
        ((state.channels message.messageHeader.channel).map (· ++ [message])) } := by
  unfold State.enqueueMessage
  rcases hqueue : state.channels message.messageHeader.channel with _ | messages
  · dsimp only [Option.map_none]
    rw [← hqueue, Function.update_eq_self]
  · rfl

theorem apply_metadata (state : State Handler) (change : Section) (code : Int32) :
    (change.apply state).channelMetadata code =
      Section.metadataAt code (state.channelMetadata code) change := by
  cases change with
  | registerMetadata other identifier remote =>
    by_cases heq : other = code
    · subst heq
      simp [Section.apply, Section.metadataAt, State.registerChannelMetadata]
    · simp [Section.apply, Section.metadataAt, State.registerChannelMetadata, heq,
        Function.update_of_ne (Ne.symm heq)]
  | removeMetadata other =>
    by_cases heq : other = code
    · subst heq
      simp [Section.apply, Section.metadataAt]
    · simp [Section.apply, Section.metadataAt, heq, Function.update_of_ne (Ne.symm heq)]
  | ensureQueue other =>
    rw [Section.apply, ensureChannelRegistered_eq]
    rfl
  | push message =>
    rw [Section.apply, enqueueMessage_eq]
    rfl
  | removeQueue other => rfl
  | pop other => rfl

theorem apply_channels (state : State Handler) (change : Section) (code : Int32) :
    (change.apply state).channels code = Section.queueAt code (state.channels code) change := by
  have hupdate (other : Int32) (queue : Option (List Message)) :
      Function.update state.channels other queue code =
        if other = code then queue else state.channels code := by
    by_cases heq : other = code
    · subst heq
      simp
    · simp [heq, Function.update_of_ne (Ne.symm heq)]
  cases change with
  | ensureQueue other =>
    rw [Section.apply, ensureChannelRegistered_eq, Section.queueAt]
    refine (hupdate _ _).trans ?_
    split_ifs with heq
    · rw [heq]
    · rfl
  | removeQueue other => exact hupdate other none
  | push message =>
    rw [Section.apply, enqueueMessage_eq, Section.queueAt]
    refine (hupdate _ _).trans ?_
    split_ifs with heq
    · rw [heq]
    · rfl
  | pop other =>
    rw [Section.apply, Section.queueAt]
    refine (hupdate _ _).trans ?_
    split_ifs with heq
    · rw [heq]
    · rfl
  | registerMetadata other identifier remote => rfl
  | removeMetadata other => rfl

theorem applyAll_metadata (state : State Handler) (sections : List Section) (code : Int32) :
    (state.applyAll sections).channelMetadata code =
      Section.metadataAfter code sections (state.channelMetadata code) := by
  induction sections generalizing state with
  | nil => rfl
  | cons change sections ih =>
    have hrest := ih (change.apply state)
    rw [apply_metadata] at hrest
    exact hrest

theorem applyAll_channels (state : State Handler) (sections : List Section) (code : Int32) :
    (state.applyAll sections).channels code =
      Section.queueAfter code sections (state.channels code) := by
  induction sections generalizing state with
  | nil => rfl
  | cons change sections ih =>
    have hrest := ih (change.apply state)
    rw [apply_channels] at hrest
    exact hrest

theorem applyAll_append (state : State Handler) (first second : List Section) :
    state.applyAll (first ++ second) = (state.applyAll first).applyAll second := List.foldl_append

/-- A section that does not write the metadata of a code leaves it, and one that does hides
what it was. -/
theorem metadataAt_eq (change : Section) (code : Int32) :
    (change.writesMetadata code = false ∧ ∀ old, Section.metadataAt code old change = old) ∨
      (change.writesMetadata code = true ∧
        ∀ old old', Section.metadataAt code old change = Section.metadataAt code old' change) := by
  cases change with
  | registerMetadata other identifier remote =>
    by_cases heq : other = code <;> simp [Section.writesMetadata, Section.metadataAt, heq]
  | removeMetadata other =>
    by_cases heq : other = code <;> simp [Section.writesMetadata, Section.metadataAt, heq]
  | ensureQueue other => simp [Section.writesMetadata, Section.metadataAt]
  | removeQueue other => simp [Section.writesMetadata, Section.metadataAt]
  | push message => simp [Section.writesMetadata, Section.metadataAt]
  | pop other => simp [Section.writesMetadata, Section.metadataAt]

theorem metadataAfter_eq_iff (sections : List Section) (code : Int32)
    (old old' : Option ChannelMetadata) :
    Section.metadataAfter code sections old = Section.metadataAfter code sections old' ↔
      old = old' ∨ ∃ change ∈ sections, change.writesMetadata code = true := by
  induction sections generalizing old old' with
  | nil => simp [Section.metadataAfter]
  | cons change sections ih =>
    have hiff := ih (Section.metadataAt code old change) (Section.metadataAt code old' change)
    refine hiff.trans ?_
    rcases metadataAt_eq change code with ⟨hnot, hsame⟩ | ⟨hwrites, hconst⟩
    · rw [hsame, hsame]
      simp [hnot]
    · rw [hconst old old']
      simp [hwrites]

section Queue

variable (code : Int32) (old : Option (List Message)) (change : Section) (sections : List Section)

theorem queueAfter_cons : Section.queueAfter code (change :: sections) old =
    Section.queueAfter code sections (Section.queueAt code old change) := rfl

theorem queueAt_ensureQueue :
    Section.queueAt code old (.ensureQueue code) = some (old.getD []) := if_pos rfl

theorem queueAt_removeQueue : Section.queueAt code old (.removeQueue code) = none := if_pos rfl

variable {code old}

theorem queueAt_push {message : Message} (h : message.messageHeader.channel = code) :
    Section.queueAt code old (.push message) = old.map (· ++ [message]) := if_pos h

end Queue

theorem ne_removeQueue {change : Section} {code : Int32}
    (h : change.touchesQueue code = false) : .removeQueue code ≠ change := by
  intro heq
  subst heq
  simp [Section.touchesQueue] at h

/-- What a section does to the queue of a code. -/
theorem queueAt_cases (change : Section) (code : Int32) :
    (change.touchesQueue code = false ∧ ∀ old, Section.queueAt code old change = old) ∨
      change = .ensureQueue code ∨ change = .removeQueue code ∨ change = .pop code ∨
        ∃ message, message.messageHeader.channel = code ∧ change = .push message := by
  cases change with
  | ensureQueue other =>
    by_cases heq : other = code <;> simp [Section.touchesQueue, Section.queueAt, heq]
  | removeQueue other =>
    by_cases heq : other = code <;> simp [Section.touchesQueue, Section.queueAt, heq]
  | pop other =>
    by_cases heq : other = code <;> simp [Section.touchesQueue, Section.queueAt, heq]
  | push message =>
    by_cases heq : message.messageHeader.channel = code <;>
      simp [Section.touchesQueue, Section.queueAt, heq]
  | registerMetadata other identifier remote => simp [Section.touchesQueue, Section.queueAt]
  | removeMetadata other => simp [Section.touchesQueue, Section.queueAt]

/-- Messages in front of a queue stay there until the queue is removed. -/
theorem queueAfter_append_iff (hunread : .pop code ∉ sections) {front : List Message}
    (hfront : front ≠ []) (queue : List Message) :
    Section.queueAfter code sections (some (front ++ queue)) =
        Section.queueAfter code sections (some queue) ↔
      .removeQueue code ∈ sections := by
  induction sections generalizing queue with
  | nil => simpa [Section.queueAfter] using hfront
  | cons change sections ih =>
    obtain ⟨hpop, hrest⟩ := not_or.mp (mt List.mem_cons.mpr hunread)
    rw [queueAfter_cons, queueAfter_cons, List.mem_cons]
    rcases queueAt_cases change code with ⟨hnot, hsame⟩ | rfl | rfl | rfl | ⟨message, hcode, rfl⟩
    · rw [hsame, hsame, ih hrest, or_iff_right (ne_removeQueue hnot)]
    · rw [queueAt_ensureQueue, queueAt_ensureQueue, Option.getD_some, Option.getD_some, ih hrest,
        or_iff_right (by simp)]
    · rw [queueAt_removeQueue, queueAt_removeQueue]
      simp
    · exact absurd rfl hpop
    · rw [queueAt_push hcode, queueAt_push hcode, Option.map_some, Option.map_some,
        List.append_assoc, ih hrest, or_iff_right (by simp)]

/-- A queue that is entered too early is not seen any more once it is removed, or if
another task enters it while it is empty. -/
theorem queueAfter_none_iff (hunread : .pop code ∉ sections) (queue : List Message) :
    Section.queueAfter code sections (some queue) = Section.queueAfter code sections none ↔
      .removeQueue code ∈ sections ∨
        queue = [] ∧ sections.find? (·.touchesQueue code) = some (.ensureQueue code) := by
  induction sections generalizing queue with
  | nil => simp [Section.queueAfter]
  | cons change sections ih =>
    obtain ⟨hpop, hrest⟩ := not_or.mp (mt List.mem_cons.mpr hunread)
    rw [queueAfter_cons, queueAfter_cons, List.mem_cons]
    rcases queueAt_cases change code with ⟨hnot, hsame⟩ | rfl | rfl | rfl | ⟨message, hcode, rfl⟩
    · rw [hsame, hsame, ih hrest, or_iff_right (ne_removeQueue hnot),
        List.find?_cons_of_neg (by simp [hnot])]
    · have htouches : Section.touchesQueue code (.ensureQueue code) = true := by
        simp [Section.touchesQueue]
      rw [List.find?_cons_of_pos htouches, queueAt_ensureQueue, queueAt_ensureQueue,
        Option.getD_some, Option.getD_none]
      by_cases hempty : queue = []
      · simp [hempty]
      · have hiff := queueAfter_append_iff hrest hempty []
        rw [List.append_nil] at hiff
        rw [hiff]
        simp [hempty]
    · rw [queueAt_removeQueue, queueAt_removeQueue]
      simp
    · exact absurd rfl hpop
    · have htouches : Section.touchesQueue code (.push message) = true := by
        simp [Section.touchesQueue, hcode]
      rw [List.find?_cons_of_pos htouches, queueAt_push hcode, queueAt_push hcode,
        Option.map_some, Option.map_none, ih hrest]
      simp

end Entries

section Calls

variable {state : State Handler} {identifier : String} {result : CallResult}

/-- The metadata of a code was the same before it was entered, or another task wrote it
since. -/
def MetadataCovered (state : State Handler) (identifier : String)
    (others : Others state.nextCode) : Prop :=
  (state.applyAll others.earlier).channelMetadata state.nextCode =
      some ⟨state.nextCode, identifier, false⟩ ∨
    ∃ change ∈ others.between ++ others.after, change.writesMetadata state.nextCode = true

/-- The queue of a code was there before it was entered, or another task removed it since,
or entered it as well before any message came. -/
def QueueCovered (state : State Handler) (others : Others state.nextCode) : Prop :=
  ((state.applyAll (others.earlier ++ others.between)).channels state.nextCode).isSome = true ∨
    .removeQueue state.nextCode ∈ others.after ∨
      others.after.find? (·.touchesQueue state.nextCode) = some (.ensureQueue state.nextCode)

/-- The counter is not looked at by the sections of the other tasks. -/
theorem taken_applyAll (state : State Handler) (sections : List Section) :
    (state.taken.applyAll sections).channels = (state.applyAll sections).channels ∧
      (state.taken.applyAll sections).channelMetadata =
        (state.applyAll sections).channelMetadata := by
  constructor
  · funext code
    rw [applyAll_channels, applyAll_channels]
    rfl
  · funext code
    rw [applyAll_metadata, applyAll_metadata]
    rfl

theorem makeChannelCall_metadata (others : Others state.nextCode) (code : Int32) :
    (makeChannelCall state identifier others result).2.channelMetadata code =
      Section.metadataAfter code (others.between ++ others.after)
        (if code = state.nextCode then some ⟨state.nextCode, identifier, false⟩
        else (state.applyAll others.earlier).channelMetadata code) := by
  unfold makeChannelCall
  dsimp only
  rw [applyAll_metadata, ensureChannelRegistered_eq]
  dsimp only
  rw [applyAll_metadata, Section.metadataAfter, Section.metadataAfter, Section.metadataAfter,
    List.foldl_append]
  congr 2
  unfold State.registerChannelMetadata
  dsimp only
  rw [(taken_applyAll state others.earlier).2]
  by_cases heq : code = state.nextCode
  · rw [heq, if_pos rfl, Function.update_self]
  · rw [if_neg heq, Function.update_of_ne heq]

theorem makeChannelCall_channels (others : Others state.nextCode) (code : Int32) :
    (makeChannelCall state identifier others result).2.channels code =
      Section.queueAfter code others.after
        (if code = state.nextCode then
          some (((state.applyAll (others.earlier ++ others.between)).channels code).getD [])
        else (state.applyAll (others.earlier ++ others.between)).channels code) := by
  have hbetween : (((state.taken.applyAll others.earlier).registerChannelMetadata state.nextCode
      identifier false).applyAll others.between).channels =
      (state.applyAll (others.earlier ++ others.between)).channels := by
    funext other
    rw [applyAll_channels, applyAll_append, applyAll_channels]
    exact congrArg _ (congrFun (taken_applyAll state others.earlier).1 other)
  unfold makeChannelCall
  dsimp only
  rw [applyAll_channels, ensureChannelRegistered_eq]
  dsimp only
  rw [hbetween]
  congr 1
  by_cases heq : code = state.nextCode
  · rw [heq, if_pos rfl, Function.update_self]
  · rw [if_neg heq, Function.update_of_ne heq]

theorem alone_metadata (others : Others state.nextCode) (code : Int32) :
    (others.alone state).channelMetadata code =
      Section.metadataAfter code (others.between ++ others.after)
        ((state.applyAll others.earlier).channelMetadata code) := by
  rw [Others.alone, List.append_assoc, applyAll_append, applyAll_metadata]

theorem alone_channels (others : Others state.nextCode) (code : Int32) :
    (others.alone state).channels code = Section.queueAfter code others.after
      ((state.applyAll (others.earlier ++ others.between)).channels code) := by
  rw [Others.alone, applyAll_append, applyAll_channels]

theorem metadata_eq_alone_iff (others : Others state.nextCode) :
    (makeChannelCall state identifier others result).2.channelMetadata =
        (others.alone state).channelMetadata ↔ MetadataCovered state identifier others := by
  constructor
  · intro h
    have hcode := congrFun h state.nextCode
    rw [makeChannelCall_metadata, alone_metadata, if_pos rfl, metadataAfter_eq_iff] at hcode
    exact hcode.imp_left Eq.symm
  · intro h
    funext code
    rw [makeChannelCall_metadata, alone_metadata]
    by_cases heq : code = state.nextCode
    · rw [heq, if_pos rfl, metadataAfter_eq_iff]
      exact h.imp_left Eq.symm
    · rw [if_neg heq]

theorem channels_eq_alone_iff (others : Others state.nextCode) :
    (makeChannelCall state identifier others result).2.channels = (others.alone state).channels ↔
      QueueCovered state others := by
  have hcode : Section.queueAfter state.nextCode others.after
      (some (((state.applyAll (others.earlier ++ others.between)).channels
        state.nextCode).getD [])) =
      Section.queueAfter state.nextCode others.after
        ((state.applyAll (others.earlier ++ others.between)).channels state.nextCode) ↔
      QueueCovered state others := by
    unfold QueueCovered
    cases (state.applyAll (others.earlier ++ others.between)).channels state.nextCode with
    | some queue => simp
    | none => simp [queueAfter_none_iff others.unread]
  rw [← hcode]
  constructor
  · intro h
    have hentry := congrFun h state.nextCode
    rwa [makeChannelCall_channels, alone_channels, if_pos rfl] at hentry
  · intro h
    funext code
    rw [makeChannelCall_channels, alone_channels]
    by_cases heq : code = state.nextCode
    · rw [heq, if_pos rfl]
      exact h
    · rw [if_neg heq]

/-- A call of `make_channel` that fails leaves no trace, whatever the other tasks do
meanwhile, exactly when both entries of its code were there before, or another task took
them away or wrote them again. -/
theorem leavesNoTrace_iff (state : State Handler) (identifier : String)
    (others : Others state.nextCode) (result : CallResult) {error : ChannelError}
    (_hfailed : (makeChannelCall state identifier others result).1 = .err error) :
    LeavesNoTrace (others.alone state) (makeChannelCall state identifier others result).2 ↔
      MetadataCovered state identifier others ∧ QueueCovered state others := by
  have hmetadata : (makeChannelCall state identifier others result).2.channelMetadata =
      (others.alone state).channelMetadata ↔ MetadataCovered state identifier others :=
    metadata_eq_alone_iff others
  have hqueue : (makeChannelCall state identifier others result).2.channels =
      (others.alone state).channels ↔ QueueCovered state others := channels_eq_alone_iff others
  rw [← hmetadata, ← hqueue]
  constructor
  · intro h
    exact ⟨h.metadata, h.channels⟩
  · intro hgiven
    obtain ⟨hmetadata, hchannels⟩ := hgiven
    refine ⟨hchannels, hmetadata, ?_⟩
    intro identifiers remote code hgiven
    obtain ⟨key, metadata, hentry, hfound⟩ := hgiven
    rw [hmetadata] at hentry
    exact ⟨key, metadata, hentry, hfound⟩

/-- The peer cancels the first channel before the connection is closed. -/
def cancelledMeanwhile : Others (State.new : State Unit).nextCode where
  earlier := []
  between := []
  after := [.removeQueue (State.new : State Unit).nextCode,
    .removeMetadata (State.new : State Unit).nextCode]
  unread := by simp

theorem leavesNoTrace_cancelled :
    LeavesNoTrace (cancelledMeanwhile.alone .new)
      (makeChannelCall .new "channel" cancelledMeanwhile .closed).2 :=
  (leavesNoTrace_iff .new "channel" cancelledMeanwhile .closed rfl).mpr
    ⟨Or.inr ⟨_, List.mem_cons_of_mem _ List.mem_cons_self, by decide⟩,
      Or.inr (Or.inl List.mem_cons_self)⟩

/-- A reply with a payload refuses the channel; its entries stay, and a lookup finds it. -/
theorem refused_channel_found :
    ¬ ∀ (state : State Unit) identifier (others : Others state.nextCode) result error,
      (makeChannelCall state identifier others result).1 = .err error →
        LeavesNoTrace (others.alone state) (makeChannelCall state identifier others result).2 := by
  intro h
  have hnone := h .new "channel" ⟨[], [], [], by simp⟩ (.message (rootMessage "refused" []))
    .unexpectedResponse rfl
  obtain ⟨key, metadata, hentry, -, -, hcode⟩ := hnone.notFound ["channel"] none 1
    ⟨1, ⟨1, "channel", false⟩, by decide, by simp, by simp, rfl⟩
  have hroot : (State.new : State Unit).channelMetadata key = some metadata := hentry
  unfold State.new at hroot
  dsimp only at hroot
  split_ifs at hroot
  cases hroot
  revert hcode
  decide

end Calls

section Reader

variable {setup : Setup Handler} {state : State Handler}

/-- A call that no other task comes between enters its channel as `make_channel` does. -/
theorem makeChannelCall_quiet (identifier : String) (result : CallResult) :
    (makeChannelCall state identifier ⟨[], [], [], by simp⟩ result).2 =
      state.makeChannel identifier := rfl

/-- The sections that the reader task goes through for a message that it handles. -/
def readerSections (setup : Setup Handler) (state : State Handler) (message : Message)
    (handled : Bool) : List Section :=
  match handleControlMessage setup.checks setup.archive message with
  | .ok .capabilities => [.push message]
  | .ok (.channelCanceled code) => [.removeQueue code, .removeMetadata code]
  | .ok (.requestChannel code) =>
    match requestedIdentifier setup.archive message with
    | some identifier => [.registerMetadata code identifier true, .ensureQueue code]
    | none => []
  | .ok .unrelated =>
    if message.messageHeader.conversationIndex = 0 ∧ handled = true ∧
        (state.handlers message.messageHeader.channel).isSome = true then []
    else [.push message]
  | _ => []

/-- Whatever the reader task does to the two maps is a list of sections. -/
theorem handle_sections (message : Message) (handled : Bool) :
    (state.handle setup message handled).channels =
        (state.applyAll (readerSections setup state message handled)).channels ∧
      (state.handle setup message handled).channelMetadata =
        (state.applyAll (readerSections setup state message handled)).channelMetadata := by
  unfold State.handle readerSections
  cases hcontrol : handleControlMessage setup.checks setup.archive message with
  | ok control =>
    cases control with
    | malformed => exact ⟨rfl, rfl⟩
    | capabilities => exact ⟨rfl, rfl⟩
    | channelCanceled code => exact ⟨rfl, rfl⟩
    | requestChannel code =>
      dsimp only
      cases hidentifier : requestedIdentifier setup.archive message with
      | none => exact ⟨rfl, rfl⟩
      | some identifier =>
        obtain ⟨handlers, heq, -⟩ := openRemote_eq setup state code identifier
        dsimp only
        rw [heq]
        exact ⟨rfl, rfl⟩
    | unrelated =>
      dsimp only
      split_ifs
      · exact ⟨rfl, rfl⟩
      · exact ⟨rfl, rfl⟩
  | err error => exact ⟨rfl, rfl⟩
  | panic => exact ⟨rfl, rfl⟩

end Reader

end XitForge.Dvt.Registry
