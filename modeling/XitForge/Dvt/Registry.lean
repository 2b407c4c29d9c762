import Mathlib.Algebra.Ring.Int.Defs
import Mathlib.Algebra.Ring.Nat
import Mathlib.Data.Int.Init
import Mathlib.Data.List.Induction
import Mathlib.Data.UInt
import XitForge.Dvt.ChannelQueue

/-!
The channels of a DTX connection, in three maps: handlers, queues and metadata. A local
channel gets the next code of a counter, a remote one the negative of the code that the
peer asks for; a cancellation of the peer removes the channel with the code it names.
-/
namespace XitForge.Dvt.Registry

open RustEval

structure ChannelMetadata where
  code : Int32
  identifier : String
  remote : Bool
  deriving DecidableEq

variable {Handler : Type}

/-- The maps, the counter of the local channels, and whether the reader task still reads. -/
structure State (Handler : Type) where
  newChannel : UInt32
  handlers : Int32 → Option Handler
  channels : Int32 → Option (List Message)
  channelMetadata : Int32 → Option ChannelMetadata
  reading : Bool
  /-- The codes that `make_channel` has given. -/
  made : List Int32

def controlChannel : ChannelMetadata := ⟨0, "ctrl", false⟩

/-- `RemoteServerShared::new`. -/
def State.new : State Handler where
  newChannel := 1
  handlers := fun _ => none
  channels := fun code => if code = 0 then some [] else none
  channelMetadata := fun code => if code = 0 then some controlChannel else none
  reading := true
  made := []

namespace State

def registerChannelMetadata (state : State Handler) (code : Int32) (identifier : String)
    (remote : Bool) : State Handler :=
  { state with
    channelMetadata := Function.update state.channelMetadata code (some ⟨code, identifier, remote⟩) }

def ensureChannelRegistered (state : State Handler) (code : Int32) : State Handler :=
  match state.channels code with
  | some _ => state
  | none => { state with channels := Function.update state.channels code (some []) }

/-- `make_channel`, until it asks the peer. -/
def makeChannel (state : State Handler) (identifier : String) : State Handler :=
  let code := state.newChannel.toInt32
  let state := { state with newChannel := state.newChannel + 1, made := code :: state.made }
  (state.registerChannelMetadata code identifier false).ensureChannelRegistered code

def removeChannel (state : State Handler) (code : Int32) : State Handler :=
  { state with
    handlers := Function.update state.handlers code none
    channels := Function.update state.channels code none
    channelMetadata := Function.update state.channelMetadata code none }

/-- `set_incoming_handler`, which is what an initializer of a channel does. -/
def setIncomingHandler (state : State Handler) (code : Int32) : Option Handler → State Handler
  | some handler =>
    { state with handlers := Function.update state.handlers code (some handler) }
  | none => state

def enqueueMessage (state : State Handler) (message : Message) : State Handler :=
  match state.channels message.messageHeader.channel with
  | some messages =>
    { state with
      channels := Function.update state.channels message.messageHeader.channel
        (some (messages ++ [message])) }
  | none => state

end State

/-- The identifier of the channel that a message asks for. -/
def requestedIdentifier (archive : Archive) (message : Message) : Option String :=
  match (message.aux.map Aux.values).getD [] with
  | _ :: identifier :: _ => decodeIdentifier archive identifier
  | _ => none

/-- The build, the archive reader and the initializers by the identifiers of their channels. -/
structure Setup (Handler : Type) where
  checks : Bool
  archive : Archive
  initializer : String → Option Handler

/-- A channel that the peer asks for. -/
def State.openRemote (setup : Setup Handler) (state : State Handler) (code : Int32)
    (identifier : String) : State Handler :=
  ((state.registerChannelMetadata code identifier true).ensureChannelRegistered code).setIncomingHandler
    code (setup.initializer identifier)

/-- The reader task with a message that no call waits for. `handled`: the handler of the
channel takes the message. -/
def State.handle (setup : Setup Handler) (state : State Handler) (message : Message)
    (handled : Bool) : State Handler :=
  match handleControlMessage setup.checks setup.archive message with
  | .ok .malformed => state
  | .ok .capabilities => state.enqueueMessage message
  | .ok (.channelCanceled code) => state.removeChannel code
  | .ok (.requestChannel code) =>
    match requestedIdentifier setup.archive message with
    | some identifier => state.openRemote setup code identifier
    | none => state
  | .ok .unrelated =>
    -- `dispatch_to_handler`
    if message.messageHeader.conversationIndex = 0 ∧ handled = true ∧
        (state.handlers message.messageHeader.channel).isSome = true then state
    else state.enqueueMessage message
  | .err _ => { state with reading := false }
  | .panic => { state with reading := false }

inductive Action where
  | makeChannel (identifier : String)
  | incoming (incoming : Incoming)

def step (setup : Setup Handler) (state : State Handler) : Action → State Handler
  | .makeChannel identifier => state.makeChannel identifier
  | .incoming (.message message correlated handled _) =>
    if state.reading = false then state
    -- `dispatch_pending_reply`
    else if message.messageHeader.conversationIndex ≠ 0 ∧ correlated = true then state
    else state.handle setup message handled
  | .incoming .error => { state with reading := false }
  | .incoming .panic => { state with reading := false }

def run (setup : Setup Handler) (actions : List Action) : State Handler :=
  actions.foldl (step setup) .new

/-- The message `_requestChannelWithCode:identifier:` with a code. -/
structure Requests (archive : Archive) (message : Message) (code : UInt32) : Prop where
  root : message.messageHeader.channel = 0
  selector : message.data = some (.string "_requestChannelWithCode:identifier:")
  values : ∃ value identifier rest, (message.aux.map Aux.values).getD [] =
    .u32 value :: identifier :: rest ∧ UInt32.ofNat value = code ∧
      (decodeIdentifier archive identifier).isSome = true

/-- The message `_channelCanceled:` with a code, in one of its two forms. -/
structure Cancels (message : Message) (code : UInt32) : Prop where
  root : message.messageHeader.channel = 0
  selector : message.data = some (.string "_channelCanceled:")
  values : ∃ rest, (message.aux.map Aux.values).getD [] = .u32 code.toNat :: rest ∨
    (message.aux.map Aux.values).getD [] = .i64 (Int64.ofNat code.toNat) :: rest

namespace State

/-- The entry at code 0 is the control channel, and those at positive codes are local. -/
structure Separated (state : State Handler) : Prop where
  control : state.channelMetadata 0 = some controlChannel
  root : (state.channels 0).isSome = true
  metadata : ∀ code metadata, 0 < code → state.channelMetadata code = some metadata →
    metadata.remote = false
  queues : ∀ code, 0 < code → (state.channels code).isSome = true → code ∈ state.made

/-- The registry after a request and its cancellation: the reader handled both, the entry of
the request is gone and all others are as they were. -/
structure Undone (state next : State Handler) (code : UInt32) : Prop where
  reading : next.reading = true
  removed : next.handlers (-code.toInt32) = none ∧ next.channels (-code.toInt32) = none ∧
    next.channelMetadata (-code.toInt32) = none
  others : ∀ other, other ≠ -code.toInt32 → next.handlers other = state.handlers other ∧
    next.channels other = state.channels other ∧
      next.channelMetadata other = state.channelMetadata other

end State

/-- The condition on a step of a run. -/
def Proper (setup : Setup Handler) (state : State Handler) : Action → Prop
  | .makeChannel identifier => state.newChannel ≠ 0 ∨ identifier = "ctrl"
  | .incoming (.message message correlated _ _) => state.reading = true →
    ¬ (message.messageHeader.conversationIndex ≠ 0 ∧ correlated = true) →
      (∀ code, Requests setup.archive message code → 0 < code ∧ code ≤ 2 ^ 31) ∧
        ¬ Cancels message 0
  | _ => True

section Codes

theorem toInt_toInt32 (code : UInt32) : code.toInt32.toInt =
    if code.toNat < 2 ^ 31 then (code.toNat : ℤ) else code.toNat - 2 ^ 32 := by
  have hlt := code.toNat_lt
  show code.toBitVec.toInt = _
  rw [BitVec.toInt_eq_toNat_cond]
  show (if 2 * code.toNat < 2 ^ 32 then (code.toNat : ℤ) else code.toNat - (2 ^ 32 : ℕ)) = _
  split_ifs <;> omega

/-- The code of the channel that the peer asks for. -/
theorem toInt_neg_toInt32 (code : UInt32) : (-code.toInt32).toInt =
    if code.toNat ≤ 2 ^ 31 then -(code.toNat : ℤ) else 2 ^ 32 - code.toNat := by
  have hlt := code.toNat_lt
  rw [Int32.toInt_neg, toInt_toInt32, Int.bmod_def]
  split_ifs <;> omega

/-- The codes that the peer may ask for. -/
theorem neg_toInt32_lt_iff {code : UInt32} : -code.toInt32 < 0 ↔ 0 < code ∧ code ≤ 2 ^ 31 := by
  have hlt := code.toNat_lt
  rw [Int32.lt_iff_toInt_lt, toInt_neg_toInt32, UInt32.lt_iff_toNat_lt, UInt32.le_iff_toNat_le]
  show _ < (0 : ℤ) ↔ 0 < code.toNat ∧ code.toNat ≤ 2 ^ 31
  split_ifs <;> omega

/-- Only the root channel has the code that the peer names when it cancels. -/
theorem toInt32_eq_neg_iff {code : UInt32} (h : code.toNat < 2 ^ 31) :
    code.toInt32 = -code.toInt32 ↔ code = 0 := by
  rw [← Int32.toInt_inj, toInt_neg_toInt32, toInt_toInt32, if_pos h, if_pos (Nat.le_of_lt h),
    ← UInt32.toNat_inj]
  show _ ↔ code.toNat = 0
  omega

end Codes

section Control

variable {checks : Bool} {archive : Archive} {message : Message} {code : UInt32}

theorem Requests.control (checks : Bool) (h : Requests archive message code) :
    handleControlMessage checks archive message =
      (negate checks code.toInt32 >>= fun code => return .requestChannel code) := by
  obtain ⟨hroot, hselector, value, identifier, rest, hvalues, hvalue, hidentifier⟩ := h
  obtain ⟨text, htext⟩ := Option.isSome_iff_exists.mp hidentifier
  unfold handleControlMessage
  rw [hroot, hselector, hvalues, ← hvalue]
  simp only [ne_eq, not_true_eq_false, if_false, htext]
  simp

theorem Requests.identifier (h : Requests archive message code) :
    ∃ identifier, requestedIdentifier archive message = some identifier := by
  obtain ⟨-, -, value, identifier, rest, hvalues, -, hidentifier⟩ := h
  unfold requestedIdentifier
  rw [hvalues]
  exact Option.isSome_iff_exists.mp hidentifier

theorem requests_of_control {code : Int32}
    (h : handleControlMessage checks archive message = .ok (.requestChannel code)) :
    ∃ asked, Requests archive message asked ∧ negate checks asked.toInt32 = .ok code := by
  unfold handleControlMessage at h
  split_ifs at h with hroot
  · cases h
  · split at h
    · rename_i selector hselector
      dsimp only at h
      split_ifs at h with hcapabilities hcanceled hrequest
      · split at h
        · cases h
        · split_ifs at h
          · cases h
          · cases h
      · split at h
        · cases h
        · split at h
          · cases h
          · cases h
      · split at h
        · rename_i value identifier rest hvalues
          obtain ⟨negated, hnegated, hidentifier⟩ := Eval.bind_eq_ok.mp h
          split at hidentifier
          · rename_i text htext
            cases hidentifier
            refine ⟨UInt32.ofNat value, ⟨not_not.mp hroot, ?_, value, identifier, rest, hvalues, rfl,
              ?_⟩, hnegated⟩
            · rw [hselector, hrequest]
            · rw [htext]
              rfl
          · cases hidentifier
        · cases h
      · cases h
    · cases h

theorem decodeChannelCode_u32 (code : UInt32) : decodeChannelCode (.u32 code.toNat) =
    if code.toNat < 2 ^ 31 then some code.toInt32 else none := by
  unfold decodeChannelCode
  dsimp only
  by_cases hsmall : code.toNat < 2 ^ 31
  · have hcode : Int32.ofNat code.toNat = code.toInt32 := by
      rw [← Int32.toInt_inj, toInt_toInt32, if_pos hsmall]
      exact Int32.toInt_ofNat_of_lt hsmall
    rw [if_pos hsmall, if_pos hsmall, hcode]
  · rw [if_neg hsmall, if_neg hsmall]

theorem decodeChannelCode_i64 (code : UInt32) :
    decodeChannelCode (.i64 (Int64.ofNat code.toNat)) =
      if code.toNat < 2 ^ 31 then some code.toInt32 else none := by
  have hlt := code.toNat_lt
  have hvalue : (Int64.ofNat code.toNat).toInt = code.toNat := Int64.toInt_ofNat_of_lt (by omega)
  have hmin : Int32.minValue.toInt = -2 ^ 31 := rfl
  have hmax : Int32.maxValue.toInt = 2 ^ 31 - 1 := rfl
  unfold decodeChannelCode
  dsimp only
  rw [hvalue, hmin, hmax]
  by_cases hsmall : code.toNat < 2 ^ 31
  · have hcode : Int32.ofInt (code.toNat : ℤ) = code.toInt32 := by
      rw [← Int32.toInt_inj, toInt_toInt32, if_pos hsmall]
      exact Int32.toInt_ofInt_of_le (by omega) (by omega)
    rw [if_pos hsmall, if_pos (by omega), hcode]
  · rw [if_neg hsmall, if_neg (by omega)]

theorem Cancels.control (checks : Bool) (archive : Archive) (h : Cancels message code) :
    handleControlMessage checks archive message =
      .ok (if code.toNat < 2 ^ 31 then .channelCanceled code.toInt32 else .malformed) := by
  obtain ⟨hroot, hselector, rest, hvalues⟩ := h
  obtain ⟨first, hfirst, hdecoded⟩ : ∃ first,
      ((message.aux.map Aux.values).getD []).head? = some first ∧
        decodeChannelCode first = if code.toNat < 2 ^ 31 then some code.toInt32 else none := by
    rcases hvalues with hvalues | hvalues
    · exact ⟨_, by rw [hvalues]; rfl, decodeChannelCode_u32 code⟩
    · exact ⟨_, by rw [hvalues]; rfl, decodeChannelCode_i64 code⟩
  unfold handleControlMessage
  rw [hroot, hselector]
  dsimp only
  rw [hfirst]
  dsimp only
  rw [hdecoded, if_neg (by simp), if_neg (by decide), if_pos rfl]
  by_cases hsmall : code.toNat < 2 ^ 31
  · rw [if_pos hsmall, if_pos hsmall]
    rfl
  · rw [if_neg hsmall, if_neg hsmall]
    rfl

theorem decodeChannelCode_zero {first : AuxValue} (h : decodeChannelCode first = some 0) :
    first = .u32 0 ∨ first = .i64 0 := by
  unfold decodeChannelCode at h
  split at h
  · rename_i value
    split_ifs at h with hsmall
    have hvalue := congrArg Int32.toInt (Option.some.inj h)
    rw [Int32.toInt_ofNat_of_lt hsmall] at hvalue
    left
    have hzero : (0 : Int32).toInt = 0 := rfl
    rw [hzero] at hvalue
    rw [show value = 0 by omega]
  · rename_i value
    split_ifs at h with hrange
    have hvalue := congrArg Int32.toInt (Option.some.inj h)
    have hmin : Int32.minValue.toInt = -2 ^ 31 := rfl
    have hmax : Int32.maxValue.toInt = 2 ^ 31 - 1 := rfl
    rw [Int32.toInt_ofInt_of_le (by omega) (by omega)] at hvalue
    right
    rw [← Int64.toInt_inj.mp (show value.toInt = (0 : Int64).toInt from hvalue)]
  · cases h

theorem cancels_of_control
    (h : handleControlMessage checks archive message = .ok (.channelCanceled 0)) :
    Cancels message 0 := by
  unfold handleControlMessage at h
  split_ifs at h with hroot
  · cases h
  · split at h
    · rename_i selector hselector
      dsimp only at h
      split_ifs at h with hcapabilities hcanceled hrequest
      · split at h
        · cases h
        · split_ifs at h
          · cases h
          · cases h
      · split at h
        · cases h
        · rename_i first hfirst
          split at h
          · rename_i decoded hdecoded
            cases h
            obtain ⟨rest, hvalues⟩ := List.head?_eq_some_iff.mp hfirst
            refine ⟨not_not.mp hroot, by rw [hselector, hcanceled], rest, ?_⟩
            rcases decodeChannelCode_zero hdecoded with rfl | rfl
            · exact Or.inl hvalues
            · exact Or.inr hvalues
          · cases h
      · split at h
        · obtain ⟨negated, -, hidentifier⟩ := Eval.bind_eq_ok.mp h
          split at hidentifier
          · cases hidentifier
          · cases hidentifier
        · cases h
      · cases h
    · cases h

theorem negate_ok {channel negated : Int32} (h : negate checks channel = .ok negated) :
    negated = -channel := by
  unfold negate at h
  split_ifs at h
  cases h
  rfl

/-- The codes that a message may have, by what the reader makes of it. -/
theorem proper_iff (checks : Bool) (archive : Archive) (message : Message) :
    ((∀ code, Requests archive message code → 0 < code ∧ code ≤ 2 ^ 31) ∧ ¬ Cancels message 0) ↔
      ∀ code,
        (handleControlMessage checks archive message = .ok (.requestChannel code) → code < 0) ∧
        (handleControlMessage checks archive message = .ok (.channelCanceled code) → code ≠ 0) := by
  constructor
  · intro ⟨hrequests, hcancels⟩ code
    constructor
    · intro hcontrol
      obtain ⟨asked, hasked, hnegated⟩ := requests_of_control hcontrol
      rw [negate_ok hnegated]
      exact neg_toInt32_lt_iff.mpr (hrequests asked hasked)
    · intro hcontrol hzero
      rw [hzero] at hcontrol
      exact hcancels (cancels_of_control hcontrol)
  · intro h
    constructor
    · intro code hrequests
      have hcontrol := hrequests.control checks
      by_cases hpanic : checks = true ∧ code.toInt32 = Int32.minValue
      · -- the least code is the only one without a negative
        have hleast : code = 2 ^ 31 := by
          have hcode := congrArg Int32.toUInt32 hpanic.2
          exact hcode
        rw [hleast]
        decide
      · have hnegated : negate checks code.toInt32 = .ok (-code.toInt32) := if_neg hpanic
        rw [hnegated] at hcontrol
        exact neg_toInt32_lt_iff.mp ((h _).1 hcontrol)
    · intro hcancels
      exact (h 0).2 (hcancels.control checks archive) rfl

end Control

section Separation

variable {setup : Setup Handler} {state : State Handler} {message : Message} {code : Int32}
  {identifier : String}

theorem ensureChannelRegistered_eq (state : State Handler) (code : Int32) :
    state.ensureChannelRegistered code = { state with
      channels := Function.update state.channels code (some ((state.channels code).getD [])) } := by
  unfold State.ensureChannelRegistered
  rcases hchannel : state.channels code with _ | messages
  · rfl
  · dsimp only [Option.getD_some]
    rw [← hchannel, Function.update_eq_self]

theorem ensureChannelRegistered_isSome (other : Int32) (h : (state.channels other).isSome = true) :
    ((state.ensureChannelRegistered code).channels other).isSome = true := by
  rw [ensureChannelRegistered_eq]
  by_cases heq : other = code
  · simp [heq]
  · simpa [Function.update_of_ne heq] using h

theorem ensureChannelRegistered_of_ne {other : Int32} (h : other ≠ code) :
    (state.ensureChannelRegistered code).channels other = state.channels other := by
  rw [ensureChannelRegistered_eq]
  exact Function.update_of_ne h _ _

/-- What the opening of a remote channel does to the maps other than the handlers. -/
theorem openRemote_eq (setup : Setup Handler) (state : State Handler) (code : Int32)
    (identifier : String) :
    ∃ handlers, state.openRemote setup code identifier =
      { (state.registerChannelMetadata code identifier true).ensureChannelRegistered code with
        handlers := handlers } ∧ ∀ other, other ≠ code → handlers other = state.handlers other := by
  have hhandlers : ((state.registerChannelMetadata code identifier true).ensureChannelRegistered
      code).handlers = state.handlers := by
    rw [ensureChannelRegistered_eq]
    rfl
  unfold State.openRemote
  rcases setup.initializer identifier with _ | handler
  · refine ⟨_, rfl, ?_⟩
    intro other _
    exact congrFun hhandlers other
  · refine ⟨_, rfl, ?_⟩
    intro other hother
    rw [Function.update_of_ne hother, hhandlers]

theorem toInt32_eq_zero_iff {code : UInt32} : code.toInt32 = 0 ↔ code = 0 := by
  have hlt := code.toNat_lt
  rw [← Int32.toInt_inj, toInt_toInt32, ← UInt32.toNat_inj]
  show _ = (0 : ℤ) ↔ code.toNat = 0
  split_ifs <;> omega

theorem separated_makeChannel_iff (h : state.Separated) :
    (state.makeChannel identifier).Separated ↔ state.newChannel ≠ 0 ∨ identifier = "ctrl" := by
  have hmetadata : (state.makeChannel identifier).channelMetadata =
      Function.update state.channelMetadata state.newChannel.toInt32
        (some ⟨state.newChannel.toInt32, identifier, false⟩) := by
    unfold State.makeChannel
    dsimp only
    rw [ensureChannelRegistered_eq]
    rfl
  have hmade : (state.makeChannel identifier).made = state.newChannel.toInt32 :: state.made := by
    unfold State.makeChannel
    dsimp only
    rw [ensureChannelRegistered_eq]
    rfl
  constructor
  · intro hnext
    by_contra hnot
    obtain ⟨hzero, hidentifier⟩ := not_or.mp hnot
    have hcontrol := hnext.control
    rw [hmetadata, not_not.mp hzero] at hcontrol
    apply hidentifier
    have hsame : some (⟨0, identifier, false⟩ : ChannelMetadata) = some controlChannel := hcontrol
    exact congrArg ChannelMetadata.identifier (Option.some.inj hsame)
  · intro hproper
    constructor
    · rw [hmetadata]
      by_cases hzero : state.newChannel.toInt32 = 0
      · have hidentifier := hproper.resolve_left (not_not.mpr (toInt32_eq_zero_iff.mp hzero))
        rw [hzero, Function.update_self, hidentifier]
        rfl
      · rw [Function.update_of_ne (Ne.symm hzero)]
        exact h.control
    · exact ensureChannelRegistered_isSome 0 h.root
    · intro code metadata hpos hsome
      rw [hmetadata] at hsome
      by_cases heq : code = state.newChannel.toInt32
      · rw [heq, Function.update_self] at hsome
        cases hsome
        rfl
      · rw [Function.update_of_ne heq] at hsome
        exact h.metadata code metadata hpos hsome
    · intro code hpos hsome
      rw [hmade]
      by_cases heq : code = state.newChannel.toInt32
      · rw [heq]
        exact List.mem_cons_self ..
      · have hold : (state.makeChannel identifier).channels code = state.channels code := by
          unfold State.makeChannel
          dsimp only
          rw [ensureChannelRegistered_of_ne heq]
          rfl
        rw [hold] at hsome
        exact List.mem_cons_of_mem _ (h.queues code hpos hsome)

theorem separated_openRemote_iff (h : state.Separated) :
    (state.openRemote setup code identifier).Separated ↔ code < 0 := by
  obtain ⟨handlers, heq, -⟩ := openRemote_eq setup state code identifier
  rw [heq, ensureChannelRegistered_eq]
  constructor
  · intro hnext
    by_contra hnot
    by_cases hzero : code = 0
    · have hcontrol := hnext.control
      rw [hzero] at hcontrol
      simp [State.registerChannelMetadata, controlChannel] at hcontrol
    · have hpos : 0 < code := by
        have hne : code.toInt ≠ (0 : Int32).toInt := fun hcode => hzero (Int32.toInt_inj.mp hcode)
        rw [Int32.lt_iff_toInt_lt] at hnot ⊢
        omega
      have hremote := hnext.metadata code ⟨code, identifier, true⟩ hpos
        (by simp [State.registerChannelMetadata])
      cases hremote
  · intro hneg
    have hne (other : Int32) (hother : 0 ≤ other) : other ≠ code := by
      intro hsame
      rw [hsame] at hother
      rw [Int32.le_iff_toInt_le] at hother
      rw [Int32.lt_iff_toInt_lt] at hneg
      omega
    have hzero := hne 0 (Int32.le_refl 0)
    have hpositive (other : Int32) (hpos : 0 < other) : other ≠ code := hne other (Int32.le_of_lt hpos)
    constructor
    · simpa [State.registerChannelMetadata, Function.update_of_ne hzero] using h.control
    · simpa [State.registerChannelMetadata, Function.update_of_ne hzero] using h.root
    · intro other metadata hpos hsome
      apply h.metadata other metadata hpos
      simpa [State.registerChannelMetadata, Function.update_of_ne (hpositive other hpos)] using hsome
    · intro other hpos hsome
      apply h.queues other hpos
      simpa [State.registerChannelMetadata, Function.update_of_ne (hpositive other hpos)] using hsome

theorem separated_removeChannel_iff (h : state.Separated) :
    (state.removeChannel code).Separated ↔ code ≠ 0 := by
  constructor
  · intro hnext hzero
    have hcontrol := hnext.control
    rw [hzero] at hcontrol
    simp [State.removeChannel] at hcontrol
  · intro hzero
    constructor
    · simpa [State.removeChannel, Function.update_of_ne (Ne.symm hzero)] using h.control
    · simpa [State.removeChannel, Function.update_of_ne (Ne.symm hzero)] using h.root
    · intro other metadata hpos hsome
      by_cases heq : other = code
      · simp [State.removeChannel, heq] at hsome
      · apply h.metadata other metadata hpos
        simpa [State.removeChannel, Function.update_of_ne heq] using hsome
    · intro other hpos hsome
      by_cases heq : other = code
      · simp [State.removeChannel, heq] at hsome
      · apply h.queues other hpos
        simpa [State.removeChannel, Function.update_of_ne heq] using hsome

theorem separated_enqueueMessage (h : state.Separated) (message : Message) :
    (state.enqueueMessage message).Separated := by
  unfold State.enqueueMessage
  split
  · rename_i messages hchannel
    have hsome (other : Int32) : (Function.update state.channels message.messageHeader.channel
        (some (messages ++ [message])) other).isSome = (state.channels other).isSome := by
      by_cases heq : other = message.messageHeader.channel
      · rw [heq, Function.update_self, hchannel]
        rfl
      · rw [Function.update_of_ne heq]
    constructor
    · exact h.control
    · exact (hsome 0).trans h.root
    · exact h.metadata
    · intro other hpos hother
      exact h.queues other hpos ((hsome other).symm.trans hother)
  · exact h

theorem separated_handle_iff (h : state.Separated) (message : Message) (handled : Bool) :
    (state.handle setup message handled).Separated ↔
      (∀ code, Requests setup.archive message code → 0 < code ∧ code ≤ 2 ^ 31) ∧
        ¬ Cancels message 0 := by
  rw [proper_iff setup.checks]
  unfold State.handle
  cases hcontrol : handleControlMessage setup.checks setup.archive message with
  | ok control =>
    cases control with
    | requestChannel code =>
      obtain ⟨asked, hasked, -⟩ := requests_of_control hcontrol
      obtain ⟨identifier, hidentifier⟩ := hasked.identifier
      simp only [hidentifier, separated_openRemote_iff h]
      constructor
      · intro hneg other
        constructor
        · intro hother
          cases hother
          exact hneg
        · intro hother
          cases hother
      · intro hall
        exact (hall code).1 rfl
    | channelCanceled code =>
      simp only [separated_removeChannel_iff h]
      constructor
      · intro hne other
        constructor
        · intro hother
          cases hother
        · intro hother
          cases hother
          exact hne
      · intro hall
        exact (hall code).2 rfl
    | capabilities => simpa using separated_enqueueMessage h message
    | malformed => simpa using h
    | unrelated =>
      have hseparated : State.Separated
          (if message.messageHeader.conversationIndex = 0 ∧ handled = true ∧
            (state.handlers message.messageHeader.channel).isSome = true then state
          else state.enqueueMessage message) := by
        split_ifs
        · exact h
        · exact separated_enqueueMessage h message
      simpa using hseparated
  | err error =>
    have hseparated : State.Separated { state with reading := false } := { h with }
    simpa using hseparated
  | panic =>
    have hseparated : State.Separated { state with reading := false } := { h with }
    simpa using hseparated

/-- One step keeps the channels apart exactly if it meets the condition. -/
theorem separated_step_iff (h : state.Separated) (action : Action) :
    (step setup state action).Separated ↔ Proper setup state action := by
  have hstopped : State.Separated { state with reading := false } := { h with }
  cases action with
  | makeChannel identifier => exact separated_makeChannel_iff h
  | incoming incoming =>
    cases incoming with
    | message message correlated handled acknowledged =>
      unfold step Proper
      dsimp only
      split_ifs with hreading hcorrelated
      · simpa [hreading] using h
      · constructor
        · intro _ _ hnot
          exact absurd hcorrelated hnot
        · exact fun _ => h
      · rw [separated_handle_iff h]
        constructor
        · exact fun hproper _ _ => hproper
        · exact fun hproper => hproper (by simpa using hreading) hcorrelated
    | error => exact iff_of_true hstopped trivial
    | panic => exact iff_of_true hstopped trivial

theorem separated_new : (State.new : State Handler).Separated where
  control := rfl
  root := rfl
  metadata code metadata hpos hsome := by
    have hne : code ≠ 0 := by
      intro heq
      subst heq
      exact Int32.lt_irrefl hpos
    simp [State.new, hne] at hsome
  queues code hpos hsome := by
    have hne : code ≠ 0 := by
      intro heq
      subst heq
      exact Int32.lt_irrefl hpos
    simp [State.new, hne] at hsome

theorem run_concat (setup : Setup Handler) (actions : List Action) (action : Action) :
    run setup (actions ++ [action]) = step setup (run setup actions) action := by
  unfold run
  rw [List.foldl_append]
  rfl

/-- A run keeps the channels apart in all of its states exactly if all of its steps meet the
condition. -/
theorem separated_run_iff (actions : List Action) :
    (∀ before after, actions = before ++ after → (run setup before).Separated) ↔
      ∀ before action after, actions = before ++ action :: after →
        Proper setup (run setup before) action := by
  constructor
  · intro h before action after heq
    have hbefore := h before (action :: after) heq
    have hnext := h (before ++ [action]) after (by rw [heq]; simp)
    rw [run_concat] at hnext
    exact (separated_step_iff hbefore action).mp hnext
  · intro h before
    induction before using List.reverseRecOn with
    | nil => exact fun _ _ => separated_new
    | append_singleton before action ih =>
      intro after heq
      have hsplit : actions = before ++ action :: after := by rw [heq]; simp
      rw [run_concat]
      exact (separated_step_iff (ih (action :: after) hsplit) action).mpr
        (h before action after hsplit)

end Separation

section Cancellation

variable {setup : Setup Handler} {state : State Handler} {request cancellation : Message}
  {code : UInt32}

theorem handle_request (h : Requests setup.archive request code) (handled : Bool)
    (hnegated : negate setup.checks code.toInt32 = .ok (-code.toInt32)) :
    ∃ identifier, state.handle setup request handled =
      state.openRemote setup (-code.toInt32) identifier := by
  obtain ⟨identifier, hidentifier⟩ := h.identifier
  have hcontrol := h.control setup.checks
  rw [hnegated] at hcontrol
  refine ⟨identifier, ?_⟩
  unfold State.handle
  rw [hcontrol]
  dsimp only [Eval.ok_bind, Eval.pure_eq]
  rw [hidentifier]

theorem handle_cancellation (setup : Setup Handler) (h : Cancels cancellation code) (handled : Bool) :
    state.handle setup cancellation handled =
      if code.toNat < 2 ^ 31 then state.removeChannel code.toInt32 else state := by
  unfold State.handle
  rw [h.control]
  split_ifs <;> rfl

theorem openRemote_metadata (setup : Setup Handler) (state : State Handler) (code : Int32)
    (identifier : String) :
    (state.openRemote setup code identifier).channelMetadata code =
      some ⟨code, identifier, true⟩ := by
  obtain ⟨handlers, heq, -⟩ := openRemote_eq setup state code identifier
  rw [heq, ensureChannelRegistered_eq]
  exact Function.update_self ..

theorem openRemote_others (setup : Setup Handler) (state : State Handler) {code other : Int32}
    (identifier : String) (hother : other ≠ code) :
    (state.openRemote setup code identifier).handlers other = state.handlers other ∧
      (state.openRemote setup code identifier).channels other = state.channels other ∧
        (state.openRemote setup code identifier).channelMetadata other =
          state.channelMetadata other := by
  obtain ⟨handlers, heq, hhandlers⟩ := openRemote_eq setup state code identifier
  rw [heq]
  refine ⟨hhandlers other hother, ensureChannelRegistered_of_ne hother, ?_⟩
  rw [ensureChannelRegistered_eq]
  exact Function.update_of_ne hother _ _

theorem openRemote_reading (setup : Setup Handler) (state : State Handler) (code : Int32)
    (identifier : String) :
    (state.openRemote setup code identifier).reading = state.reading := by
  obtain ⟨handlers, heq, -⟩ := openRemote_eq setup state code identifier
  rw [heq, ensureChannelRegistered_eq]
  rfl

/-- The cancellation of a channel that the peer has opened removes it only at code 0. -/
theorem undone_iff (hreading : state.reading = true) (hrequest : Requests setup.archive request code)
    (hcancellation : Cancels cancellation code) (handled handled' acknowledged acknowledged' : Bool) :
    state.Undone (step setup
      (step setup state (.incoming (.message request false handled acknowledged)))
      (.incoming (.message cancellation false handled' acknowledged'))) code ↔ code = 0 := by
  have hfirst : step setup state (.incoming (.message request false handled acknowledged)) =
      state.handle setup request handled := by
    unfold step
    simp [hreading]
  rw [hfirst]
  by_cases hpanic : setup.checks = true ∧ code.toInt32 = Int32.minValue
  · -- the reader has panicked
    have hcontrol := hrequest.control setup.checks
    have hnegated : negate setup.checks code.toInt32 = .panic := if_pos hpanic
    rw [hnegated] at hcontrol
    have hstopped : state.handle setup request handled = { state with reading := false } := by
      unfold State.handle
      rw [hcontrol]
      rfl
    constructor
    · intro hundone
      have hnot := hundone.reading
      rw [hstopped] at hnot
      cases hnot
    · intro hzero
      rw [hzero] at hpanic
      exact absurd hpanic.2 (by decide)
  · obtain ⟨identifier, hopened⟩ : ∃ identifier, state.handle setup request handled =
        state.openRemote setup (-code.toInt32) identifier :=
      handle_request hrequest handled (if_neg hpanic)
    have hsecond : step setup (state.openRemote setup (-code.toInt32) identifier)
        (.incoming (.message cancellation false handled' acknowledged')) =
        if code.toNat < 2 ^ 31 then
          (state.openRemote setup (-code.toInt32) identifier).removeChannel code.toInt32
        else state.openRemote setup (-code.toInt32) identifier := by
      rw [← handle_cancellation setup hcancellation handled']
      unfold step
      simp [openRemote_reading, hreading]
    rw [hopened, hsecond]
    constructor
    · intro hundone
      by_contra hne
      have hremoved := hundone.removed.2.2
      split_ifs at hremoved with hsmall
      · have hcode : -code.toInt32 ≠ code.toInt32 := by
          intro hsame
          exact hne ((toInt32_eq_neg_iff hsmall).mp hsame.symm)
        unfold State.removeChannel at hremoved
        dsimp only at hremoved
        rw [Function.update_of_ne hcode, openRemote_metadata] at hremoved
        cases hremoved
      · rw [openRemote_metadata] at hremoved
        cases hremoved
    · intro heq
      subst heq
      have hzero : UInt32.toInt32 0 = 0 := by decide
      have hneg : -UInt32.toInt32 0 = 0 := by decide
      rw [if_pos (by decide), hneg, hzero]
      constructor
      · show (State.openRemote setup state 0 identifier).reading = true
        rw [openRemote_reading, hreading]
      · rw [hneg]
        simp [State.removeChannel]
      · rw [hneg]
        intro other hother
        obtain ⟨hhandlers, hchannels, hmetadata⟩ :=
          openRemote_others setup state identifier hother
        refine ⟨?_, ?_, ?_⟩
        · exact (Function.update_of_ne hother _ _).trans hhandlers
        · exact (Function.update_of_ne hother _ _).trans hchannels
        · exact (Function.update_of_ne hother _ _).trans hmetadata

end Cancellation

/-- In a run the reader gets a request and directly after it its cancellation. -/
structure CancelsNext (setup : Setup Handler) (actions before : List Action) (code : UInt32)
    (next : State Handler) : Prop where
  reading : (run setup before).reading = true
  messages : ∃ request cancellation handled handled' acknowledged acknowledged' after,
    actions = before ++ .incoming (.message request false handled acknowledged) ::
      .incoming (.message cancellation false handled' acknowledged') :: after ∧
    Requests setup.archive request code ∧ Cancels cancellation code ∧
    next = run setup (before ++ [.incoming (.message request false handled acknowledged),
      .incoming (.message cancellation false handled' acknowledged')])

/-- The channels of a run stay apart, and cancellations undo requests, exactly if the steps
meet the condition and no request is directly followed by its cancellation. -/
theorem registry_separated_iff (setup : Setup Handler) (actions : List Action) :
    ((∀ before after, actions = before ++ after → (run setup before).Separated) ∧
      ∀ before code next, CancelsNext setup actions before code next →
        (run setup before).Undone next code) ↔
    ((∀ before action after, actions = before ++ action :: after →
        Proper setup (run setup before) action) ∧
      ∀ before code next, ¬ CancelsNext setup actions before code next) := by
  rw [separated_run_iff]
  apply and_congr_right
  intro hproper
  constructor
  · intro hundone before code next hnext
    have hundone := hundone before code next hnext
    obtain ⟨hreading, request, cancellation, handled, handled', acknowledged, acknowledged', after,
      hactions, hrequest, hcancellation, rfl⟩ := hnext
    rw [List.append_cons before, run_concat, run_concat,
      undone_iff hreading hrequest hcancellation] at hundone
    -- only code 0 is undone, and nobody may ask for it
    have hcodes := (hproper before _ _ hactions hreading (by simp)).1 code hrequest
    rw [hundone] at hcodes
    exact absurd hcodes.1 (by decide)
  · intro hnone before code next hnext
    exact absurd hnext (hnone before code next)

/-- A message on the root channel with a selector and values. -/
def rootMessage (selector : String) (values : List AuxValue) : Message where
  messageHeader := ⟨0x1F3D5B79, 32, 0, 1, 16, 1, 0, 0, false⟩
  payloadHeader := ⟨2, 0, 0, 0, 0, 0, 0⟩
  aux := some ⟨{}, values⟩
  data := some (.string selector)
  rawData := none

/-- The peer asks for a channel with the greatest code, which becomes the first local one. -/
def greatestCode : Message :=
  rootMessage "_requestChannelWithCode:identifier:" [.u32 0xFFFFFFFF, .string "remote"]

theorem greatestCode_aliases :
    ¬ ∀ (setup : Setup Unit) actions,
      (∀ before after, actions = before ++ after → (run setup before).Separated) ∧
        ∀ before code next, CancelsNext setup actions before code next →
          (run setup before).Undone next code := by
  intro h
  have hseparated := (h ⟨true, fun _ => none, fun _ => none⟩
    [.makeChannel "local", .incoming (.message greatestCode false false true)]).1 _ []
    (List.append_nil _).symm
  have hremote := hseparated.metadata 1 ⟨1, "remote", true⟩ (by decide) (by decide)
  cases hremote

end XitForge.Dvt.Registry
