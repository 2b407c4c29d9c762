import XitForge.Program
import XitForge.Restore.DfuPackets

/-!
The upload of an image to a device in DFU mode. The host sends the packets, polls the
device until it reports that it is ready to manifest, and finishes with a zero-length
download, two more polls and a reset.
-/
namespace XitForge.Restore.DfuUpload

open Program ByteStream

structure ControlSetup where
  requestType : UInt8
  request : UInt8
  value : UInt16
  index : UInt16
  deriving DecidableEq

inductive IdeviceError where
  | transport (cause : ℕ)
  | recovery (text : String)
  deriving DecidableEq

/-- The answers of a device to the transfers of each kind, in their order. The host asks the
same after the same answers, so whatever a device does in a run is one such sequence. -/
structure Device where
  controlIn : ℕ → Except ℕ Bytes
  controlOut : ℕ → Except ℕ ℕ
  reset : Except ℕ Unit

inductive Event where
  | controlIn (setup : ControlSetup) (length : ℕ) (answer : Except ℕ Bytes)
  | controlOut (setup : ControlSetup) (data : Bytes) (answer : Except ℕ ℕ)
  | reset (answer : Except ℕ Unit)

/-- How many transfers of each kind were made, and all requests with their answers. -/
structure Usb where
  ins : ℕ
  outs : ℕ
  trace : List Event

section Host

abbrev Host := Prog Usb IdeviceError

def answered {α : Type} : Except ℕ α → Outcome IdeviceError α
  | .ok value => .done value
  | .error cause => .failed (.transport cause)

variable (d : Device)

def controlIn (setup : ControlSetup) (length : ℕ) : Host Bytes := fun s =>
  (answered (d.controlIn s.ins),
    ⟨s.ins + 1, s.outs, s.trace ++ [.controlIn setup length (d.controlIn s.ins)]⟩)

def controlOut (setup : ControlSetup) (data : Bytes) : Host ℕ := fun s =>
  (answered (d.controlOut s.outs),
    ⟨s.ins, s.outs + 1, s.trace ++ [.controlOut setup data (d.controlOut s.outs)]⟩)

def reset : Host Unit := fun s =>
  (answered d.reset, ⟨s.ins, s.outs, s.trace ++ [.reset d.reset]⟩)

def GETSTATE : ControlSetup := ⟨0xA1, 5, 0, 0⟩
def GETSTATUS : ControlSetup := ⟨0xA1, 3, 0, 0⟩
def CLRSTATUS : ControlSetup := ⟨0x21, 4, 0, 0⟩
def ABORT : ControlSetup := ⟨0x21, 6, 0, 0⟩
def DNLOAD (packetIndex : UInt16) : ControlSetup := ⟨0x21, 1, packetIndex, 0⟩

def dfuStatus : Host UInt8 := do
  let resp ← controlIn d GETSTATUS 6
  match resp[4]? with
  | some state => pure state
  | none => Prog.fail (.recovery "short DFU GETSTATUS response")

/-- An optional byte in `{:?}`. -/
def debugState : Option UInt8 → String
  | some state => s!"Some({state})"
  | none => "None"

/-- Anything but DFU IDLE is cleared or aborted. -/
def confirmIdle : Host Unit := do
  let state ← controlIn d GETSTATE 1
  if state.head? = some 2 then
    pure ()
  else if state.head? = some 10 then do
    let _ ← controlOut d CLRSTATUS []
    Prog.fail (.recovery "DFU error state; issued CLRSTATUS")
  else do
    let _ ← controlOut d ABORT []
    Prog.fail (.recovery s!"unexpected DFU state {debugState state.head?}; issued ABORT")

/-- The count that the transport returns is dropped. -/
def dnload (packet : Packet) : Host Unit := do
  let _ ← controlOut d (DNLOAD packet.index) packet.data
  pure ()

def sendPackets (image : Bytes) (offset : ℕ) (packetIndex : UInt16) : Host Unit :=
  if h : offset < image.length then do
    have := chunkEnd_gt h
    Prog.each (dnload d) (turnPackets image offset packetIndex)
    sendPackets image (chunkEnd image offset) (packetIndex + 1)
  else
    pure ()
termination_by image.length - offset

/-- The wait for MANIFEST-SYNC, stopped after so many polls. -/
def waitManifest : ℕ → Host Unit
  | 0 => Prog.stop
  | polls + 1 => do
    let state ← dfuStatus d
    if state ≠ 5 then waitManifest polls else pure ()

def finish (image : Bytes) : Host Unit := do
  let _ ← controlOut d (DNLOAD (UInt16.ofNat (numPackets image))) []
  let _ ← dfuStatus d
  let _ ← dfuStatus d
  reset d

def sendBufferDfu (image : Bytes) (polls : ℕ) : Host Unit := do
  confirmIdle d
  sendPackets d image 0 0
  waitManifest d polls
  finish d image

/-- An upload that is still polling after so many polls is left there. -/
def upload (image : Bytes) (polls : ℕ) : Outcome IdeviceError Unit × Usb :=
  sendBufferDfu d image polls ⟨0, 0, []⟩

theorem sendPackets_eq (image : Bytes) (offset : ℕ) (packetIndex : UInt16) :
    sendPackets d image offset packetIndex =
      Prog.each (dnload d) (packetsFrom image offset packetIndex) := by
  fun_induction packetsFrom image offset packetIndex with
  | case1 offset packetIndex h _ ih => rw [sendPackets, dif_pos h, ih, Prog.each_append]
  | case2 offset packetIndex h => rw [sendPackets, dif_neg h, Prog.each]

end Host

section Steps

variable {d : Device} {s : Usb}

/-- A download is taken, whatever part of it. -/
def Device.Takes (d : Device) (n : ℕ) : Prop := ∃ count, d.controlOut n = .ok count

/-- The state in the answer to a read, if the read is a GETSTATUS. -/
def Device.status (d : Device) (n : ℕ) : Option UInt8 :=
  match d.controlIn n with
  | .ok resp => resp[4]?
  | .error _ => none

/-- A state that the host waits on. -/
def Device.Waiting (d : Device) (n : ℕ) : Prop := ∃ state, d.status n = some state ∧ state ≠ 5

def dnloadEvent (d : Device) (packet : Packet × ℕ) : Event :=
  .controlOut (DNLOAD packet.1.index) packet.1.data (d.controlOut packet.2)

def pollEvent (d : Device) (n : ℕ) : Event := .controlIn GETSTATUS 6 (d.controlIn n)

def Usb.sent (s : Usb) (d : Device) (packets : List Packet) : Usb where
  ins := s.ins
  outs := s.outs + packets.length
  trace := s.trace ++ (packets.zipIdx s.outs).map (dnloadEvent d)

def Usb.polled (s : Usb) (d : Device) (polls : ℕ) : Usb where
  ins := s.ins + polls
  outs := s.outs
  trace := s.trace ++ (List.range' s.ins polls).map (pollEvent d)

theorem Usb.sent_nil : s.sent d [] = s := by
  simp [Usb.sent]

theorem Usb.sent_cons (packet : Packet) (rest : List Packet) :
    s.sent d (packet :: rest) = (s.sent d [packet]).sent d rest := by
  simp [Usb.sent, List.zipIdx_cons, Nat.add_comm, Nat.add_left_comm]

theorem Usb.polled_zero : s.polled d 0 = s := by
  simp [Usb.polled]

theorem Usb.polled_add (polls more : ℕ) :
    s.polled d (polls + more) = (s.polled d polls).polled d more := by
  simp only [Usb.polled, List.append_assoc, ← List.map_append, List.range'_append_1, Nat.add_assoc]

theorem controlOut_dnload (packet : Packet) :
    controlOut d (DNLOAD packet.index) packet.data s =
      (answered (d.controlOut s.outs), s.sent d [packet]) := rfl

theorem controlOut_done (packet : Packet) (h : d.Takes s.outs) :
    ∃ count, controlOut d (DNLOAD packet.index) packet.data s =
      (.done count, s.sent d [packet]) := by
  obtain ⟨count, hcount⟩ := h
  refine ⟨count, ?_⟩
  rw [controlOut_dnload, hcount]
  rfl

theorem controlOut_failed (packet : Packet) (h : ¬ d.Takes s.outs) :
    ∃ error, controlOut d (DNLOAD packet.index) packet.data s =
      (.failed error, s.sent d [packet]) := by
  rw [controlOut_dnload]
  cases hout : d.controlOut s.outs with
  | ok count => exact absurd ⟨count, hout⟩ h
  | error cause => exact ⟨_, rfl⟩

theorem dnload_done (packet : Packet) (h : d.Takes s.outs) :
    dnload d packet s = (.done (), s.sent d [packet]) := by
  obtain ⟨count, hdone⟩ := controlOut_done packet h
  rw [dnload, Prog.bind_done hdone]
  rfl

theorem dnload_failed (packet : Packet) (h : ¬ d.Takes s.outs) :
    ∃ error, dnload d packet s = (.failed error, s.sent d [packet]) := by
  obtain ⟨error, hfailed⟩ := controlOut_failed packet h
  exact ⟨error, Prog.bind_failed hfailed⟩

theorem forall_lt_shift {P : ℕ → Prop} {start count : ℕ}
    (h : ∀ i < count + 1, P (start + i)) : ∀ i < count, P (start + 1 + i) := by
  intro i hi
  have hnext := h (i + 1) (Nat.succ_lt_succ hi)
  rwa [Nat.add_comm i 1, ← Nat.add_assoc] at hnext

theorem each_done {packets : List Packet} (h : ∀ i < packets.length, d.Takes (s.outs + i)) :
    Prog.each (dnload d) packets s = (.done (), s.sent d packets) := by
  induction packets generalizing s with
  | nil =>
    rw [Usb.sent_nil]
    rfl
  | cons packet rest ih =>
    have hfirst := dnload_done packet (h 0 (Nat.succ_pos _))
    rw [Prog.each, Prog.bind_done hfirst, Usb.sent_cons packet rest]
    exact ih (forall_lt_shift h)

theorem each_failed {packets : List Packet} (h : ¬ ∀ i < packets.length, d.Takes (s.outs + i)) :
    ∃ sent error, sent <+: packets ∧
      Prog.each (dnload d) packets s = (.failed error, s.sent d sent) := by
  induction packets generalizing s with
  | nil => exact absurd (fun i hi => absurd hi (Nat.not_lt_zero i)) h
  | cons packet rest ih =>
    by_cases hfirst : d.Takes s.outs
    · have hrest : ¬ ∀ i < rest.length, d.Takes ((s.sent d [packet]).outs + i) := by
        intro hall
        apply h
        intro i hi
        cases i with
        | zero => exact hfirst
        | succ i =>
          have hnext := hall i (Nat.lt_of_succ_lt_succ hi)
          rwa [Usb.sent, List.length_singleton, Nat.add_assoc, Nat.add_comm 1 i] at hnext
      obtain ⟨sent, error, hprefix, hrun⟩ := ih hrest
      refine ⟨packet :: sent, error, List.cons_prefix_cons.mpr ⟨rfl, hprefix⟩, ?_⟩
      rw [Prog.each, Prog.bind_done (dnload_done packet hfirst), Usb.sent_cons packet sent, hrun]
    · obtain ⟨error, hfailed⟩ := dnload_failed packet hfirst
      exact ⟨[packet], error, ⟨rest, rfl⟩, Prog.bind_failed hfailed⟩

/-- A poll has the state in the answer, or fails. -/
theorem dfuStatus_cases (d : Device) (s : Usb) :
    (∃ state, d.status s.ins = some state ∧ dfuStatus d s = (.done state, s.polled d 1)) ∨
      d.status s.ins = none ∧ ∃ error, dfuStatus d s = (.failed error, s.polled d 1) := by
  have hread : controlIn d GETSTATUS 6 s = (answered (d.controlIn s.ins), s.polled d 1) := rfl
  unfold Device.status
  cases hin : d.controlIn s.ins with
  | error cause =>
    rw [hin] at hread
    exact .inr ⟨rfl, _, Prog.bind_failed hread⟩
  | ok resp =>
    rw [hin] at hread
    rw [dfuStatus, Prog.bind_done hread]
    cases hstate : resp[4]? with
    | some state => exact .inl ⟨state, hstate, rfl⟩
    | none => exact .inr ⟨hstate, _, rfl⟩

theorem dfuStatus_done {state : UInt8} (h : d.status s.ins = some state) :
    dfuStatus d s = (.done state, s.polled d 1) := by
  rcases dfuStatus_cases d s with ⟨other, hother, hdone⟩ | ⟨hnone, _⟩
  · rw [hother, Option.some.injEq] at h
    rw [hdone, h]
  · rw [hnone] at h
    cases h

theorem dfuStatus_failed (h : d.status s.ins = none) :
    ∃ error, dfuStatus d s = (.failed error, s.polled d 1) := by
  rcases dfuStatus_cases d s with ⟨state, hstate, _⟩ | ⟨_, hfailed⟩
  · rw [hstate] at h
    cases h
  · exact hfailed

/-- As long as other states are reported the host polls on. -/
theorem waitManifest_polled {polls rest : ℕ} (h : ∀ i < polls, d.Waiting (s.ins + i)) :
    waitManifest d (polls + rest) s = waitManifest d rest (s.polled d polls) := by
  induction polls generalizing s with
  | zero => rw [Nat.zero_add, Usb.polled_zero]
  | succ polls ih =>
    obtain ⟨state, hstate, hne⟩ := h 0 (Nat.succ_pos polls)
    rw [Nat.add_right_comm, waitManifest, Prog.bind_done (dfuStatus_done hstate), if_pos hne,
      Nat.add_comm polls 1, Usb.polled_add]
    exact ih (forall_lt_shift h)

end Steps

end XitForge.Restore.DfuUpload
