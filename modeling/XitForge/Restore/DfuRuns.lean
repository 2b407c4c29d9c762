import XitForge.Restore.DfuUpload

/-!
The runs of a DFU upload. What the host has asked and been answered so far is given by the
packets that it sent and by the number of its polls, and a run ends at the first answer
that it does not take.
-/
namespace XitForge.Restore.DfuUpload

open Program ByteStream

section Trace

variable {d : Device} {s : Usb}

def Event.dnload? : Event → Option Packet
  | .controlOut setup data _ =>
    if setup.requestType = 0x21 ∧ setup.request = 1 then some ⟨setup.value, data⟩ else none
  | _ => none

/-- The state that a GETSTATUS reports. -/
def Event.status? : Event → Option UInt8
  | .controlIn setup _ (.ok resp) =>
    if setup.requestType = 0xA1 ∧ setup.request = 3 then resp[4]? else none
  | _ => none

def dnloads (trace : List Event) : List Packet := trace.filterMap Event.dnload?

theorem dnloads_append (trace more : List Event) :
    dnloads (trace ++ more) = dnloads trace ++ dnloads more := List.filterMap_append

@[simp] theorem dnloads_sent (packets : List Packet) :
    dnloads (s.sent d packets).trace = dnloads s.trace ++ packets := by
  have hall : dnloads ((packets.zipIdx s.outs).map (dnloadEvent d)) = packets := by
    rw [dnloads, List.filterMap_map]
    calc
      _ = (packets.zipIdx s.outs).filterMap (some ∘ Prod.fst) := rfl
      _ = packets := by rw [List.filterMap_eq_map, List.zipIdx_map_fst]
  rw [Usb.sent, dnloads_append, hall]

@[simp] theorem dnloads_polled (polls : ℕ) :
    dnloads (s.polled d polls).trace = dnloads s.trace := by
  have hnone : dnloads ((List.range' s.ins polls).map (pollEvent d)) = [] := by
    rw [dnloads, List.filterMap_map]
    exact List.filterMap_eq_nil_iff.mpr fun _ _ => rfl
  rw [Usb.polled, dnloads_append, hnone, List.append_nil]

theorem status_pollEvent (n : ℕ) : (pollEvent d n).status? = d.status n := by
  unfold pollEvent Event.status? Device.status
  cases d.controlIn n with
  | ok resp => rfl
  | error cause => rfl

end Trace

section Devices

/-- The zero-length download behind the data stages. -/
def finalPacket (image : Bytes) : Packet := ⟨UInt16.ofNat (numPackets image), []⟩

variable (d : Device) (image : Bytes)

def Device.Idle : Prop := ∃ state, d.controlIn 0 = .ok state ∧ state.head? = some 2

/-- The device is idle and takes every packet. -/
structure Uploads : Prop where
  idle : d.Idle
  takes : ∀ i < (packets image).length, d.Takes i

/-- The device has the host wait for so many polls, and then is ready to manifest. -/
structure Waited (polls : ℕ) : Prop where
  waiting : ∀ i < polls, d.Waiting (i + 1)
  ready : d.status (polls + 1) = some 5

end Devices

section Runs

variable {d : Device} {image : Bytes} {s : Usb} {polls rest : ℕ}

def started (d : Device) : Usb := ⟨1, 0, [.controlIn GETSTATE 1 (d.controlIn 0)]⟩

def uploaded (d : Device) (image : Bytes) : Usb := (started d).sent d (packets image)

/-- The state in which the host has seen that the device is ready to manifest. -/
def manifested (d : Device) (image : Bytes) (polls : ℕ) : Usb :=
  (uploaded d image).polled d (polls + 1)

/-- The state behind the zero-length download. -/
def closed (d : Device) (image : Bytes) (polls : ℕ) : Usb :=
  (manifested d image polls).sent d [finalPacket image]

theorem confirmIdle_done (h : d.Idle) : confirmIdle d ⟨0, 0, []⟩ = (.done (), started d) := by
  obtain ⟨state, hin, hhead⟩ := h
  have hread : controlIn d GETSTATE 1 ⟨0, 0, []⟩ = (.done state, started d) := by
    show (answered (d.controlIn 0), started d) = _
    rw [hin]
    rfl
  rw [confirmIdle, Prog.bind_done hread, if_pos hhead]
  rfl

/-- No download and no poll. -/
def Usb.Quiet (s : Usb) : Prop := dnloads s.trace = [] ∧ ∀ event ∈ s.trace, event.status? = none

theorem quiet_started : (started d).Quiet := by
  refine ⟨rfl, ?_⟩
  intro event hevent
  obtain rfl := List.mem_singleton.mp hevent
  cases d.controlIn 0 with
  | ok resp => rfl
  | error cause => rfl

theorem Usb.Quiet.controlOut (h : s.Quiet) {setup : ControlSetup} (hother : setup.request ≠ 1)
    {error : IdeviceError} :
    ∃ error' s', (do let _ ← controlOut d setup []; Prog.fail error : Host Unit) s =
      (.failed error', s') ∧ s'.Quiet := by
  have hquiet : (DfuUpload.controlOut d setup [] s).2.Quiet := by
    constructor
    · have hnone : dnloads [.controlOut setup [] (d.controlOut s.outs)] = [] := by
        simp [dnloads, Event.dnload?, hother]
      show dnloads (s.trace ++ _) = []
      rw [dnloads_append, h.1, hnone, List.append_nil]
    · intro event hevent
      rcases List.mem_append.mp hevent with hmem | hmem
      · exact h.2 event hmem
      · obtain rfl := List.mem_singleton.mp hmem
        rfl
  rcases hrun : DfuUpload.controlOut d setup [] s with ⟨outcome, s'⟩
  rw [hrun] at hquiet
  cases outcome with
  | done count => exact ⟨_, s', by rw [Prog.bind_done hrun]; rfl, hquiet⟩
  | failed error' => exact ⟨error', s', Prog.bind_failed hrun, hquiet⟩
  | stopped =>
    cases hout : d.controlOut s.outs with
    | ok count => rw [DfuUpload.controlOut, hout] at hrun; cases hrun
    | error cause => rw [DfuUpload.controlOut, hout] at hrun; cases hrun

theorem confirmIdle_failed (h : ¬ d.Idle) :
    ∃ error s', confirmIdle d ⟨0, 0, []⟩ = (.failed error, s') ∧ s'.Quiet := by
  have hread : controlIn d GETSTATE 1 ⟨0, 0, []⟩ = (answered (d.controlIn 0), started d) := rfl
  cases hin : d.controlIn 0 with
  | error cause =>
    rw [hin] at hread
    exact ⟨_, _, Prog.bind_failed hread, quiet_started⟩
  | ok state =>
    rw [hin] at hread
    have hhead : state.head? ≠ some 2 := fun hidle => h ⟨state, hin, hidle⟩
    rw [confirmIdle, Prog.bind_done hread, if_neg hhead]
    split
    · exact quiet_started.controlOut (by decide)
    · exact quiet_started.controlOut (by decide)

theorem upload_idle (h : d.Idle) : upload d image polls =
    (Prog.each (dnload d) (packets image) >>= fun _ => waitManifest d polls >>= fun _ =>
      finish d image) (started d) := by
  rw [upload, sendBufferDfu, Prog.bind_done (confirmIdle_done h), sendPackets_eq]
  rfl

theorem upload_waiting (h : Uploads d image) (hwait : ∀ i < polls, d.Waiting (i + 1)) :
    upload d image (polls + rest) = (waitManifest d rest >>= fun _ => finish d image)
      ((uploaded d image).polled d polls) := by
  have htakes : ∀ i < (packets image).length, d.Takes ((started d).outs + i) := by
    intro i hi
    rw [started, Nat.zero_add]
    exact h.takes i hi
  have hwaiting : ∀ i < polls, d.Waiting ((uploaded d image).ins + i) := by
    intro i hi
    rw [uploaded, Usb.sent, started, Nat.add_comm]
    exact hwait i hi
  rw [upload_idle h.idle, Prog.bind_done (each_done htakes)]
  exact Prog.bind_congr (waitManifest_polled hwaiting)

theorem uploaded_ins (d : Device) (image : Bytes) (polls : ℕ) :
    ((uploaded d image).polled d polls).ins = polls + 1 := Nat.add_comm 1 polls

theorem manifested_ins (d : Device) (image : Bytes) (polls : ℕ) :
    (manifested d image polls).ins = polls + 2 := uploaded_ins d image (polls + 1)

theorem manifested_outs (d : Device) (image : Bytes) (polls : ℕ) :
    (manifested d image polls).outs = (packets image).length := Nat.zero_add _

theorem closed_ins (d : Device) (image : Bytes) (polls : ℕ) :
    (closed d image polls).ins = polls + 2 := manifested_ins d image polls

theorem drained_ins (d : Device) (image : Bytes) (polls : ℕ) :
    ((closed d image polls).polled d 1).ins = polls + 3 :=
  congrArg (· + 1) (closed_ins d image polls)

theorem upload_waited (h : Uploads d image) (hwaited : Waited d polls) :
    upload d image (polls + (rest + 1)) = finish d image (manifested d image polls) := by
  have hready : d.status ((uploaded d image).polled d polls).ins = some 5 := by
    rw [uploaded_ins]
    exact hwaited.ready
  rw [upload_waiting h hwaited.waiting, waitManifest, manifested, Usb.polled_add]
  apply Prog.bind_done
  rw [Prog.bind_done (dfuStatus_done hready), if_neg (fun hne => hne rfl)]
  rfl

theorem finish_closed (h : d.Takes (packets image).length) :
    finish d image (manifested d image polls) =
      (dfuStatus d >>= fun _ => dfuStatus d >>= fun _ => reset d) (closed d image polls) := by
  rw [← manifested_outs d image polls] at h
  obtain ⟨count, hdone⟩ := controlOut_done (finalPacket image) h
  exact Prog.bind_done hdone

theorem finish_first (h : d.Takes (packets image).length) {first : UInt8}
    (hfirst : d.status (polls + 2) = some first) :
    finish d image (manifested d image polls) =
      (dfuStatus d >>= fun _ => reset d) ((closed d image polls).polled d 1) := by
  rw [← closed_ins d image polls] at hfirst
  rw [finish_closed h]
  exact Prog.bind_done (dfuStatus_done hfirst)

theorem finish_second (h : d.Takes (packets image).length) {first second : UInt8}
    (hfirst : d.status (polls + 2) = some first) (hsecond : d.status (polls + 3) = some second) :
    finish d image (manifested d image polls) =
      reset d ((closed d image polls).polled d 2) := by
  rw [← drained_ins d image polls] at hsecond
  rw [finish_first h hfirst, Prog.bind_done (dfuStatus_done hsecond), ← Usb.polled_add]

/-- How an upload ends that the host gives so many polls. -/
inductive UploadEnds (d : Device) (image : Bytes) : Outcome IdeviceError Unit × Usb → Prop where
  | refused {error : IdeviceError} {s : Usb} : s.Quiet → UploadEnds d image (.failed error, s)
  | broken {error : IdeviceError} {sent : List Packet} : sent <+: packets image →
      UploadEnds d image (.failed error, (started d).sent d sent)
  | waiting {polls : ℕ} : Uploads d image → (∀ i < polls, d.Waiting (i + 1)) →
      UploadEnds d image (.stopped, (uploaded d image).polled d polls)
  | lost {error : IdeviceError} {polls : ℕ} : Uploads d image → (∀ i < polls, d.Waiting (i + 1)) →
      UploadEnds d image (.failed error, (uploaded d image).polled d (polls + 1))
  | unfinished {error : IdeviceError} {polls : ℕ} : Uploads d image → Waited d polls →
      UploadEnds d image (.failed error, closed d image polls)
  | first {error : IdeviceError} {polls : ℕ} : Uploads d image → Waited d polls →
      d.Takes (packets image).length →
      UploadEnds d image
        (.failed error, (closed d image polls).polled d 1)
  | second {error : IdeviceError} {polls : ℕ} {state : UInt8} : Uploads d image → Waited d polls →
      d.Takes (packets image).length → d.status (polls + 2) = some state →
      UploadEnds d image
        (.failed error, (closed d image polls).polled d 2)
  | reset {polls : ℕ} {first second : UInt8} : Uploads d image → Waited d polls →
      d.Takes (packets image).length → d.status (polls + 2) = some first →
      d.status (polls + 3) = some second →
      UploadEnds d image (reset d ((closed d image polls).polled d 2))

theorem finish_ends (h : Uploads d image) (hwaited : Waited d polls) :
    UploadEnds d image (finish d image (manifested d image polls)) := by
  by_cases hout : d.Takes (packets image).length
  swap
  · have hrefused := hout
    rw [← manifested_outs d image polls] at hrefused
    obtain ⟨error, hfailed⟩ := controlOut_failed (finalPacket image) hrefused
    rw [show finish d image (manifested d image polls) = _ from Prog.bind_failed hfailed]
    exact .unfinished h hwaited
  cases hfirst : d.status (polls + 2) with
  | none =>
    have hlost := hfirst
    rw [← closed_ins d image polls] at hlost
    obtain ⟨error, hfailed⟩ := dfuStatus_failed hlost
    rw [finish_closed hout, Prog.bind_failed hfailed]
    exact .first h hwaited hout
  | some first =>
    cases hsecond : d.status (polls + 3) with
    | none =>
      have hlost := hsecond
      rw [← drained_ins d image polls] at hlost
      obtain ⟨error, hfailed⟩ := dfuStatus_failed hlost
      rw [finish_first hout hfirst, Prog.bind_failed hfailed, ← Usb.polled_add]
      exact .second h hwaited hout hfirst
    | some second =>
      rw [finish_second hout hfirst hsecond]
      exact .reset h hwaited hout hfirst hsecond

/-- The polls go on, or end in a state that is not waited on. -/
theorem waiting_or (d : Device) (polls : ℕ) : (∀ i < polls, d.Waiting (i + 1)) ∨
    ∃ waited rest, polls = waited + (rest + 1) ∧ (∀ i < waited, d.Waiting (i + 1)) ∧
      ¬ d.Waiting (waited + 1) := by
  induction polls with
  | zero => exact Or.inl fun i hi => absurd hi (Nat.not_lt_zero i)
  | succ polls ih =>
    rcases ih with hall | ⟨waited, rest, rfl, hwait, hnot⟩
    · by_cases hlast : d.Waiting (polls + 1)
      · left
        intro i hi
        rcases Nat.lt_succ_iff_lt_or_eq.mp hi with hlt | rfl
        · exact hall i hlt
        · exact hlast
      · exact Or.inr ⟨polls, 0, rfl, hall, hlast⟩
    · exact Or.inr ⟨waited, rest + 1, rfl, hwait, hnot⟩

theorem upload_ends (d : Device) (image : Bytes) (polls : ℕ) :
    UploadEnds d image (upload d image polls) := by
  by_cases hidle : d.Idle
  swap
  · obtain ⟨error, s, hfailed, hquiet⟩ := confirmIdle_failed hidle
    rw [upload, sendBufferDfu, Prog.bind_failed hfailed]
    exact .refused hquiet
  by_cases htakes : ∀ i < (packets image).length, d.Takes i
  swap
  · have hbroken : ¬ ∀ i < (packets image).length, d.Takes ((started d).outs + i) := by
      simpa only [started, Nat.zero_add] using htakes
    obtain ⟨sent, error, hprefix, hfailed⟩ := each_failed hbroken
    rw [upload_idle hidle, Prog.bind_failed hfailed]
    exact .broken hprefix
  have hup : Uploads d image := ⟨hidle, htakes⟩
  rcases waiting_or d polls with hwait | ⟨waited, rest, rfl, hwait, hnot⟩
  · rw [← Nat.add_zero polls, upload_waiting hup hwait]
    exact .waiting hup hwait
  cases hstate : d.status (waited + 1) with
  | none =>
    have hlost : d.status ((uploaded d image).polled d waited).ins = none := by
      rw [uploaded_ins, hstate]
    obtain ⟨error, hfailed⟩ := dfuStatus_failed hlost
    rw [upload_waiting hup hwait, waitManifest,
      Prog.bind_failed (Prog.bind_failed hfailed), ← Usb.polled_add]
    exact .lost hup hwait
  | some state =>
    have hfive : state = 5 := by
      by_contra hne
      exact hnot ⟨state, hstate, hne⟩
    subst hfive
    rw [upload_waited hup ⟨hwait, hstate⟩]
    exact finish_ends hup ⟨hwait, hstate⟩

end Runs

end XitForge.Restore.DfuUpload
