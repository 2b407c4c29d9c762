import XitForge.Restore.DfuRuns

/-!
What a DFU upload promises, and for which devices it keeps the promise. It does not look at
how much of a packet was taken, and goes on with a device that reports the error state.
-/
namespace XitForge.Restore.DfuUpload

open Program ByteStream

section Promise

/-- What an upload promises of the requests it makes and of the answers to them. -/
structure Uploaded (image : Bytes) (outcome : Outcome IdeviceError Unit) (trace : List Event) :
    Prop where
  stages : ∃ stages, DataStages image stages ∧ dnloads trace <+: stages ++ [finalPacket image] ∧
    (outcome = .done () → dnloads trace = stages ++ [finalPacket image])
  accepted : outcome = .done () →
    ∀ packetIndex data answer, .controlOut (DNLOAD packetIndex) data answer ∈ trace →
      data ≠ [] → answer = .ok data.length
  manifest : outcome = .done () → ∃ event ∈ trace, event.status? = some 5
  error : ∀ before event after, trace = before ++ event :: after → event.status? = some 10 →
    after = [] ∧ ∃ error, outcome = .failed error

variable (d : Device) (image : Bytes)

/-- The reads that are a GETSTATUS of the host. -/
inductive Polls : ℕ → Prop where
  | wait {polls : ℕ} : Uploads d image → (∀ i < polls, d.Waiting (i + 1)) → Polls (polls + 1)
  | first {polls : ℕ} : Uploads d image → Waited d polls → d.Takes (packets image).length →
      Polls (polls + 2)
  | second {polls : ℕ} {state : UInt8} : Uploads d image → Waited d polls →
      d.Takes (packets image).length → d.status (polls + 2) = some state → Polls (polls + 3)

def SeesError : Prop := ∃ n, Polls d image n ∧ d.status n = some 10

/-- The device answers the whole upload without an error. -/
structure Completes (polls : ℕ) : Prop where
  uploads : Uploads d image
  waited : Waited d polls
  finished : d.Takes (packets image).length
  first : ∃ state, d.status (polls + 2) = some state
  second : ∃ state, d.status (polls + 3) = some state
  reset : d.reset = .ok ()

/-- Every data stage is taken whole. -/
def Full : Prop :=
  ∀ i packet, (packets image)[i]? = some packet → d.controlOut i = .ok packet.data.length

end Promise

section Reports

variable {d : Device} {s : Usb}

/-- The states reported so far are those of some reads. -/
def Usb.Reports (s : Usb) (d : Device) (reads : ℕ → Prop) : Prop :=
  ∀ event ∈ s.trace, ∀ state, event.status? = some state → ∃ n, reads n ∧ d.status n = some state

variable {reads : ℕ → Prop}

theorem Usb.Reports.sent (h : s.Reports d reads) (packets : List Packet) :
    (s.sent d packets).Reports d reads := by
  intro event hevent state hstate
  rcases List.mem_append.mp hevent with hmem | hmem
  · exact h event hmem state hstate
  · obtain ⟨packet, _, rfl⟩ := List.mem_map.mp hmem
    cases hstate

theorem Usb.Reports.polled (h : s.Reports d reads) {polls : ℕ}
    (hreads : ∀ i < polls, reads (s.ins + i)) : (s.polled d polls).Reports d reads := by
  intro event hevent state hstate
  rcases List.mem_append.mp hevent with hmem | hmem
  · exact h event hmem state hstate
  · obtain ⟨n, hn, rfl⟩ := List.mem_map.mp hmem
    obtain ⟨hlow, hhigh⟩ := List.mem_range'_1.mp hn
    have hread := hreads (n - s.ins) (by omega)
    rw [Nat.add_sub_cancel' hlow] at hread
    exact ⟨n, hread, by rw [← hstate, status_pollEvent]⟩

end Reports

section Ends

variable {d : Device} {image : Bytes} {s : Usb} {polls : ℕ}
  {result : Outcome IdeviceError Unit × Usb}

theorem dnloads_uploaded : dnloads (uploaded d image).trace = packets image := by
  rw [uploaded, dnloads_sent, quiet_started.1, List.nil_append]

theorem dnloads_manifested : dnloads (manifested d image polls).trace = packets image := by
  rw [manifested, dnloads_polled, dnloads_uploaded]

theorem dnloads_closed :
    dnloads (closed d image polls).trace = packets image ++ [finalPacket image] := by
  rw [closed, dnloads_sent, dnloads_manifested]

theorem dnloads_reset : dnloads (reset d s).2.trace = dnloads s.trace := by
  show dnloads (s.trace ++ [.reset d.reset]) = _
  rw [dnloads_append]
  exact List.append_nil _

theorem UploadEnds.dnloads_prefix (h : UploadEnds d image result) :
    dnloads result.2.trace <+: packets image ++ [finalPacket image] := by
  have hall := List.prefix_append (packets image) [finalPacket image]
  cases h with
  | refused hquiet =>
    rw [hquiet.1]
    exact List.nil_prefix
  | broken hprefix =>
    rw [dnloads_sent, quiet_started.1]
    exact hprefix.trans hall
  | waiting =>
    rw [dnloads_polled, dnloads_uploaded]
    exact hall
  | lost =>
    rw [dnloads_polled, dnloads_uploaded]
    exact hall
  | unfinished => rw [dnloads_closed]
  | first => rw [dnloads_polled, dnloads_closed]
  | second => rw [dnloads_polled, dnloads_closed]
  | reset => rw [dnloads_reset, dnloads_polled, dnloads_closed]

/-- A success is the whole upload. -/
theorem UploadEnds.completes (h : UploadEnds d image result) (hdone : result.1 = .done ()) :
    ∃ polls, Completes d image polls ∧
      result = DfuUpload.reset d ((closed d image polls).polled d 2) := by
  cases h with
  | reset hup hwaited htakes hfirst hsecond =>
    have hreset : d.reset = .ok () := by
      change answered d.reset = .done () at hdone
      cases hanswer : d.reset with
      | ok value => rfl
      | error cause =>
        rw [hanswer] at hdone
        cases hdone
    exact ⟨_, ⟨hup, hwaited, htakes, ⟨_, hfirst⟩, ⟨_, hsecond⟩, hreset⟩, rfl⟩
  | refused | broken | waiting | lost | unfinished | first | second => cases hdone

theorem Usb.Quiet.reports (h : s.Quiet) (reads : ℕ → Prop) : s.Reports d reads := by
  intro event hevent state hstate
  rw [h.2 event hevent] at hstate
  cases hstate

theorem Usb.Reports.reset {reads : ℕ → Prop} (h : s.Reports d reads) :
    (DfuUpload.reset d s).2.Reports d reads := by
  intro event hevent state hstate
  rcases List.mem_append.mp hevent with hmem | hmem
  · exact h event hmem state hstate
  · obtain rfl := List.mem_singleton.mp hmem
    cases hstate

theorem reports_polled (hup : Uploads d image) (h : ∀ i < polls, ∀ j < i, d.Waiting (j + 1)) :
    ((uploaded d image).polled d polls).Reports d (Polls d image) := by
  apply ((quiet_started.reports _).sent _).polled
  intro i hi
  show Polls d image (1 + i)
  rw [Nat.add_comm]
  exact .wait hup (h i hi)

theorem reports_closed (hup : Uploads d image) (hwaited : Waited d polls) :
    (closed d image polls).Reports d (Polls d image) := by
  apply (reports_polled hup _).sent
  intro i hi j hj
  exact hwaited.waiting j (by omega)

theorem reports_first (hup : Uploads d image) (hwaited : Waited d polls)
    (htakes : d.Takes (packets image).length) :
    ((closed d image polls).polled d 1).Reports d (Polls d image) := by
  apply (reports_closed hup hwaited).polled
  intro i hi
  obtain rfl := Nat.lt_one_iff.mp hi
  rw [closed_ins]
  exact .first hup hwaited htakes

theorem reports_second (hup : Uploads d image) (hwaited : Waited d polls)
    (htakes : d.Takes (packets image).length) {state : UInt8}
    (hfirst : d.status (polls + 2) = some state) :
    ((closed d image polls).polled d 2).Reports d (Polls d image) := by
  rw [show 2 = 1 + 1 from rfl, Usb.polled_add]
  apply (reports_first hup hwaited htakes).polled
  intro i hi
  obtain rfl := Nat.lt_one_iff.mp hi
  rw [drained_ins]
  exact .second hup hwaited htakes hfirst

theorem UploadEnds.reports (h : UploadEnds d image result) :
    result.2.Reports d (Polls d image) := by
  cases h with
  | refused hquiet => exact hquiet.reports _
  | broken => exact (quiet_started.reports _).sent _
  | waiting hup hwait => exact reports_polled hup fun i hi j hj => hwait j (hj.trans hi)
  | lost hup hwait =>
    exact reports_polled hup fun i hi j hj => hwait j (hj.trans_le (Nat.le_of_lt_succ hi))
  | unfinished hup hwaited => exact reports_closed hup hwaited
  | first hup hwaited htakes => exact reports_first hup hwaited htakes
  | second hup hwaited htakes hfirst => exact reports_second hup hwaited htakes hfirst
  | reset hup hwaited htakes hfirst => exact (reports_second hup hwaited htakes hfirst).reset

end Ends

section Acceptance

variable {d : Device} {image : Bytes} {s : Usb} {polls : ℕ}

theorem mem_sent {setup : ControlSetup} {data : Bytes} {answer : Except ℕ ℕ}
    {packets : List Packet} :
    .controlOut setup data answer ∈ (s.sent d packets).trace ↔
      .controlOut setup data answer ∈ s.trace ∨ ∃ i packet, packets[i]? = some packet ∧
        dnloadEvent d (packet, s.outs + i) = .controlOut setup data answer := by
  rw [Usb.sent, List.mem_append, List.mem_map]
  apply or_congr_right
  constructor
  · intro h
    obtain ⟨⟨packet, n⟩, hmem, heq⟩ := h
    obtain ⟨hlow, hpacket⟩ := List.mk_mem_zipIdx_iff_le_and_getElem?_sub.mp hmem
    refine ⟨n - s.outs, packet, hpacket, ?_⟩
    rw [Nat.add_sub_cancel' hlow, heq]
  · intro h
    obtain ⟨i, packet, hpacket, heq⟩ := h
    refine ⟨(packet, s.outs + i), ?_, heq⟩
    apply List.mk_mem_zipIdx_iff_le_and_getElem?_sub.mpr
    rw [Nat.add_sub_cancel_left]
    exact ⟨Nat.le_add_right .., hpacket⟩

theorem mem_polled {setup : ControlSetup} {data : Bytes} {answer : Except ℕ ℕ} {n : ℕ} :
    .controlOut setup data answer ∈ (s.polled d n).trace ↔
      .controlOut setup data answer ∈ s.trace := by
  rw [Usb.polled, List.mem_append, or_iff_left_iff_imp]
  intro h
  obtain ⟨_, _, heq⟩ := List.mem_map.mp h
  cases heq

/-- The trace of a success. -/
def wholeTrace (d : Device) (image : Bytes) (polls : ℕ) : List Event :=
  (reset d ((closed d image polls).polled d 2)).2.trace

/-- The data stages are the transfers with data. -/
theorem mem_wholeTrace {setup : ControlSetup} {data : Bytes} {answer : Except ℕ ℕ}
    (hdata : data ≠ []) : .controlOut setup data answer ∈ wholeTrace d image polls ↔
      ∃ i packet, (packets image)[i]? = some packet ∧
        dnloadEvent d (packet, i) = .controlOut setup data answer := by
  have hreset : .controlOut setup data answer ∈ wholeTrace d image polls ↔
      .controlOut setup data answer ∈ ((closed d image polls).polled d 2).trace := by
    show _ ∈ _ ++ [Event.reset d.reset] ↔ _
    simp
  have hstarted : ¬ .controlOut setup data answer ∈ (started d).trace := by
    simp [started]
  rw [hreset, mem_polled, closed, mem_sent, manifested, mem_polled, uploaded, mem_sent,
    or_iff_right hstarted]
  simp only [started, Nat.zero_add]
  rw [or_iff_left_iff_imp]
  intro h
  obtain ⟨i, packet, hpacket, heq⟩ := h
  obtain rfl : packet = finalPacket image :=
    List.mem_singleton.mp (List.mem_of_getElem? hpacket)
  injection heq with _ hfinal _
  exact absurd hfinal.symm hdata

theorem manifest_mem (hwaited : Waited d polls) :
    ∃ event ∈ wholeTrace d image polls, event.status? = some 5 := by
  refine ⟨pollEvent d (polls + 1), ?_, by rw [status_pollEvent, hwaited.ready]⟩
  have hmem : pollEvent d (polls + 1) ∈ (List.range' 1 (polls + 1)).map (pollEvent d) :=
    List.mem_map_of_mem (List.mem_range'_1.mpr ⟨by omega, by omega⟩)
  have hmanifested : pollEvent d (polls + 1) ∈ (manifested d image polls).trace :=
    List.mem_append_right _ hmem
  exact List.mem_append_left _ (List.mem_append_left _ (List.mem_append_left _ hmanifested))

theorem upload_completes (h : Completes d image polls) :
    upload d image (polls + 1) = (.done (), (reset d ((closed d image polls).polled d 2)).2) := by
  obtain ⟨first, hfirst⟩ := h.first
  obtain ⟨second, hsecond⟩ := h.second
  rw [upload_waited h.uploads h.waited, finish_second h.finished hfirst hsecond]
  apply Prod.ext
  · show answered d.reset = .done ()
    rw [h.reset]
    rfl
  · rfl

theorem uploaded_of (hne : image ≠ []) (hfull : ∀ polls, Completes d image polls → Full d image)
    (hsees : ¬ SeesError d image) (polls : ℕ) :
    Uploaded image (upload d image polls).1 (upload d image polls).2.trace := by
  have hends := upload_ends d image polls
  generalize upload d image polls = result at hends ⊢
  refine ⟨⟨packets image, dataStages_packets hne, hends.dnloads_prefix, ?_⟩, ?_, ?_, ?_⟩
  · intro hdone
    obtain ⟨waited, _, rfl⟩ := hends.completes hdone
    rw [dnloads_reset, dnloads_polled, dnloads_closed]
  · intro hdone packetIndex data answer hmem hdata
    obtain ⟨waited, hcompletes, rfl⟩ := hends.completes hdone
    obtain ⟨i, packet, hpacket, heq⟩ := (mem_wholeTrace hdata).mp hmem
    injection heq with _ hpacketData hanswer
    rw [← hanswer, ← hpacketData]
    exact hfull waited hcompletes i packet hpacket
  · intro hdone
    obtain ⟨waited, hcompletes, rfl⟩ := hends.completes hdone
    exact manifest_mem hcompletes.waited
  · intro before event after htrace hten
    have hmem : event ∈ result.2.trace := by
      rw [htrace]
      exact List.mem_append_right _ (List.mem_cons_self ..)
    exact absurd (hends.reports event hmem 10 hten) hsees

theorem full_of_uploaded (hcompletes : Completes d image polls)
    (h : Uploaded image (upload d image (polls + 1)).1 (upload d image (polls + 1)).2.trace) :
    Full d image := by
  rw [upload_completes hcompletes] at h
  intro i packet hpacket
  have hfilled := packetsFrom_bounded packet (List.mem_of_getElem? hpacket)
  have hdata : packet.data ≠ [] := List.length_pos_iff.mp hfilled.1
  exact h.accepted rfl packet.index packet.data _
    ((mem_wholeTrace hdata).mpr ⟨i, packet, hpacket, rfl⟩) hdata

theorem not_polled_on {outcome : Outcome IdeviceError Unit} {before more : List Event}
    {event next : Event} (h : Uploaded image outcome (before ++ event :: next :: more)) :
    event.status? ≠ some 10 := by
  intro hten
  obtain ⟨hnil, _⟩ := h.error before event (next :: more) rfl hten
  cases hnil

/-- The second drain is asked for, whatever it brings. -/
theorem last_trace : ∃ more, ((dfuStatus d >>= fun _ => reset d) s).2.trace =
    s.trace ++ pollEvent d s.ins :: more := by
  rcases dfuStatus_cases d s with ⟨state, _, hdone⟩ | ⟨_, error, hfailed⟩
  · rw [Prog.bind_done hdone]
    exact ⟨[.reset d.reset], List.append_assoc ..⟩
  · rw [Prog.bind_failed hfailed]
    exact ⟨[], rfl⟩

/-- A read that reports the error state is followed by another request. -/
theorem not_seesError_of_uploaded
    (h : ∀ polls, Uploaded image (upload d image polls).1 (upload d image polls).2.trace) :
    ¬ SeesError d image := by
  intro hsees
  obtain ⟨n, hpolls, hten⟩ := hsees
  cases hpolls with
  | @wait polls hup hwait =>
    have hall : ∀ i < polls + 1, d.Waiting (i + 1) := by
      intro i hi
      rcases Nat.lt_succ_iff_lt_or_eq.mp hi with hlt | rfl
      · exact hwait i hlt
      · exact ⟨10, hten, by decide⟩
    have hrun := h (polls + 1 + 0)
    rw [upload_waiting hup hall, Usb.polled_add] at hrun
    rw [← uploaded_ins d image polls, ← status_pollEvent] at hten
    obtain ⟨_, error, herror⟩ := hrun.error _ _ [] rfl hten
    cases herror
  | @first polls hup hwaited htakes =>
    have hrun := h (polls + 1)
    obtain ⟨more, hmore⟩ := last_trace (d := d) (s := (closed d image polls).polled d 1)
    rw [upload_waited hup hwaited, finish_first htakes hten, hmore] at hrun
    rw [← closed_ins d image polls, ← status_pollEvent] at hten
    change Uploaded image _ ((closed d image polls).trace ++ [_] ++ _) at hrun
    rw [List.append_assoc] at hrun
    exact not_polled_on hrun hten
  | @second polls first hup hwaited htakes hfirst =>
    have hrun := h (polls + 1)
    rw [upload_waited hup hwaited, finish_second htakes hfirst hten, show 2 = 1 + 1 from rfl,
      Usb.polled_add] at hrun
    rw [← drained_ins d image polls, ← status_pollEvent] at hten
    change Uploaded image _ (((closed d image polls).polled d 1).trace ++ [_] ++ [_]) at hrun
    rw [List.append_assoc] at hrun
    exact not_polled_on hrun hten

end Acceptance

section Devices

/-- A device that is ready after the one packet of a small image, of which it takes so much. -/
def smallDevice (taken : ℕ) : Device where
  controlIn n := .ok (if n = 0 then [2] else [0, 0, 0, 0, 5, 0])
  controlOut n := .ok (if n = 0 then taken else 0)
  reset := .ok ()

theorem packets_small : packets [7] = [⟨0, 7 :: crcChunk [7]⟩] := by
  rw [packets, packetsFrom, dif_pos (by decide), packetsFrom, dif_neg (by decide)]
  rfl

theorem completes_small (taken : ℕ) : Completes (smallDevice taken) [7] 0 where
  uploads := ⟨⟨[2], rfl, rfl⟩, fun _ _ => ⟨_, rfl⟩⟩
  waited := ⟨fun i hi => absurd hi (Nat.not_lt_zero i), rfl⟩
  finished := ⟨_, rfl⟩
  first := ⟨5, rfl⟩
  second := ⟨5, rfl⟩
  reset := rfl

theorem full_small : Full (smallDevice 17) [7] := by
  intro i packet hpacket
  rw [packets_small] at hpacket
  obtain ⟨hi, rfl⟩ := List.getElem?_eq_some_iff.mp hpacket
  obtain rfl := Nat.lt_one_iff.mp hi
  show Except.ok 17 = Except.ok (crcChunk [7]).length.succ
  rw [length_crcChunk]

theorem not_seesError_small (taken : ℕ) : ¬ SeesError (smallDevice taken) [7] := by
  intro h
  obtain ⟨n, hpolls, hten⟩ := h
  have hready : (smallDevice taken).status n = some 5 := by
    cases hpolls with
    | wait | first | second => rfl
  rw [hready] at hten
  exact absurd hten (by decide)

/-- An upload keeps its promise for the devices that take every packet whole if they answer
all of it, and never report the error state. -/
theorem upload_iff (d : Device) (image : Bytes) (hne : image ≠ []) :
    (∀ polls, Uploaded image (upload d image polls).1 (upload d image polls).2.trace) ↔
      (∀ polls, Completes d image polls → Full d image) ∧ ¬ SeesError d image := by
  constructor
  · intro h
    exact ⟨fun polls hcompletes => full_of_uploaded hcompletes (h (polls + 1)),
      not_seesError_of_uploaded h⟩
  · intro h
    exact uploaded_of hne h.1 h.2

theorem upload_small : Uploaded [7] (upload (smallDevice 17) [7] 1).1
    (upload (smallDevice 17) [7] 1).2.trace :=
  (upload_iff (smallDevice 17) [7] (by decide)).mpr
    ⟨fun _ _ => full_small, not_seesError_small 17⟩ 1

/-- Nothing of the packet was taken. -/
theorem not_uploaded_small : ¬ ∀ polls, Uploaded [7] (upload (smallDevice 0) [7] polls).1
    (upload (smallDevice 0) [7] polls).2.trace := by
  intro h
  have hfull := full_of_uploaded (completes_small 0) (h 1)
  have hcount := hfull 0 ⟨0, 7 :: crcChunk [7]⟩ (by rw [packets_small]; rfl)
  change Except.ok 0 = Except.ok (crcChunk [7]).length.succ at hcount
  rw [length_crcChunk] at hcount
  injection hcount with hzero
  exact absurd hzero (by decide)

end Devices

end XitForge.Restore.DfuUpload
