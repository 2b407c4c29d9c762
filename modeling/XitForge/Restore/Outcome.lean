import Mathlib.Algebra.Ring.Int.Defs
import Mathlib.Tactic.Common
import XitForge.Restore.StateMachine

/-!
When a restore ends well. The main loop stops at every message that says that something
went wrong. A message that the pump or a boot object takes off is not judged by its type,
so such a message does no harm to the outcome there.
-/
namespace XitForge.Restore

open Program

section Messages

def NonZeroAmrError (message : Dictionary) : Prop :=
  ∃ code, message.get "AMRError" = some (.integer code) ∧ code ≠ 0

/-- A `StatusMsg` that ends a restore well. -/
def Final (message : Dictionary) : Prop :=
  msgType message = "StatusMsg" ∧ message.get "Status" = some (.integer 0) ∧
    ¬ NonZeroAmrError message

/-- A message behind which no restore is to end well. -/
inductive Fatal (message : Dictionary) : Prop
  | crash (htype : msgType message = "RestoredCrash")
  | amrError (htype : msgType message = "StatusMsg") (hcode : NonZeroAmrError message)
  | error (htype : msgType message = "StatusMsg") (herror : (message.get "Error").isSome)
      (hfinal : ¬ Final message)
  | rejected (htype : msgType message = "BBUpdateStatusMsg")
      (haccepted : message.get "Accepted" ≠ some (.boolean true))

/-- The `AMRError` of a status is an `i64`, if it is an integer. -/
def InRange (message : Dictionary) : Prop :=
  msgType message = "StatusMsg" →
    ∀ code, message.get "AMRError" = some (.integer code) → -2 ^ 63 ≤ code ∧ code < 2 ^ 63

theorem amrError_iff {message : Dictionary} (htype : msgType message = "StatusMsg")
    (h : InRange message) :
    ((message.get "AMRError").bind asSignedInteger).getD 0 ≠ 0 ↔ NonZeroAmrError message := by
  unfold InRange at h
  unfold NonZeroAmrError
  cases hvalue : message.get "AMRError" with
  | none => simp
  | some value =>
    cases value with
    | integer code =>
      have hcode := h htype code hvalue
      simp only [Option.bind_some, asSignedInteger, if_pos hcode, Option.getD_some]
      constructor
      · exact fun hne => ⟨code, rfl, hne⟩
      · intro ⟨other, hother, hne⟩
        cases hother
        exact hne
    | string | boolean | real | date | data | array | dictionary => simp [asSignedInteger]

theorem status_zero_iff (message : Dictionary) :
    (message.get "Status").bind asSignedInteger = some 0 ↔
      message.get "Status" = some (.integer 0) := by
  cases message.get "Status" with
  | none => simp
  | some value =>
    cases value with
    | integer code =>
      simp only [Option.bind_some, asSignedInteger, Option.some.injEq, Xpc.PlistValue.integer.injEq]
      by_cases hcode : -2 ^ 63 ≤ code ∧ code < 2 ^ 63
      · rw [if_pos hcode, Option.some.injEq]
      · rw [if_neg hcode]
        simp only [reduceCtorEq, false_iff]
        omega
    | string | boolean | real | date | data | array | dictionary => simp [asSignedInteger]

theorem accepted_iff (message : Dictionary) :
    ((message.get "Accepted").bind asBoolean).getD false = true ↔
      message.get "Accepted" = some (.boolean true) := by
  cases message.get "Accepted" with
  | none => simp
  | some value => cases value <;> simp [asBoolean]

end Messages

section Logs

/-- The events that are noted on the way all satisfy `p`. -/
def Adds (p : Event → Prop) (w w' : World) : Prop :=
  ∃ more, w'.log = w.log ++ more ∧ ∀ event ∈ more, p event

variable {p q : Event → Prop}

instance : IsPreorder World (Adds p) where
  refl w := ⟨[], (List.append_nil _).symm, by simp⟩
  trans _ _ _ := by
    intro ⟨first, hfirst, hp⟩ ⟨second, hsecond, hp'⟩
    refine ⟨first ++ second, by rw [hsecond, hfirst, List.append_assoc], ?_⟩
    exact List.forall_mem_append.mpr ⟨hp, hp'⟩

theorem Adds.mono {w w' : World} (h : Adds p w w') (hpq : ∀ event, p event → q event) :
    Adds q w w' := by
  obtain ⟨more, hlog, hp⟩ := h
  exact ⟨more, hlog, fun event hmem => hpq event (hp event hmem)⟩

theorem Adds.same {w w' : World} (h : w'.log = w.log) : Adds p w w' :=
  ⟨[], by rw [h, List.append_nil], by simp⟩

theorem adds_note {event : Event} (h : p event) : Keeps (Adds p) (Prog.modify (World.note event) : RestoreM Unit) :=
  Keeps.modify fun _ => ⟨[event], rfl, by simpa using h⟩

instance : Keeps (Adds p) await := by
  constructor
  intro w
  unfold await
  split <;> exact Adds.same rfl

instance : Keeps (Adds p) checkCancel := by
  constructor
  intro w
  unfold checkCancel
  split <;> exact Adds.same rfl

instance adds_socket : Keeps (Adds p) socket := by
  refine Keeps.bind inferInstance fun result => ?_
  cases result with
  | ok answer => exact Keeps.pure answer
  | error error => exact Keeps.fail _

theorem adds_send {message : Outgoing} (hsending : p (.sending message)) (hsent : p (.sent message)) :
    Keeps (Adds p) (send message) := by
  refine Keeps.bind (adds_note hsending) fun _ => ?_
  exact Keeps.bind inferInstance fun _ => adds_note hsent

theorem adds_recv {place : Place} (h : ∀ message, p (.received place message)) :
    Keeps (Adds p) (recv place) := by
  refine Keeps.bind inferInstance fun answer => ?_
  cases answer with
  | message message => exact Keeps.bind (adds_note (h message)) fun _ => Keeps.pure _
  | data | done | failed | dropped => exact Keeps.fail _

theorem log_of_adds {w w' : World} (h : Adds (fun _ => False) w w') : w'.log = w.log := by
  obtain ⟨more, hlog, hnone⟩ := h
  rw [hlog, List.eq_nil_iff_forall_not_mem.mpr hnone, List.append_nil]

/-- A socket fails as such, and leaves no trace. -/
theorem socket_log (log : List Event) :
    Triple (fun w => w.log = log) socket (fun _ w => w.log = log)
      (fun error w => error = .transport ∧ w.log = log) (fun w => w.log = log) := by
  have hawait : Keeps (Adds fun _ => False) await := inferInstance
  refine Triple.bind (Triple.attempt (hawait.triple fun w w' hw hadds => ?_)) fun result => ?_
  · exact (log_of_adds hadds).trans hw
  · cases result with
    | ok answer => exact Triple.pure fun _ h => h
    | error error => exact Triple.fail fun _ h => ⟨rfl, h⟩

/-- What is handed over, and sent unless the connection fails. -/
theorem send_log (log : List Event) (message : Outgoing) :
    Triple (fun w => w.log = log) (send message)
      (fun _ w => w.log = log ++ [.sending message, .sent message])
      (fun error w => error = .transport ∧ w.log = log ++ [.sending message])
      (fun w => w.log = log ++ [.sending message]) := by
  refine Triple.bind (Q := fun _ w => w.log = log ++ [.sending message]) ?_ fun _ => ?_
  · exact Triple.modify fun w h => congrArg (· ++ [Event.sending message]) h
  · refine Triple.bind (socket_log _) fun _ => Triple.modify fun w h => ?_
    show w.log ++ [.sent message] = _
    rw [h, List.append_assoc]
    rfl

end Logs

section Dispatch

def Outgoing.Answers : Outgoing → Prop
  | .reply | .restoreShouldAttest _ => True
  | _ => False

/-- What a request leaves: answers, and messages that are not judged. -/
def Event.Aside : Event → Prop
  | .received place _ => place ≠ .main
  | .sending message => message.Answers
  | .sent message => message.Answers

theorem adds_answer {message : Outgoing} (h : message.Answers) :
    Keeps (Adds Event.Aside) (send message) := adds_send h h

instance adds_reply : Keeps (Adds Event.Aside) (send .reply) := adds_answer True.intro

instance adds_handler (rounds : ℕ) : Keeps (Adds Event.Aside) (handler rounds) := by
  induction rounds with
  | zero => exact Keeps.stop
  | succ rounds ih =>
    refine Keeps.bind inferInstance fun answer => ?_
    cases answer with
    | data bytes => exact Keeps.bind adds_reply fun _ => ih
    | message | done | failed | dropped => exact Keeps.pure _

instance adds_sinkSend (sink : BootSink) : Keeps (Adds Event.Aside) sink.send := by
  cases sink with
  | port => exact Keeps.bind inferInstance fun _ => Keeps.pure _
  | restored => exact adds_reply

instance adds_sinkRecv (sink : BootSink) : Keeps (Adds Event.Aside) sink.recv := by
  cases sink with
  | port =>
    refine Keeps.bind inferInstance fun answer => ?_
    cases answer with
    | message message => exact Keeps.pure _
    | data | done | failed | dropped => exact Keeps.fail _
  | restored => exact adds_recv fun _ => nofun

theorem adds_streamBootObject (sink : BootSink) (rounds : ℕ) (first : Bool) :
    Keeps (Adds Event.Aside) (streamBootObject sink rounds first) := by
  induction rounds generalizing first with
  | zero => exact Keeps.stop
  | succ rounds ih =>
    have hrest : ∀ first, Keeps (Adds Event.Aside) (streamBootObject sink rounds first) := ih
    unfold streamBootObject
    refine Keeps.bind inferInstance fun _ => Keeps.bind inferInstance fun answer => ?_
    cases answer with
    | data bytes =>
      cases bytes with
      | nil => exact adds_sinkSend sink
      | cons byte bytes =>
        dsimp only
        refine Keeps.bind inferInstance fun _ => ?_
        refine Keeps.branch (fun _ => ?_) fun _ => ih false
        refine Keeps.bind inferInstance fun result => ?_
        cases result with
        | ok message => exact Keeps.ite
        | error error => exact ih false
    | message | done | failed | dropped => exact adds_sinkSend sink

theorem adds_sendBootObject (rounds : ℕ) (message : Dictionary) (handleAea : Bool) :
    Keeps (Adds Event.Aside) (sendBootObject rounds message handleAea) := by
  have hstream := adds_streamBootObject
  unfold sendBootObject
  split
  · exact Keeps.fail _
  · refine Keeps.branch (fun _ => Keeps.fail _) fun _ => ?_
    refine Keeps.branch (fun _ => ?_) fun _ => adds_handler rounds
    refine Keeps.bind inferInstance fun _ => ?_
    split
    · exact Keeps.bind inferInstance fun _ => hstream .port rounds true
    · exact hstream .restored rounds true

theorem adds_selectTransfer {p : Event → Prop} {pump : RestoreM Unit} (h : Keeps (Adds p) pump) :
    Keeps (Adds p) (selectTransfer pump) := by
  constructor
  intro w
  have hpump := h.keeps w
  have htransfer : Keeps (Adds p) (do let _ ← await : RestoreM Unit) := inferInstance
  unfold selectTransfer
  rcases heq : pump w with ⟨outcome, w'⟩
  rw [heq] at hpump
  cases outcome with
  | done value => exact hpump
  | failed error => exact hpump
  | stopped => exact trans_of (Adds p) hpump (htransfer.keeps w')

theorem adds_sendFilesystem (place : Place) {pump : RestoreM Unit}
    (h : Keeps (Adds Event.Aside) pump) : Keeps (Adds Event.Aside) (sendFilesystem place pump) := by
  have htake : Keeps (Adds Event.Aside) (takeFilesystem place) := by
    cases place with
    | main => exact ⟨fun w => Adds.same rfl⟩
    | transfer | bootObject => exact Keeps.pure false
  refine Keeps.bind inferInstance fun _ => Keeps.bind inferInstance fun _ => ?_
  refine Keeps.bind htake fun taken => ?_
  exact Keeps.branch (fun _ => adds_selectTransfer h) fun _ => Keeps.fail _

theorem adds_dispatch (rounds : ℕ) (place : Place) {pump : RestoreM Unit}
    (h : Keeps (Adds Event.Aside) pump) (message : Dictionary) :
    Keeps (Adds Event.Aside) (dispatch rounds place pump message) := by
  have hobject := adds_sendBootObject rounds message
  unfold dispatch
  split
  · exact Keeps.pure _
  · refine Keeps.branch (fun _ => adds_sendFilesystem place h) fun _ => ?_
    refine Keeps.branch (fun _ => hobject false) fun _ => ?_
    refine Keeps.branch (fun _ => hobject true) fun _ => ?_
    exact Keeps.branch (fun _ => adds_handler rounds) fun _ => Keeps.pure ()

theorem adds_runTransferPump (rounds : ℕ) : Keeps (Adds Event.Aside) (runTransferPump rounds) := by
  induction rounds with
  | zero => exact Keeps.stop
  | succ rounds ih =>
    refine Keeps.bind inferInstance fun _ => ?_
    refine Keeps.bind (adds_recv fun _ => nofun) fun message => ?_
    refine Keeps.branch (fun _ => ?_) fun _ => ih
    exact Keeps.bind (adds_dispatch rounds .transfer ih message) fun _ => ih

end Dispatch

section Drive

def Outgoing.Progresses : Outgoing → Prop
  | .startRestore | .reboot | .goodbye => False
  | _ => True

/-- What the main loop leaves. -/
def Event.Within : Event → Prop
  | .received _ _ => True
  | .sending message => message.Progresses
  | .sent message => message.Progresses

theorem Event.Aside.within {event : Event} (h : event.Aside) : event.Within := by
  cases event with
  | received place message => exact True.intro
  | sending message => cases message <;> first | exact True.intro | exact False.elim h
  | sent message => cases message <;> first | exact True.intro | exact False.elim h

/-- The main loop has taken off no message that it judges fatal. -/
def Clear (log : List Event) : Prop :=
  ∀ message, .received .main message ∈ log → InRange message → ¬ Fatal message

/-- The last message was final, and has been acknowledged. -/
def Over (log : List Event) : Prop :=
  ∃ before message, log = before ++ [.received .main message, .sending .receivedFinalStatus,
    .sent .receivedFinalStatus] ∧ Clear before ∧ (InRange message → Final message)

/-- The main loop on its way, from a log that was clear. -/
structure Underway (start : World) (w : World) : Prop where
  adds : Adds Event.Within start w
  clear : Clear w.log

variable {start : World}

theorem Underway.aside {w w' : World} (h : Underway start w) (hadds : Adds Event.Aside w w') :
    Underway start w' := by
  constructor
  · exact trans_of (Adds Event.Within) h.adds (hadds.mono fun _ => Event.Aside.within)
  · obtain ⟨more, hlog, hmore⟩ := hadds
    intro message hmem
    rw [hlog] at hmem
    rcases List.mem_append.mp hmem with hold | hnew
    · exact h.clear message hold
    · exact absurd rfl (hmore _ hnew)

/-- A part of the loop that takes off no message there. -/
theorem underway_of_keeps {α : Type} {m : RestoreM α} (h : Keeps (Adds Event.Aside) m) :
    Triple (Underway start) m (fun _ => Underway start) (fun _ => Underway start)
      (Underway start) :=
  h.triple fun _ _ hstart hadds => hstart.aside hadds

/-- A message has just been taken off. -/
structure Taken (start : World) (message : Dictionary) (w : World) : Prop where
  adds : Adds Event.Within start w
  clear : ∃ before, w.log = before ++ [.received .main message] ∧ Clear before

theorem Taken.underway {message : Dictionary} {w : World} (h : Taken start message w)
    (hharmless : InRange message → ¬ Fatal message) : Underway start w := by
  obtain ⟨before, hlog, hclear⟩ := h.clear
  refine ⟨h.adds, fun other hmem => ?_⟩
  rw [hlog] at hmem
  rcases List.mem_append.mp hmem with hold | hlast
  · exact hclear other hold
  · cases List.mem_singleton.mp hlast
    exact hharmless

/-- What the main loop ends in: it is over, or something went wrong. -/
abbrev Drives {α : Type} (start : World) (P : World → Prop) (m : RestoreM α)
    (Q : α → World → Prop) : Prop :=
  Triple P m Q (fun _ => Adds Event.Within start) fun _ => True

theorem drives_of_keeps {α : Type} {m : RestoreM α} (h : Keeps (Adds Event.Aside) m) :
    Drives start (Underway start) m fun _ => Underway start :=
  (underway_of_keeps h).conseq (fun _ => id) (fun _ _ => id) (fun _ _ hw => hw.adds)
    fun _ _ => True.intro

theorem recv_taken : Drives start (Underway start) (recv .main) (Taken start) := by
  have hsocket : Keeps (Adds Event.Aside) socket := inferInstance
  refine Triple.bind (drives_of_keeps hsocket) fun answer => ?_
  cases answer with
  | message message =>
    refine Triple.bind (Q := fun _ => Taken start message) ?_ fun _ => Triple.pure fun _ h => h
    refine Triple.modify fun w h => ⟨?_, w.log, rfl, h.clear⟩
    exact trans_of (Adds Event.Within) h.adds ⟨[.received .main message], rfl, by simp [Event.Within]⟩
  | data | done | failed | dropped => exact Triple.fail fun w h => h.adds

/-- Sending the acknowledgement of a final status. -/
theorem send_over {message : Dictionary} (hfinal : InRange message → Final message) :
    Drives start (Taken start message) (send .receivedFinalStatus)
      fun _ w => Adds Event.Within start w ∧ Over w.log := by
  intro w ⟨hadds, before, hlog, hclear⟩
  have hprogress : ∀ more : List Event, (∀ event ∈ more, event.Within) → ∀ w' : World,
      w'.log = w.log ++ more → Adds Event.Within start w' :=
    fun more hmore w' hw' => trans_of (Adds Event.Within) hadds ⟨more, hw', hmore⟩
  refine (send_log w.log .receivedFinalStatus w rfl).mono ?_ ?_ fun _ _ => True.intro
  · intro _ w' hw'
    refine ⟨hprogress _ (by simp [Event.Within, Outgoing.Progresses]) w' hw', before, message, ?_⟩
    refine ⟨?_, hclear, hfinal⟩
    rw [hw', hlog, List.append_assoc]
    rfl
  · exact fun _ w' hw' => hprogress _ (by simp [Event.Within, Outgoing.Progresses]) w' hw'.2

theorem handleStatus_drives {message : Dictionary} (htype : msgType message = "StatusMsg") :
    Drives start (Taken start message) (handleStatus message) fun ended w =>
      if ended then Adds Event.Within start w ∧ Over w.log else Underway start w := by
  unfold handleStatus
  refine Triple.ite ?_ fun hfinal => Triple.ite ?_ ?_
  · intro ⟨hstatus, hamr⟩
    refine Triple.bind (send_over fun hrange => ⟨htype, (status_zero_iff message).mp hstatus, ?_⟩) ?_
    · exact fun hcode => (amrError_iff htype hrange).mpr hcode hamr
    · exact fun _ => Triple.pure fun _ h => h
  · exact fun _ => Triple.fail fun _ h => h.adds
  · intro hnone
    refine Triple.pure fun w h => ?_
    rw [if_neg Bool.false_ne_true]
    refine h.underway fun hrange hfatal => ?_
    obtain ⟨herror, hamr⟩ := not_or.mp hnone
    cases hfatal with
    | crash hcrash => exact absurd (htype.symm.trans hcrash) (by decide)
    | amrError _ hcode => exact hamr ((amrError_iff htype hrange).mpr hcode)
    | error _ hpresent _ => exact herror hpresent
    | rejected hrejected _ => exact absurd (htype.symm.trans hrejected) (by decide)

theorem handleBbUpdateStatus_drives {message : Dictionary}
    (htype : msgType message = "BBUpdateStatusMsg") :
    Drives start (Taken start message) (handleBbUpdateStatus message) fun _ => Underway start := by
  unfold handleBbUpdateStatus
  refine Triple.ite ?_ fun _ => Triple.fail fun _ h => h.adds
  intro haccepted
  refine Triple.pure fun w h => h.underway fun _ hfatal => ?_
  cases hfatal with
  | crash hcrash => exact absurd (htype.symm.trans hcrash) (by decide)
  | amrError hstatus _ => exact absurd (htype.symm.trans hstatus) (by decide)
  | error hstatus _ _ => exact absurd (htype.symm.trans hstatus) (by decide)
  | rejected _ hrejected => exact hrejected ((accepted_iff message).mp haccepted)

/-- Only three types of messages can be fatal. -/
theorem not_fatal_of_type {message : Dictionary} (hcrash : msgType message ≠ "RestoredCrash")
    (hstatus : msgType message ≠ "StatusMsg") (hbaseband : msgType message ≠ "BBUpdateStatusMsg") :
    ¬ Fatal message := by
  intro hfatal
  cases hfatal with
  | crash h => exact hcrash h
  | amrError h _ => exact hstatus h
  | error h _ _ => exact hstatus h
  | rejected h _ => exact hbaseband h

theorem driveRestore_drives (rounds : ℕ) :
    Drives start (Underway start) (driveRestore rounds)
      fun _ w => Adds Event.Within start w ∧ Over w.log := by
  induction rounds with
  | zero => exact fun _ _ => True.intro
  | succ rounds ih =>
    have hcheck : Keeps (Adds Event.Aside) checkCancel := inferInstance
    refine Triple.bind (drives_of_keeps hcheck) fun _ => Triple.bind recv_taken fun message => ?_
    -- one message, by its type
    refine Triple.ite (fun htype => ?_) fun hrequest => Triple.ite (fun htype => ?_) fun hstatus =>
      Triple.ite (fun htype => ?_) fun hbaseband => Triple.ite (fun htype => ?_) fun hcrash => ?_
    · have hharmless : ¬ Fatal message := by
        refine not_fatal_of_type ?_ ?_ ?_
        all_goals
          intro hother
          rw [hother] at htype
          exact absurd htype (by decide)
      have hdispatch := adds_dispatch rounds .main (adds_runTransferPump rounds) message
      refine Triple.pre (Triple.bind (drives_of_keeps hdispatch) fun _ => ih) ?_
      exact fun _ h => h.underway fun _ => hharmless
    · refine Triple.bind (handleStatus_drives htype) fun ended => ?_
      cases ended with
      | true => exact Triple.pure fun _ h => h
      | false => exact ih
    · exact Triple.bind (handleBbUpdateStatus_drives htype) fun _ => ih
    · exact Triple.fail fun _ h => h.adds
    · have hharmless := not_fatal_of_type hcrash hstatus hbaseband
      have hanswer : Keeps (Adds Event.Aside) (send (.restoreShouldAttest false)) :=
        adds_answer True.intro
      refine Triple.pre (Triple.ite (fun _ => ?_) fun _ => ih) fun _ h => h.underway fun _ => hharmless
      exact Triple.bind (drives_of_keeps hanswer) fun _ => ih

end Drive

section Run

/-- The request is handed over, and sent unless the connection fails. -/
inductive Asked (message : Outgoing) : List Event → Prop
  | handed : Asked message [.sending message]
  | sent : Asked message [.sending message, .sent message]

theorem attempt_request (log : List Event) (message : Outgoing) :
    Triple (fun w => w.log = log) (Prog.attempt (request message) : RestoreM (Except RestoreError Unit))
      (fun _ w => ∃ asked, Asked message asked ∧ w.log = log ++ asked) (fun _ _ => False)
      fun _ => True := by
  have hrequest : Triple (fun w => w.log = log) (request message)
      (fun _ w => ∃ asked, Asked message asked ∧ w.log = log ++ asked)
      (fun _ w => ∃ asked, Asked message asked ∧ w.log = log ++ asked) fun _ => True := by
    refine Triple.bind ((send_log log message).conseq (fun _ => id) (fun _ _ => id) ?_ ?_) fun _ => ?_
    · exact fun _ _ h => ⟨_, .handed, h.2⟩
    · exact fun _ _ => True.intro
    · refine (Triple.bind (socket_log _) fun _ => Triple.pure fun _ h => ?_).conseq (fun _ => id)
        (fun _ _ => id) (fun _ _ h => ⟨_, .sent, h.2⟩) fun _ _ => True.intro
      exact ⟨_, .sent, h⟩
  refine hrequest.attempt.post fun result w h => ?_
  cases result with
  | ok value => exact h
  | error error => exact h

def started : List Event := [.sending .startRestore, .sent .startRestore]

/-- The main loop has ended. -/
structure Driven (result : Except RestoreError Unit) (drive : List Event) : Prop where
  within : ∀ event ∈ drive, event.Within
  ended : result = .ok () → Over (started ++ drive)

/-- What is left of a run that returned: the messages of the main loop, and the requests
behind it. -/
def Returned (result : Except RestoreError Unit) (log : List Event) : Prop :=
  ∃ drive reboot goodbye, log = started ++ drive ++ reboot ++ goodbye ∧ Driven result drive ∧
    (if result = .error .cancelled then Asked .reboot reboot else reboot = []) ∧
    Asked .goodbye goodbye

/-- `StartRestore` could not be sent, or a run has returned with the error. -/
def Failed (error : RestoreError) (log : List Event) : Prop :=
  (error = .transport ∧ log = [.sending .startRestore]) ∨ Returned (.error error) log

theorem driveRestore_driven (rounds : ℕ) {F : RestoreError → World → Prop} :
    Triple (fun w => w.log = started)
      (Prog.attempt (driveRestore rounds) : RestoreM (Except RestoreError Unit))
      (fun result w => ∃ drive, Driven result drive ∧ w.log = started ++ drive) F
      fun _ => True := by
  intro start hstart
  have hunderway : Underway start start := by
    refine ⟨refl_of (Adds Event.Within) start, fun message hmem => ?_⟩
    rw [hstart] at hmem
    simp [started] at hmem
  refine ((driveRestore_drives rounds).attempt.post fun result w h => ?_) start hunderway
  cases result with
  | ok value =>
    obtain ⟨⟨drive, hlog, hdrive⟩, hover⟩ := h
    rw [hstart] at hlog
    exact ⟨drive, ⟨hdrive, fun _ => hlog ▸ hover⟩, hlog⟩
  | error error =>
    obtain ⟨drive, hlog, hdrive⟩ := h
    rw [hstart] at hlog
    exact ⟨drive, ⟨hdrive, nofun⟩, hlog⟩

/-- The goodbye, and the result of the main loop. -/
theorem goodbye_returned {result : Except RestoreError Unit} {drive reboot : List Event}
    (hdriven : Driven result drive)
    (hreboot : if result = .error .cancelled then Asked .reboot reboot else reboot = []) :
    Triple (fun w => w.log = started ++ drive ++ reboot)
      (do
        let _ ← Prog.attempt (request .goodbye)
        match result with
        | .ok _ => return ()
        | .error error => Prog.fail error)
      (fun _ w => Returned (.ok ()) w.log) (fun error w => Failed error w.log) fun _ => True := by
  refine Triple.bind ((attempt_request _ .goodbye).conseq (fun _ => id) (fun _ _ => id)
    (fun _ _ => False.elim) fun _ => id) fun _ => ?_
  have hreturned : ∀ w : World, (∃ asked, Asked .goodbye asked ∧
      w.log = started ++ drive ++ reboot ++ asked) → Returned result w.log :=
    fun w ⟨goodbye, hgoodbye, hlog⟩ => ⟨drive, reboot, goodbye, hlog, hdriven, hreboot, hgoodbye⟩
  cases result with
  | ok value => exact Triple.pure hreturned
  | error error => exact Triple.fail fun w h => Or.inr (hreturned w h)

theorem runRestore_returned (rounds : ℕ) :
    Triple (fun w => w.log = []) (runRestore rounds) (fun _ w => Returned (.ok ()) w.log)
      (fun error w => Failed error w.log) fun _ => True := by
  refine Triple.bind ((send_log [] .startRestore).conseq (fun _ => id) (fun _ _ => id)
    (fun _ _ => Or.inl) fun _ _ => True.intro) fun _ => ?_
  refine Triple.bind (driveRestore_driven rounds) fun result => Triple.ite ?_ ?_
  · intro hcancelled w ⟨drive, hdriven, hlog⟩
    refine Triple.bind ((attempt_request _ .reboot).conseq (fun _ => id) (fun _ _ => id)
      (fun _ _ => False.elim) fun _ => id) (fun _ => ?_) w hlog
    intro w' ⟨reboot, hreboot, hlog'⟩
    refine goodbye_returned hdriven ?_ w' hlog'
    rw [if_pos hcancelled]
    exact hreboot
  · intro hcancelled w ⟨drive, hdriven, hlog⟩
    have hnone : w.log = started ++ drive ++ [] := hlog.trans (List.append_nil _).symm
    refine goodbye_returned hdriven ?_ w hnone
    rw [if_neg hcancelled]

/-- Whether a message is handed over by an event. -/
def Event.hands (message : Outgoing) : Event → Bool
  | .sending other => other == message
  | _ => false

/-- A final status was acknowledged, and no message before it was fatal. -/
def EndsWell (log : List Event) : Prop :=
  ∃ before message after, log = before ++ .received .main message ::
    .sending .receivedFinalStatus :: .sent .receivedFinalStatus :: after ∧ Final message ∧
      (∀ place other, .received place other ∈ before → ¬ Fatal other) ∧
        ∀ place other, .received place other ∉ after

/-- One goodbye, and a reboot if the run was cancelled and only then. -/
def TornDown (outcome : Outcome RestoreError Unit) (log : List Event) : Prop :=
  log.countP (Event.hands .goodbye) = 1 ∧
    log.countP (Event.hands .reboot) = if outcome = .failed .cancelled then 1 else 0

theorem Asked.hands {message : Outgoing} {asked : List Event} (h : Asked message asked)
    (other : Outgoing) : asked.countP (Event.hands other) = if message = other then 1 else 0 := by
  cases h <;> simp [List.countP_cons, Event.hands]

theorem Asked.not_received {message : Outgoing} {asked : List Event} (h : Asked message asked)
    (place : Place) (other : Dictionary) : .received place other ∉ asked := by
  cases h <;> simp

theorem Driven.hands {result : Except RestoreError Unit} {drive : List Event}
    (h : Driven result drive) {message : Outgoing} (hmessage : ¬ message.Progresses) :
    (started ++ drive).countP (Event.hands message) =
      started.countP (Event.hands message) := by
  rw [List.countP_append, Nat.add_eq_left, List.countP_eq_zero]
  intro event hmem hhands
  have hwithin := h.within event hmem
  cases event with
  | sending other =>
    rw [eq_of_beq hhands] at hwithin
    exact hmessage hwithin
  | received | sent => exact absurd hhands Bool.false_ne_true

theorem Returned.tornDown {result : Except RestoreError Unit} {log : List Event}
    (h : Returned result log) {outcome : Outcome RestoreError Unit}
    (houtcome : outcome = .failed .cancelled ↔ result = .error .cancelled) :
    TornDown outcome log := by
  obtain ⟨drive, reboot, goodbye, rfl, hdriven, hreboot, hgoodbye⟩ := h
  unfold TornDown
  rw [List.countP_append, List.countP_append, hgoodbye.hands, hdriven.hands id]
  rw [List.countP_append, List.countP_append, hgoodbye.hands, hdriven.hands id]
  by_cases hcancelled : result = .error .cancelled
  · rw [if_pos hcancelled] at hreboot
    rw [if_pos (houtcome.mpr hcancelled), hreboot.hands, hreboot.hands]
    exact ⟨rfl, rfl⟩
  · rw [if_neg hcancelled] at hreboot
    rw [if_neg (mt houtcome.mp hcancelled), hreboot]
    exact ⟨rfl, rfl⟩

theorem Returned.endsWell {log : List Event} (h : Returned (.ok ()) log)
    (hrange : ∀ message, .received .main message ∈ log → InRange message)
    (haside : ∀ place message, place ≠ .main → .received place message ∈ log → ¬ Fatal message) :
    EndsWell log := by
  obtain ⟨drive, reboot, goodbye, hlog, hdriven, hreboot, hgoodbye⟩ := h
  obtain ⟨before, message, hover, hclear, hfinal⟩ := hdriven.ended rfl
  obtain rfl : reboot = [] := hreboot
  rw [hover] at hlog
  have hmem : ∀ event, event ∈ before ∨ event = .received .main message → event ∈ log := by
    intro event hevent
    rw [hlog]
    rcases hevent with hevent | rfl
    · simp [hevent]
    · simp
  refine ⟨before, message, goodbye, by simpa using hlog, ?_, ?_, hgoodbye.not_received⟩
  · exact hfinal (hrange message (hmem _ (Or.inr rfl)))
  · intro place other hother
    by_cases hmain : place = .main
    · subst hmain
      exact hclear other hother (hrange other (hmem _ (Or.inl hother)))
    · exact haside place other hmain (hmem _ (Or.inl hother))

theorem EndsWell.not_fatal {log : List Event} (h : EndsWell log) {place : Place}
    {message : Dictionary} (hmem : .received place message ∈ log) :
    ¬ Fatal message ∨ Final message := by
  obtain ⟨before, last, after, rfl, hfinal, hbefore, hafter⟩ := h
  rcases List.mem_append.mp hmem with hold | hnew
  · exact Or.inl (hbefore place message hold)
  · rcases List.mem_cons.mp hnew with hlast | hnew
    · cases hlast
      exact Or.inr hfinal
    · refine absurd ?_ (hafter place message)
      simpa using hnew

theorem Final.not_fatal {message : Dictionary} (h : Final message) : ¬ Fatal message := by
  intro hfatal
  cases hfatal with
  | crash htype => exact absurd (h.1.symm.trans htype) (by decide)
  | amrError _ hcode => exact h.2.2 hcode
  | error _ _ hfinal => exact hfinal h
  | rejected htype _ => exact absurd (h.1.symm.trans htype) (by decide)

/-- A status whose `AMRError` is out of range is fatal. -/
theorem inRange_of_not_fatal {message : Dictionary} (h : ¬ Fatal message) : InRange message := by
  intro htype code hcode
  by_cases hzero : code = 0
  · omega
  · exact absurd (Fatal.amrError htype ⟨code, hcode, hzero⟩) h

/-- A run that returns without an error has ended well if and only if each `AMRError` of
the main loop was in range, and the pump and boot objects took no fatal message off. The
requests at the end are as they should be in any case. -/
theorem runRestore_honest (rounds : ℕ) (answers : List Answer) (untilCancel : Option ℕ)
    (filesystem : Bool) :
    let result := runRestore rounds (World.new answers untilCancel filesystem)
    (result.1 = .done () → (EndsWell result.2.log ↔
      (∀ message, .received .main message ∈ result.2.log → InRange message) ∧
        ∀ place message, place ≠ .main → .received place message ∈ result.2.log →
          ¬ Fatal message)) ∧
    (result.1 ≠ .stopped → .sent .startRestore ∈ result.2.log → TornDown result.1 result.2.log) := by
  have hends := runRestore_returned rounds (World.new answers untilCancel filesystem) rfl
  rcases heq : runRestore rounds (World.new answers untilCancel filesystem) with ⟨outcome, w⟩
  rw [heq] at hends
  cases outcome with
  | done value =>
    refine ⟨fun _ => ⟨fun hwell => ?_, fun hcondition => ?_⟩, fun _ _ => hends.tornDown ?_⟩
    · have hharmless : ∀ place message, .received place message ∈ w.log → ¬ Fatal message :=
        fun place message hmem => (hwell.not_fatal hmem).elim id Final.not_fatal
      refine ⟨fun message hmem => inRange_of_not_fatal (hharmless .main message hmem), ?_⟩
      exact fun place message _ hmem => hharmless place message hmem
    · exact hends.endsWell hcondition.1 hcondition.2
    · exact iff_of_false nofun nofun
  | failed error =>
    refine ⟨nofun, fun _ hsent => ?_⟩
    rcases hends with ⟨-, hlog⟩ | hreturned
    · rw [hlog] at hsent
      simp at hsent
    · refine hreturned.tornDown ?_
      rw [Outcome.failed.injEq, Except.error.injEq]
  | stopped => exact ⟨nofun, fun hstopped => absurd rfl hstopped⟩

/-- The device says that it has crashed while the filesystem is sent, and later that it
is done. -/
def crashAnswers : List Answer :=
  [.done, .message [("MsgType", .string "DataRequestMsg"), ("DataType", .string "SystemImageData")],
    .done, .done, .message [("MsgType", .string "RestoredCrash")], .dropped, .done,
    .message [("MsgType", .string "StatusMsg"), ("Status", .integer 0)], .done, .done, .done]

theorem crash_during_transfer :
    (runRestore 4 (World.new crashAnswers none true)).1 = .done () ∧
      ¬ EndsWell (runRestore 4 (World.new crashAnswers none true)).2.log := by
  refine ⟨by rfl, fun hwell => ?_⟩
  have hmem : .received .transfer [("MsgType", .string "RestoredCrash")] ∈
      (runRestore 4 (World.new crashAnswers none true)).2.log :=
    List.mem_of_getElem? (i := 3) (by rfl)
  have hcrash : Fatal [("MsgType", .string "RestoredCrash")] := .crash (by decide)
  exact (hwell.not_fatal hmem).elim (fun h => h hcrash) fun h => h.not_fatal hcrash

end Run

end XitForge.Restore
