import Mathlib.Order.Basic
import XitForge.License.Validator

/-!
What becomes of a license session. Every request and every call carries the
generation it was made in, which counts the sessions cleared before it. The
handlers keep the session to the present generation only if no session is
cleared behind their check, and a call that joins a validation is kept to the
generation of the request only if none was cleared between the two.
-/
namespace XitForge.License

variable {foundation : Foundation}

def Event.clears : Event → Bool
  | .cleared => true
  | .refused _ _ => true
  | _ => false

/-- The number of sessions cleared. -/
def clears (trace : List Event) : ℕ := trace.countP Event.clears

/-- No token of a request that was sent before a session was cleared is the
session's after it, until a request that was sent later succeeds. -/
def TokensStayOut (state : State) : Prop :=
  ∀ before clear after session, state.trace = before ++ clear :: after → clear.clears = true →
    state.session = some session → .sent session.obtained ∈ before →
      ∃ later, .installed later ∈ after ∧ .sent later ∉ before

/-- No refusal erased a session of another key whose request was sent later. -/
def RefusalsSpareLater (state : State) : Prop :=
  ∀ request session, .refused request (some session) ∈ state.trace →
    session.obtained.key ≠ request.key → session.obtained.id ≤ request.id

/-- No call made after a session was cleared is completed by a request sent before it. -/
def CallsAskAnew (state : State) : Prop :=
  ∀ before clear after request call outcome, state.trace = before ++ clear :: after →
    clear.clears = true → .sent request ∈ before → .called call ∈ after →
      .completed call (some request) outcome ∉ state.trace

/-- The key of the validation that a block belongs to, and its request. -/
def Block.live : Block → Option (String × Option Request)
  | .validate _ => none
  | .reject key _ => some (key, none)
  | .respond request _ => some (request.key, some request)

def MainThread.live : MainThread → List (String × Option Request)
  | .idle => []
  | .checked request _ => [(request.key, some request)]

/-- The validations that are not completed yet. -/
def State.live (state : State) : List (String × Option Request) :=
  state.flying.map (fun request => (request.key, some request)) ++
    (state.queue.filterMap Block.live ++ state.main.live)

/-- The steps around which the handlers and the waiters do what is meant. -/
def Steady (foundation : Foundation) (state : State) : Action → Prop
  | .block _ => ∀ call queue request, state.queue = .validate call :: queue →
      (call.key, some request) ∈ state.live → call.generation ≤ request.generation
  | .handle now _ => ∀ request response, state.main = .checked request response →
      match judge foundation response now with
      | .transient _ => True
      | .refused _ => ∀ session, state.session = some session →
          session.obtained.key = request.key ∨ session.obtained.id ≤ request.id
      | .granted _ _ _ _ _ => request.generation = state.generation
  | _ => True

section Stamps

/-- The generation that an event was made in. -/
def Event.stamp : Event → Option ℕ
  | .called call => some call.generation
  | .sent request => some request.generation
  | _ => none

/-- The events carry the number of sessions cleared before them. -/
def Stamped : ℕ → List Event → Prop
  | _, [] => True
  | cleared, event :: trace => (∀ stamp, event.stamp = some stamp → stamp = cleared) ∧
      Stamped (cleared + clears [event]) trace

theorem clears_append (trace events : List Event) :
    clears (trace ++ events) = clears trace + clears events := List.countP_append

theorem clears_cons (event : Event) (trace : List Event) :
    clears (event :: trace) = clears [event] + clears trace := clears_append [event] trace

theorem stamped_append (cleared : ℕ) (trace events : List Event) :
    Stamped cleared (trace ++ events) ↔
      Stamped cleared trace ∧ Stamped (cleared + clears trace) events := by
  induction trace generalizing cleared with
  | nil => simp [Stamped, clears]
  | cons event trace ih =>
    rw [List.cons_append, Stamped, Stamped, ih, clears_cons event trace, Nat.add_assoc, and_assoc]

theorem Stamped.snoc {trace : List Event} (h : Stamped 0 trace) {event : Event}
    (hevent : ∀ stamp, event.stamp = some stamp → stamp = clears trace) :
    Stamped 0 (trace ++ [event]) :=
  (stamped_append 0 trace [event]).mpr ⟨h, by rw [Nat.zero_add]; exact hevent, trivial⟩

/-- Completions neither clear a session nor carry a generation. -/
theorem clears_completed (calls : List Call) (request : Option Request) (outcome : Outcome) :
    clears (calls.map fun call => .completed call request outcome) = 0 := by
  induction calls with
  | nil => rfl
  | cons call calls ih => rw [List.map_cons, clears_cons, ih]; rfl

theorem stamped_completed (cleared : ℕ) (calls : List Call) (request : Option Request)
    (outcome : Outcome) :
    Stamped cleared (calls.map fun call => .completed call request outcome) := by
  induction calls generalizing cleared with
  | nil => trivial
  | cons call calls ih => exact ⟨nofun, ih _⟩

theorem Stamped.bounds {cleared : ℕ} {trace : List Event} (h : Stamped cleared trace) {event : Event}
    (hevent : event ∈ trace) {stamp : ℕ} (hstamp : event.stamp = some stamp) :
    cleared ≤ stamp ∧ stamp ≤ cleared + clears trace := by
  induction trace generalizing cleared with
  | nil => cases hevent
  | cons first trace ih =>
    rw [clears_cons first trace]
    rcases List.mem_cons.mp hevent with rfl | hevent
    · have heq := h.1 stamp hstamp
      omega
    · have hrest := ih h.2 hevent
      omega

/-- What stands before a cleared session was made in an earlier generation than
what stands behind it. -/
theorem Stamped.lt_of_clear {before after : List Event} {clear : Event}
    (h : Stamped 0 (before ++ clear :: after)) (hclear : clear.clears = true) {first : Event}
    (hfirst : first ∈ before) {stamp : ℕ} (hstamp : first.stamp = some stamp) :
    stamp < clears (before ++ clear :: after) ∧
      ∀ second ∈ after, ∀ stamp', second.stamp = some stamp' → stamp < stamp' := by
  have hone : clears [clear] = 1 := by simp [clears, hclear]
  obtain ⟨hbefore, -, hafter⟩ := (stamped_append 0 before (clear :: after)).mp h
  have hle := (hbefore.bounds hfirst hstamp).2
  refine ⟨by rw [clears_append, clears_cons]; omega, fun second hsecond stamp' hstamp' => ?_⟩
  have hge := (hafter.bounds hsecond hstamp').1
  omega

end Stamps

/-- What steady steps keep, for the validations that are not completed. -/
structure Fresh (state : State) (live : List (String × Option Request)) : Prop where
  generation : state.generation = clears state.trace
  stamped : Stamped 0 state.trace
  session : ∀ session, state.session = some session →
    session.obtained.generation = state.generation
  spared : RefusalsSpareLater state
  completed : ∀ call request outcome, .completed call (some request) outcome ∈ state.trace →
    call.generation ≤ request.generation
  queued : ∀ call, .validate call ∈ state.queue → call.generation ≤ state.generation
  distinct : (live.map Prod.fst).Nodup
  waiting : ∀ key ∈ live.map Prod.fst, ∃ waiter ∈ state.waiters, waiter.key = key
  joined : ∀ request, (request.key, some request) ∈ live → ∀ waiter ∈ state.waiters,
    waiter.key = request.key → ∀ call ∈ waiter.calls, call.generation ≤ request.generation

section Steps

variable {state : State} {live live' : List (String × Option Request)}

theorem Fresh.perm (h : Fresh state live) (hperm : live.Perm live') : Fresh state live' where
  generation := h.generation
  stamped := h.stamped
  session := h.session
  spared := h.spared
  completed := h.completed
  queued := h.queued
  distinct := (hperm.map Prod.fst).nodup_iff.mp h.distinct
  waiting := fun key hkey => h.waiting key ((hperm.map Prod.fst).mem_iff.mpr hkey)
  joined := fun request hrequest => h.joined request (hperm.mem_iff.mpr hrequest)

theorem Fresh.start : Fresh {} ({} : State).live where
  generation := rfl
  stamped := trivial
  session := fun _ h => nomatch h
  spared := fun _ _ h => nomatch h
  completed := fun _ _ _ h => nomatch h
  queued := fun _ h => nomatch h
  distinct := List.nodup_nil
  waiting := fun _ h => nomatch h
  joined := fun _ h => nomatch h

/-- The blocks that wait may change, but for new calls. -/
theorem Fresh.requeue (h : Fresh state live) (queue : List Block) (main : MainThread)
    (flying : List Request) (hqueue : ∀ call, .validate call ∈ queue → .validate call ∈ state.queue) :
    Fresh { state with queue := queue, main := main, flying := flying } live where
  generation := h.generation
  stamped := h.stamped
  session := h.session
  spared := h.spared
  completed := h.completed
  queued := fun call hcall => h.queued call (hqueue call hcall)
  distinct := h.distinct
  waiting := h.waiting
  joined := h.joined

theorem Fresh.call (h : Fresh state live) (key : Option String) :
    Fresh (state.call foundation key) live where
  generation := by
    rw [State.call, clears_append, ← h.generation]
    rfl
  stamped := h.stamped.snoc fun stamp hstamp => by
    rw [← h.generation]
    exact (Option.some.inj hstamp).symm
  session := h.session
  spared := fun request session hmem => h.spared request session (by simpa [State.call] using hmem)
  completed := fun call request outcome hmem =>
    h.completed call request outcome (by simpa [State.call] using hmem)
  queued := fun call hcall => by
    rcases List.mem_append.mp hcall with hcall | hcall
    · exact h.queued call hcall
    · cases List.mem_singleton.mp hcall
      exact Nat.le_refl _
  distinct := h.distinct
  waiting := h.waiting
  joined := h.joined

/-- A session is cleared, by any thread or by the handler of a refusal. -/
theorem Fresh.clear (h : Fresh state live) (event : Event) (hevent : event.clears = true)
    (hspared : ∀ request session, event = .refused request (some session) →
      session.obtained.key ≠ request.key → session.obtained.id ≤ request.id) :
    Fresh (state.clear event) live where
  generation := by
    rw [State.clear, clears_append, ← h.generation]
    simp [clears, hevent]
  stamped := h.stamped.snoc fun stamp hstamp => by
    cases event with
    | cleared => cases hstamp
    | refused => cases hstamp
    | called => cases hevent
    | sent => cases hevent
    | installed => cases hevent
    | completed => cases hevent
  session := fun _ hnone => nomatch hnone
  spared := fun request session hmem => by
    rcases List.mem_append.mp hmem with hmem | hmem
    · exact h.spared request session hmem
    · exact hspared request session (List.mem_singleton.mp hmem).symm
  completed := fun call request outcome hmem => by
    rcases List.mem_append.mp hmem with hmem | hmem
    · exact h.completed call request outcome hmem
    · cases List.mem_singleton.mp hmem
      exact nomatch hevent
  queued := fun call hcall => Nat.le_succ_of_le (h.queued call hcall)
  distinct := h.distinct
  waiting := h.waiting
  joined := h.joined

theorem Fresh.install (h : Fresh state live) (session : Session) (accessLevel : String)
    (hobtained : session.obtained.generation = state.generation) :
    Fresh (state.install session accessLevel) live where
  generation := by
    rw [State.install, clears_append, ← h.generation]
    rfl
  stamped := h.stamped.snoc nofun
  session := fun session' hsession => by
    cases hsession
    exact hobtained
  spared := fun request session' hmem =>
    h.spared request session' (by simpa [State.install] using hmem)
  completed := fun call request outcome hmem =>
    h.completed call request outcome (by simpa [State.install] using hmem)
  queued := h.queued
  distinct := h.distinct
  waiting := h.waiting
  joined := h.joined

theorem Fresh.relevel (h : Fresh state live) (accessLevel : Option String) :
    Fresh { state with accessLevel := accessLevel } live :=
  ⟨h.generation, h.stamped, h.session, h.spared, h.completed, h.queued, h.distinct, h.waiting,
    h.joined⟩

/-- A completed validation is not live any more, and no other one has its key. -/
theorem Fresh.complete {key : String} {request : Option Request}
    (h : Fresh state ((key, request) :: live)) (outcome : Outcome)
    (hkey : ∀ request', request = some request' → request'.key = key) :
    Fresh (state.complete key request outcome) live := by
  obtain ⟨hfresh, hdistinct⟩ := List.nodup_cons.mp h.distinct
  refine {
    generation := ?_
    stamped := ?_
    session := h.session
    spared := ?_
    completed := ?_
    queued := h.queued
    distinct := hdistinct
    waiting := ?_
    joined := ?_
  }
  · rw [State.complete, clears_append, clears_completed, ← h.generation]
    rfl
  · exact (stamped_append _ _ _).mpr ⟨h.stamped, stamped_completed _ _ _ _⟩
  · intro request' session hmem
    rcases List.mem_append.mp hmem with hmem | hmem
    · exact h.spared request' session hmem
    · obtain ⟨call, -, hcall⟩ := List.mem_map.mp hmem
      cases hcall
  · intro call request' outcome' hmem
    rcases List.mem_append.mp hmem with hmem | hmem
    · exact h.completed call request' outcome' hmem
    · obtain ⟨call', hcall', hcall⟩ := List.mem_map.mp hmem
      cases hcall
      obtain ⟨waiter, hwaiter, hcalls⟩ := List.mem_flatMap.mp hcall'
      obtain ⟨hwaiter, hof⟩ := List.mem_filter.mp hwaiter
      have hsame := hkey request' rfl
      exact h.joined request' (by rw [hsame]; exact List.mem_cons_self) waiter hwaiter
        (by rw [hsame]; exact of_decide_eq_true hof) call hcalls
  · intro key' hkey'
    obtain ⟨waiter, hwaiter, rfl⟩ := h.waiting key' (List.mem_cons_of_mem _ hkey')
    refine ⟨waiter, List.mem_filter.mpr ⟨hwaiter, decide_eq_true ?_⟩, rfl⟩
    intro heq
    subst heq
    exact hfresh hkey'
  · intro request' hrequest' waiter hwaiter
    exact h.joined request' (List.mem_cons_of_mem _ hrequest') waiter (List.mem_filter.mp hwaiter).1

/-- A new validation, of a call that was made no later than its request is sent. -/
theorem Fresh.begin (h : Fresh state live) {call : Call} (request : Option Request)
    (hnone : ∀ waiter ∈ state.waiters, waiter.key ≠ call.key)
    (hcall : ∀ request', request = some request' → call.generation ≤ request'.generation) :
    Fresh { state with waiters := state.waiters ++ [⟨call.key, [call]⟩] }
      ((call.key, request) :: live) where
  generation := h.generation
  stamped := h.stamped
  session := h.session
  spared := h.spared
  completed := h.completed
  queued := h.queued
  distinct := List.nodup_cons.mpr ⟨fun hkey => by
    obtain ⟨waiter, hwaiter, hsame⟩ := h.waiting _ hkey
    exact hnone waiter hwaiter hsame, h.distinct⟩
  waiting := fun key hkey => by
    rcases List.mem_cons.mp hkey with rfl | hkey
    · exact ⟨_, List.mem_append_right _ List.mem_cons_self, rfl⟩
    · obtain ⟨waiter, hwaiter, hsame⟩ := h.waiting key hkey
      exact ⟨waiter, List.mem_append_left _ hwaiter, hsame⟩
  joined := fun request' hrequest' waiter hwaiter hsame call' hcall' => by
    rcases List.mem_cons.mp hrequest' with heq | hrequest' <;>
      rcases List.mem_append.mp hwaiter with hwaiter | hwaiter
    · exact absurd (hsame.trans (Prod.ext_iff.mp heq).1) (hnone waiter hwaiter)
    · cases List.mem_singleton.mp hwaiter
      cases List.mem_singleton.mp hcall'
      exact hcall request' (Prod.ext_iff.mp heq).2.symm
    · exact h.joined request' hrequest' waiter hwaiter hsame call' hcall'
    · cases List.mem_singleton.mp hwaiter
      obtain ⟨waiter, hwaiter, hof⟩ := h.waiting _ (List.mem_map_of_mem hrequest')
      exact absurd (hof.trans hsame.symm) (hnone waiter hwaiter)

/-- A call joins a validation whose request is of no earlier generation. -/
theorem Fresh.join (h : Fresh state live) {call : Call}
    (hcall : ∀ request, (call.key, some request) ∈ live → call.generation ≤ request.generation) :
    Fresh { state with
      waiters := state.waiters.map fun waiter =>
        if waiter.key = call.key then { waiter with calls := waiter.calls ++ [call] } else waiter }
      live where
  generation := h.generation
  stamped := h.stamped
  session := h.session
  spared := h.spared
  completed := h.completed
  queued := h.queued
  distinct := h.distinct
  waiting := fun key hkey => by
    obtain ⟨waiter, hwaiter, rfl⟩ := h.waiting key hkey
    refine ⟨_, List.mem_map_of_mem hwaiter, ?_⟩
    split <;> rfl
  joined := fun request hrequest waiter hwaiter hsame call' hcall' => by
    obtain ⟨waiter, hmem, rfl⟩ := List.mem_map.mp hwaiter
    by_cases hof : waiter.key = call.key
    · rw [if_pos hof] at hsame hcall'
      rcases List.mem_append.mp hcall' with hcall' | hcall'
      · exact h.joined request hrequest waiter hmem hsame call' hcall'
      · cases List.mem_singleton.mp hcall'
        exact hcall request (by rw [← hof, hsame]; exact hrequest)
    · rw [if_neg hof] at hsame hcall'
      exact h.joined request hrequest waiter hmem hsame call' hcall'

/-- A request is sent in the present generation. -/
theorem Fresh.send (h : Fresh state live) (request : Request) (requests : ℕ) (flying : List Request)
    (hrequest : request.generation = state.generation) :
    Fresh { state with
      requests := requests
      flying := flying
      trace := state.trace ++ [.sent request] } live where
  generation := by
    rw [clears_append, ← h.generation]
    rfl
  stamped := h.stamped.snoc fun stamp hstamp => by
    rw [← h.generation, ← hrequest]
    exact (Option.some.inj hstamp).symm
  session := h.session
  spared := fun request' session hmem => h.spared request' session (by simpa using hmem)
  completed := fun call request' outcome hmem =>
    h.completed call request' outcome (by simpa using hmem)
  queued := h.queued
  distinct := h.distinct
  waiting := h.waiting
  joined := h.joined

/-- The block of `validateKey`. -/
theorem Fresh.validate (h : Fresh state state.live) {call : Call} (deviceID : String)
    (hcall : call.generation ≤ state.generation)
    (hjoin : ∀ request, (call.key, some request) ∈ state.live →
      call.generation ≤ request.generation) :
    Fresh (state.validate foundation call deviceID)
      (state.validate foundation call deviceID).live := by
  unfold State.validate
  split
  · exact h.join hjoin
  · rename_i hnew
    have hnone : ∀ waiter ∈ state.waiters, waiter.key ≠ call.key := fun waiter hwaiter hsame =>
      hnew (List.any_eq_true.mpr ⟨waiter, hwaiter, decide_eq_true hsame⟩)
    have hrejected : ∀ reason, Fresh { state with
        waiters := state.waiters ++ [⟨call.key, [call]⟩]
        queue := state.queue ++ [.reject call.key reason] }
        (state.flying.map (fun request => (request.key, some request)) ++
          ((state.queue ++ [Block.reject call.key reason]).filterMap Block.live ++ state.main.live)) := by
      intro reason
      have hbegin := h.begin none hnone nofun
      refine (hbegin.requeue _ state.main state.flying fun call' hcall' => ?_).perm ?_
      · rcases List.mem_append.mp hcall' with hcall' | hcall'
        · exact hcall'
        · cases List.mem_singleton.mp hcall'
      · rw [List.filterMap_append, List.append_assoc]
        refine List.Perm.trans ?_ (List.perm_append_left_iff _ |>.mpr List.perm_middle.symm)
        exact List.perm_middle.symm
    unfold State.perform
    split
    · exact hrejected "invalid_format"
    · split
      · exact hrejected "device_unavailable"
      · have hbegin := h.begin (some ⟨state.requests, call.key, state.generation⟩) hnone
          fun request hrequest => by
            cases hrequest
            exact hcall
        refine (hbegin.send ⟨state.requests, call.key, state.generation⟩ (state.requests + 1)
          (state.flying ++ [⟨state.requests, call.key, state.generation⟩]) rfl).perm ?_
        rw [State.live, State.live, List.map_append, List.append_assoc]
        exact List.perm_middle.symm

/-- The rest of a handler, of a response that passed the check. -/
theorem Fresh.handle {request : Request} {verdict : Verdict} (uptime : ℤ)
    (h : Fresh state ((request.key, some request) :: live))
    (hrefused : ∀ outcome, verdict = .refused outcome → ∀ session, state.session = some session →
      session.obtained.key = request.key ∨ session.obtained.id ≤ request.id)
    (hgranted : ∀ token expiry remaining accessLevel outcome,
      verdict = .granted token expiry remaining accessLevel outcome →
        request.generation = state.generation) :
    Fresh (state.handle request uptime verdict) live := by
  have hkey : ∀ request', some request = some request' → request'.key = request.key := by
    intro request' heq
    rw [← Option.some.inj heq]
  cases verdict with
  | transient reason => exact h.complete _ hkey
  | refused outcome =>
    refine ((h.clear (.refused request state.session) rfl ?_).relevel none).complete outcome hkey
    intro request' session heq hother
    obtain ⟨rfl, hsession⟩ := Event.refused.inj heq
    exact (hrefused outcome rfl session hsession).resolve_left hother
  | granted token expiry remaining accessLevel outcome =>
    exact (h.install _ _ (hgranted _ _ _ _ _ rfl)).complete _ hkey

/-- A request that is answered goes on as a block of the queue. -/
theorem Fresh.answer (h : Fresh state state.live) {request : Request} (response : Response)
    (hflying : request ∈ state.flying) :
    Fresh { state with
        flying := state.flying.erase request
        queue := state.queue ++ [.respond request response] }
      (State.live { state with
        flying := state.flying.erase request
        queue := state.queue ++ [.respond request response] }) := by
  refine (h.requeue (state.queue ++ [.respond request response]) state.main
    (state.flying.erase request) fun call hcall => ?_).perm ?_
  · rcases List.mem_append.mp hcall with hcall | hcall
    · exact hcall
    · cases List.mem_singleton.mp hcall
  · have herase := (List.perm_cons_erase hflying).map fun request : Request =>
      (request.key, some request)
    rw [State.live, State.live, List.filterMap_append, List.append_assoc]
    refine (herase.append_right _).trans ?_
    exact (List.perm_middle.symm.trans (List.Perm.append_left _ List.perm_middle.symm))

/-- A block of the queue, up to the end of the generation check. -/
theorem Fresh.runBlock {block : Block} {queue : List Block} (deviceID : String)
    (h : Fresh state state.live) (hidle : state.main = .idle) (hqueue : state.queue = block :: queue)
    (hjoin : ∀ call request, block = .validate call → (call.key, some request) ∈ state.live →
      call.generation ≤ request.generation) :
    Fresh ({ state with queue := queue }.runBlock foundation deviceID block)
      ({ state with queue := queue }.runBlock foundation deviceID block).live := by
  have hrest := h.requeue queue .idle state.flying fun call hcall => by
    rw [hqueue]
    exact List.mem_cons_of_mem _ hcall
  rw [State.live, hqueue, hidle, List.filterMap_cons] at hrest
  cases block with
  | validate call =>
    have hlive : ({ state with queue := queue, main := .idle } : State).live = state.live := by
      rw [State.live, State.live, hqueue, hidle, List.filterMap_cons]
      rfl
    rw [← hidle] at hrest hlive
    refine Fresh.validate (?_ : Fresh { state with queue := queue } _) deviceID
      (h.queued call (by rw [hqueue]; exact List.mem_cons_self)) ?_
    · exact hrest
    · intro request hrequest
      exact hjoin call request rfl (by rw [← hlive]; exact hrequest)
  | reject key reason =>
    rw [← hidle] at hrest
    exact (hrest.perm List.perm_middle).complete _ nofun
  | respond request response =>
    simp only [State.runBlock]
    split
    · rw [← hidle] at hrest
      refine (hrest.perm List.perm_middle).complete _ fun request' heq => ?_
      rw [← Option.some.inj heq]
    · refine (h.requeue queue (.checked request response) state.flying fun call hcall => ?_).perm ?_
      · rw [hqueue]
        exact List.mem_cons_of_mem _ hcall
      · rw [State.live, State.live, hqueue, hidle, List.filterMap_cons]
        refine List.Perm.append_left _ ?_
        simpa [Block.live, MainThread.live] using
          (List.perm_append_singleton (request.key, some request) _).symm

theorem handle_live (state : State) (request : Request) (uptime : ℤ) (verdict : Verdict) :
    (state.handle request uptime verdict).live = state.live := by
  cases verdict <;> rfl

theorem Fresh.step {state' : State} {action : Action} (h : Fresh state state.live)
    (hsteady : Steady foundation state action) (hstep : step foundation state action = some state') :
    Fresh state' state'.live := by
  cases action with
  | call key =>
    cases hstep
    refine (h.call key).perm ?_
    rw [State.live, State.live, State.call, List.filterMap_append, List.append_assoc]
    rfl
  | clear =>
    cases hstep
    exact h.clear .cleared rfl nofun
  | answer request response =>
    simp only [License.step] at hstep
    split at hstep
    · rename_i hflying
      cases hstep
      exact h.answer response hflying
    · cases hstep
  | block deviceID =>
    simp only [License.step] at hstep
    split at hstep
    · rename_i block queue hidle hqueue
      cases hstep
      refine h.runBlock deviceID hidle hqueue fun call request hblock => ?_
      exact hsteady call queue request (by rw [hqueue, hblock])
    · cases hstep
  | handle now uptime =>
    simp only [License.step] at hstep
    split at hstep
    · rename_i request response hmain
      cases hstep
      have hchecked : Fresh { state with main := .idle } ((request.key, some request) ::
          ({ state with main := .idle } : State).live) := by
        refine (h.requeue state.queue .idle state.flying fun _ => id).perm ?_
        rw [State.live, State.live, hmain]
        simp only [MainThread.live, ← List.append_assoc]
        exact (List.perm_append_comm.trans (by simp))
      have hverdict := hsteady request response hmain
      rw [handle_live]
      refine hchecked.handle uptime (fun outcome heq => ?_) fun token expiry remaining level outcome heq => ?_
      · rw [heq] at hverdict
        exact hverdict
      · rw [heq] at hverdict
        exact hverdict
    · cases hstep

/-- The run lemma of `Fresh.step`. -/
theorem Fresh.of_reachable (h : Reachable foundation (Steady foundation) state) :
    Fresh state state.live := by
  induction h with
  | start => exact .start
  | next _ hsteady hstep ih => exact ih.step hsteady hstep

end Steps

section Sessions

variable {state : State} {live : List (String × Option Request)}

theorem Fresh.tokensStayOut (h : Fresh state live) : TokensStayOut state := by
  intro before clear after session htrace hclear hsession hsent
  have hstamped := h.stamped
  rw [htrace] at hstamped
  have hlt := (hstamped.lt_of_clear hclear hsent rfl).1
  have hgeneration := h.generation
  rw [htrace, ← h.session session hsession] at hgeneration
  omega

theorem Fresh.callsAskAnew (h : Fresh state live) : CallsAskAnew state := by
  intro before clear after request call outcome htrace hclear hsent hcalled hcompleted
  have hstamped := h.stamped
  rw [htrace] at hstamped
  have hlt := (hstamped.lt_of_clear hclear hsent rfl).2 _ hcalled _ rfl
  exact absurd (h.completed call request outcome hcompleted) (Nat.not_le_of_lt hlt)

/-- In a run of steady steps a cleared session stays cleared for the requests sent
before, a refusal erases no later session of another key, and a call is completed
by a request of its own session or without one. -/
theorem session_fresh (h : Reachable foundation (Steady foundation) state) :
    TokensStayOut state ∧ RefusalsSpareLater state ∧ CallsAskAnew state :=
  have hfresh := Fresh.of_reachable h
  ⟨hfresh.tokensStayOut, hfresh.spared, hfresh.callsAskAnew⟩

theorem Reachable.of_run {allowed : State → Action → Prop} {actions : List Action} {state' : State}
    (h : Reachable foundation allowed state) (hallowed : ∀ state action, allowed state action)
    (hrun : run foundation state actions = some state') : Reachable foundation allowed state' := by
  induction actions generalizing state with
  | nil =>
    cases hrun
    exact h
  | cons action actions ih =>
    obtain ⟨next, hstep, hrest⟩ := Option.bind_eq_some_iff.mp hrun
    exact ih (h.next (hallowed _ _) hstep) hrest

end Sessions

section Runs

/-- Foundation, on the keys and the dates below. -/
def newYear : Foundation where
  normalized := id
  isoDateWithFractionalSeconds := fun _ => none
  isoDate := fun text => if text = "2026-01-01T01:00:00Z" then some 1767229200000 else none
  serverClock := fun text =>
    if text = "Thu, 01 Jan 2026 00:00:00 GMT" then some 1767225600000 else none

def oldKey : String := "AAAA-0000-BBBB-1111"

def newKey : String := "CCCC-2222-DDDD-3333"

def grantedToken : String := "xf2_0123456789abcdef0123456789abcdef0123456789abcdef0123456789abcdef"

/-- A response that grants a session of one hour. -/
def grant : Response where
  date := some "Thu, 01 Jan 2026 00:00:00 GMT"
  body := .object {
    valid := some true
    sessionToken := some grantedToken
    sessionExpiresAt := some "2026-01-01T01:00:00Z"
    accessLevel := some "premium"
  }

def refusal : Response where
  body := .object { valid := some false, reason := some "expired" }

def oldRequest : Request := ⟨0, oldKey, 0⟩

def newRequest : Request := ⟨1, newKey, 0⟩

/-- A session is cleared behind the check of a response that grants one. -/
def clearBehindCheck : List Action :=
  [.call (some oldKey), .block "device", .answer oldRequest grant, .block "device", .clear,
    .handle 0 0]

/-- The older of two validations is refused after the newer one got its session. -/
def refuseBehindGrant : List Action :=
  [.call (some oldKey), .call (some newKey), .block "device", .block "device",
    .answer newRequest grant, .block "device", .handle 0 0, .answer oldRequest refusal,
    .block "device", .handle 0 0]

/-- A call joins the validation of a request that was sent before the session was cleared. -/
def joinBehindClear : List Action :=
  [.call (some oldKey), .block "device", .clear, .call (some oldKey), .block "device",
    .answer oldRequest grant, .block "device"]

/-- The events of a run and the request of the session that it ends with. -/
def history (actions : List Action) : Option (List Event × Option Request) :=
  (run newYear {} actions).map fun state => (state.trace, state.session.map Session.obtained)

theorem exists_of_history {actions : List Action} {trace : List Event} {obtained : Option Request}
    (h : history actions = some (trace, obtained)) :
    ∃ state, Reachable newYear (fun _ _ => True) state ∧ state.trace = trace ∧
      state.session.map Session.obtained = obtained := by
  obtain ⟨state, hrun, hstate⟩ := Option.map_eq_some_iff.mp h
  cases hstate
  exact ⟨state, Reachable.of_run .start (fun _ _ => trivial) hrun, rfl, rfl⟩

/-- Without the conditions on the steps each of the three fails. -/
theorem session_stale :
    (∃ state, Reachable newYear (fun _ _ => True) state ∧ ¬ TokensStayOut state) ∧
      (∃ state, Reachable newYear (fun _ _ => True) state ∧ ¬ RefusalsSpareLater state) ∧
      ∃ state, Reachable newYear (fun _ _ => True) state ∧ ¬ CallsAskAnew state := by
  refine ⟨?_, ?_, ?_⟩
  · obtain ⟨state, hreachable, htrace, hsession⟩ := exists_of_history
      (show history clearBehindCheck = some ([.called ⟨0, oldKey, 0⟩, .sent oldRequest, .cleared,
        .installed oldRequest, .completed ⟨0, oldKey, 0⟩ (some oldRequest) ⟨true, none, none⟩],
        some oldRequest) by decide +kernel)
    refine ⟨state, hreachable, fun h => ?_⟩
    obtain ⟨session, hstate, hobtained⟩ := Option.map_eq_some_iff.mp hsession
    obtain ⟨later, hinstalled, hnew⟩ := h [.called ⟨0, oldKey, 0⟩, .sent oldRequest] .cleared _
      session htrace rfl hstate (by rw [hobtained]; decide)
    have hlater : later = oldRequest := by simpa using hinstalled
    rw [hlater] at hnew
    exact hnew (by decide)
  · obtain ⟨state, hreachable, htrace, -⟩ := exists_of_history
      (show history refuseBehindGrant = some ([.called ⟨0, oldKey, 0⟩, .called ⟨1, newKey, 0⟩,
        .sent oldRequest, .sent newRequest, .installed newRequest,
        .completed ⟨1, newKey, 0⟩ (some newRequest) ⟨true, none, none⟩,
        .refused oldRequest (some ⟨grantedToken, 1767229200000, 3600000, newRequest⟩),
        .completed ⟨0, oldKey, 0⟩ (some oldRequest) ⟨false, some "expired", none⟩], none)
        by decide +kernel)
    refine ⟨state, hreachable, fun h => ?_⟩
    have hlater := h oldRequest ⟨grantedToken, 1767229200000, 3600000, newRequest⟩
      (by rw [htrace]; simp) (by decide)
    exact absurd hlater (by decide)
  · obtain ⟨state, hreachable, htrace, -⟩ := exists_of_history
      (show history joinBehindClear = some ([.called ⟨0, oldKey, 0⟩, .sent oldRequest, .cleared,
        .called ⟨1, oldKey, 1⟩,
        .completed ⟨0, oldKey, 0⟩ (some oldRequest) ⟨false, some "session_changed", none⟩,
        .completed ⟨1, oldKey, 1⟩ (some oldRequest) ⟨false, some "session_changed", none⟩], none)
        by decide +kernel)
    refine ⟨state, hreachable, fun h => ?_⟩
    refine h [.called ⟨0, oldKey, 0⟩, .sent oldRequest] .cleared _ oldRequest ⟨1, oldKey, 1⟩
      ⟨false, some "session_changed", none⟩ htrace rfl (by decide) (by decide) ?_
    rw [htrace]
    decide

/-- A validation that gets its session, with no other one and no cleared session around it. -/
theorem grant_steady : ∃ state, Reachable newYear (Steady newYear) state ∧
    state.session = some ⟨grantedToken, 1767229200000, 3600000, oldRequest⟩ := by
  have hcalled : Reachable newYear (Steady newYear) (State.call newYear {} (some oldKey)) :=
    .next .start (show Steady newYear {} (.call (some oldKey)) from trivial) rfl
  have hsent := hcalled.next
    (show Steady newYear _ (.block "device") from fun _ _ _ _ h => nomatch h) rfl
  have hanswered := hsent.next
    (show Steady newYear _ (.answer oldRequest grant) from trivial) rfl
  have hchecked := hanswered.next
    (show Steady newYear _ (.block "device") from fun _ _ _ h => nomatch h) rfl
  have hverdict : judge newYear grant 0 =
      .granted grantedToken 1767229200000 3600000 "premium" ⟨true, none, none⟩ := by decide +kernel
  have hinstalled := hchecked.next
    (show Steady newYear _ (.handle 0 0) from fun request response hmain => by
      cases hmain
      rw [hverdict]
      exact rfl) rfl
  exact ⟨_, hinstalled, by rw [hverdict]; rfl⟩

theorem session_fresh_grant : ∃ state, state.session = some ⟨grantedToken, 1767229200000, 3600000, oldRequest⟩ ∧
    TokensStayOut state ∧ RefusalsSpareLater state ∧ CallsAskAnew state := by
  obtain ⟨state, hsteady, hsession⟩ := grant_steady
  exact ⟨state, hsession, session_fresh hsteady⟩

end Runs

end XitForge.License
