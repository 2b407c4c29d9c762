import Mathlib.Algebra.Ring.Int.Defs
import XitForge.Afc.WholeFile
import XitForge.StepRuns

/-!
The open file as a stream. Reads, writes and seeks share one slot for the operation under
way. It survives the call that stored it, is emptied by a call that takes a result of its own
kind, and keeps an operation that ended with an error.
-/
namespace XitForge.Afc.PendingFuture

open FileDescriptor

inductive SeekFrom where
  | start (offset : ℕ)
  | current (offset : ℤ)
  | fromEnd (offset : ℤ)
  deriving DecidableEq, Repr

/-- `PendingResult`. -/
inductive PendingResult where
  | empty
  | seekPos (pos : ℕ)
  | bytes (contents : Bytes)
  deriving DecidableEq, Repr

/-- What is stored: an operation with the arguments of the call that stored it. -/
inductive Operation where
  | read (bufRem : ℕ)
  | write (buf : Bytes)
  | seek (position : SeekFrom)
  deriving DecidableEq, Repr

/-- The 64 bits of an `i64`. -/
def bits (offset : ℤ) : ℕ := (offset % 2 ^ 64).toNat

/-- `seek`. -/
def seekTo (fd : ℕ) : SeekFrom → Task ℕ
  | .start offset => FileDescriptor.seek fd 0 offset
  | .current offset => FileDescriptor.seek fd 1 (bits offset)
  | .fromEnd offset => FileDescriptor.seek fd 2 (bits offset)

/-- `store_pending_read`, `store_pending_write` and `store_pending_seek`. -/
def Operation.task (fd : ℕ) : Operation → Task PendingResult
  | .read bufRem => do
    let contents ← readN fd bufRem
    return .bytes contents
  | .write buf => do
    FileDescriptor.write fd buf
    return .empty
  | .seek position => do
    let pos ← seekTo fd position
    return .seekPos pos

/-- The results an operation can have. -/
def Operation.Yields : Operation → PendingResult → Prop
  | .read bufRem, .bytes contents => contents.length ≤ bufRem
  | .write _, .empty => True
  | .seek _, .seekPos _ => True
  | _, _ => False

section Results

variable {S α β : Type} {respond : S → Request → Except Error AfcPacket × S} {peer : S}

theorem result_map {task : Task α} {f : α → β} {result : β}
    (h : ((task >>= fun value => pure (f value)).run respond peer).result = .ok result) :
    ∃ value, (task.run respond peer).result = .ok value ∧ result = f value := by
  induction task generalizing peer with
  | done value =>
    refine ⟨value, rfl, ?_⟩
    cases h
    rfl
  | failed error => cases h
  | exchange operation headerPayload payload next ih =>
    change ((Task.exchange operation headerPayload payload fun response =>
      (next response).bind fun value => pure (f value)).run respond peer).result = _ at h
    unfold Task.run at h ⊢
    split at h
    · exact ih _ h
    · cases h

theorem sum_chunkNumber (n : ℕ) : (chunkNumber n).sum = n := by
  have hlengths : (pieces (List.replicate n 0)).map List.length = chunkNumber n := by
    unfold pieces chunkNumber
    rw [List.map_map, List.length_replicate]
    apply List.map_congr_left
    intro start _
    rw [Function.comp, List.length_take, List.length_drop, List.length_replicate, Nat.min_comm]
  rw [← hlengths, ← List.length_flatten, flatten_pieces, List.length_replicate]

theorem chunkNumber_bounds {n chunk : ℕ} (h : chunk ∈ chunkNumber n) :
    0 < chunk ∧ chunk ≤ maxTransfer := by
  have htransfer : 0 < maxTransfer := Nat.succ_pos _
  obtain ⟨start, hstart, rfl⟩ := List.mem_map.mp h
  obtain ⟨k, hk, rfl⟩ := List.mem_map.mp hstart
  have hlt := start_lt htransfer (List.mem_range.mp hk)
  exact ⟨Nat.lt_min.mpr ⟨Nat.sub_pos_of_lt hlt, htransfer⟩, Nat.min_le_right ..⟩

/-- On a device that never gives more than it is asked for, an operation has a result of its
kind, and a read one that fits the buffer it was stored for. -/
theorem Operation.yields_of_task {fd : ℕ} {path content : Bytes}
    (device : FileDevice fd path content) (s : device.State) {operation : Operation}
    {result : PendingResult} (h : ((operation.task fd).run device.respond s).result = .ok result) :
    operation.Yields result := by
  cases operation with
  | read bufRem =>
    obtain ⟨contents, hread, rfl⟩ := result_map h
    obtain ⟨part, s', hgives, -, -, hlength, -⟩ := readChunks_gives device (chunkNumber bufRem)
      (fun chunk hchunk => chunkNumber_bounds hchunk) s []
    rw [sum_chunkNumber] at hlength
    have hpart : contents = part := by
      have hsame := hread.symm.trans hgives.1
      cases hsame
      rfl
    rw [hpart]
    exact hlength
  | write buf =>
    obtain ⟨_, _, rfl⟩ := result_map h
    trivial
  | seek position =>
    obtain ⟨pos, _, rfl⟩ := result_map h
    trivial

/-- A write that ends well has sent the bytes it was stored with. -/
theorem write_sends {fd : ℕ} {buf : Bytes} {result : PendingResult}
    (h : (((Operation.write buf).task fd).run respond peer).result = .ok result) :
    (((FileDescriptor.write fd buf).run respond peer).requests.map Request.payload).flatten =
      buf := by
  obtain ⟨value, hwrite, -⟩ := result_map h
  have hall := (writeChunks_run respond fd (pieces buf) peer).2.1
  have hrequests : ((FileDescriptor.write fd buf).run respond peer).requests =
      (pieces buf).map (writeRequest fd) := hall hwrite
  have hpayloads : ((pieces buf).map (writeRequest fd)).map Request.payload = pieces buf := by
    rw [List.map_map]
    exact List.map_id _
  rw [hrequests, hpayloads, flatten_pieces]

end Results

/-- What polling a future comes to. -/
inductive Poll where
  | pending
  | ready (result : Except Error PendingResult)
  deriving DecidableEq, Repr

structure Future where
  operation : Operation
  finished : Bool
  deriving DecidableEq, Repr

inductive Panic where
  /-- A future is polled that has given its result. -/
  | resumed
  /-- `a non read future was stored, this shouldn't happen` -/
  | nonReadFuture
  /-- `a non write future was stored, this shouldn't happen` -/
  | nonWriteFuture
  /-- `a non seek future was stored, this shouldn't happen` -/
  | nonSeekFuture
  /-- `put_slice` of more bytes than the buffer has left. -/
  | bufferFull
  deriving DecidableEq, Repr

inductive Answer where
  | pending
  | started
  | filled (contents : Bytes)
  | wrote (count : ℕ)
  | seeked (pos : ℕ)
  | failed (error : Error)
  | panicked (panic : Panic)
  deriving DecidableEq, Repr

/-- A poll of the future in the slot: `take` says what becomes of the results that the caller
expects, for which the slot is emptied. -/
def Future.poll (future : Future) (outcome : Poll) (take : PendingResult → Option Answer)
    (wrongKind : Panic) : Answer × Option Future :=
  if future.finished then (.panicked .resumed, some future)
  else
    match outcome with
    | .pending => (.pending, some future)
    | .ready (.error error) => (.failed error, some { future with finished := true })
    | .ready (.ok result) =>
      match take result with
      | some answer => (answer, none)
      | none => (.panicked wrongKind, some { future with finished := true })

/-- `get_or_init_read_fut` and `get_or_init_write_fut`. -/
def getOrInit (slot : Option Future) (operation : Operation) : Future :=
  slot.getD ⟨operation, false⟩

/-- `ReadBuf::put_slice`. -/
def putSlice (remaining : ℕ) (contents : Bytes) : Answer :=
  if contents.length ≤ remaining then .filled contents else .panicked .bufferFull

def pollRead (slot : Option Future) (remaining : ℕ) (outcome : Poll) : Answer × Option Future :=
  (getOrInit slot (.read remaining)).poll outcome
    (fun
      | .bytes contents => some (putSlice remaining contents)
      | _ => none)
    .nonReadFuture

def pollWrite (slot : Option Future) (buf : Bytes) (outcome : Poll) : Answer × Option Future :=
  (getOrInit slot (.write buf)).poll outcome
    (fun
      | .empty => some (.wrote buf.length)
      | _ => none)
    .nonWriteFuture

def startSeek (position : SeekFrom) : Answer × Option Future :=
  (.started, some ⟨.seek position, false⟩)

def pollComplete (slot : Option Future) (outcome : Poll) : Answer × Option Future :=
  match slot with
  | none => (.seeked 0, none)
  | some future =>
    future.poll outcome
      (fun
        | .seekPos pos => some (.seeked pos)
        | _ => none)
      .nonSeekFuture

/-- A call, with what the future comes to if the call polls it. -/
inductive Call where
  | pollRead (remaining : ℕ) (outcome : Poll)
  | pollWrite (buf : Bytes) (outcome : Poll)
  | startSeek (position : SeekFrom)
  | pollComplete (outcome : Poll)
  deriving DecidableEq, Repr

def Call.answer (slot : Option Future) : Call → Answer × Option Future
  | .pollRead remaining outcome => PendingFuture.pollRead slot remaining outcome
  | .pollWrite buf outcome => PendingFuture.pollWrite slot buf outcome
  | .startSeek position => PendingFuture.startSeek position
  | .pollComplete outcome => PendingFuture.pollComplete slot outcome

/-- The future that the call polls, and what that comes to. -/
def Call.polls (slot : Option Future) : Call → Option (Future × Poll)
  | .pollRead remaining outcome => some (getOrInit slot (.read remaining), outcome)
  | .pollWrite buf outcome => some (getOrInit slot (.write buf), outcome)
  | .startSeek _ => none
  | .pollComplete outcome => slot.map fun future => (future, outcome)

/-- In this call the stored operation ends with this result. -/
def Call.Completes (slot : Option Future) (call : Call) (operation : Operation)
    (result : PendingResult) : Prop :=
  call.polls slot = some (⟨operation, false⟩, .ready (.ok result))

/-- The outcomes are those of the stored operation: a read gives as many bytes as it was asked
for at most. -/
def Call.Possible (slot : Option Future) (call : Call) : Prop :=
  ∀ operation result, call.Completes slot operation result → operation.Yields result

/-- No panic, and a success is that of an operation of the same kind, with the number of the
bytes that were sent. `idle` says whether the success counts that `poll_complete` reports while
nothing is stored. -/
def Answer.Sound (completes : Operation → PendingResult → Prop) (idle : Prop) : Answer → Prop
  | .filled contents => ∃ bufRem, completes (.read bufRem) (.bytes contents)
  | .wrote count => ∃ buf, completes (.write buf) .empty ∧ count = buf.length
  | .seeked pos => (∃ position, completes (.seek position) (.seekPos pos)) ∨ idle
  | .panicked _ => False
  | _ => True

def Call.Sound (idle : Prop) (slot : Option Future) (call : Call) : Prop :=
  (call.answer slot).1.Sound (call.Completes slot) (slot = none ∧ idle)

/-- A stored read that ends with bytes for which the buffer has room. -/
def FitsRead (remaining : ℕ) : Operation → PendingResult → Prop
  | .read _, .bytes contents => contents.length ≤ remaining
  | _, _ => False

/-- A stored write of as many bytes as the buffer has. -/
def FitsWrite (count : ℕ) : Operation → PendingResult → Prop
  | .write buf, _ => buf.length = count
  | _, _ => False

def FitsSeek : Operation → PendingResult → Prop
  | .seek _, _ => True
  | _, _ => False

/-- What is stored has not ended before, and fits if it ends well now. -/
def Fits (slot : Option Future) (outcome : Poll) (fits : Operation → PendingResult → Prop) :
    Prop :=
  ∀ future ∈ slot, future.finished = false ∧
    ∀ result, outcome = .ready (.ok result) → fits future.operation result

/-- When a call is sound. -/
def Call.Fine (idle : Prop) (slot : Option Future) : Call → Prop
  | .pollRead remaining outcome => Fits slot outcome (FitsRead remaining)
  | .pollWrite buf outcome => Fits slot outcome (FitsWrite buf.length)
  | .startSeek _ => True
  | .pollComplete outcome => (slot = none → idle) ∧ Fits slot outcome FitsSeek

section Soundness

variable {slot : Option Future} {future : Future} {outcome : Poll} {idle : Prop}

/-- A poll is good unless the future has ended before, or ends with a result that the caller
does not take well. -/
theorem Future.poll_good_iff (good : Answer → Prop) {take : PendingResult → Option Answer}
    {wrongKind : Panic} (hpending : good .pending) (hfailed : ∀ error, good (.failed error))
    (hpanicked : ∀ panic, ¬good (.panicked panic)) :
    good (future.poll outcome take wrongKind).1 ↔ future.finished = false ∧
      ∀ result, outcome = .ready (.ok result) → ∃ answer, take result = some answer ∧
        good answer := by
  unfold Future.poll
  by_cases hfinished : future.finished
  · rw [if_pos hfinished]
    exact iff_of_false (hpanicked _) fun h => Bool.noConfusion (hfinished.symm.trans h.1)
  · rw [if_neg hfinished, and_iff_right (Bool.eq_false_iff.mpr hfinished)]
    match outcome with
    | .pending => exact iff_of_true hpending nofun
    | .ready (.error error) => exact iff_of_true (hfailed error) nofun
    | .ready (.ok result) =>
      have hone : (∀ other, Poll.ready (.ok result) = .ready (.ok other) →
          ∃ answer, take other = some answer ∧ good answer) ↔
          ∃ answer, take result = some answer ∧ good answer := by
        constructor
        · exact fun h => h result rfl
        · rintro h other heq
          cases heq
          exact h
      rw [hone]
      dsimp only
      cases htake : take result with
      | none => exact iff_of_false (hpanicked _) fun ⟨answer, hanswer, _⟩ => nomatch hanswer
      | some answer =>
        constructor
        · exact fun hgood => ⟨answer, rfl, hgood⟩
        · intro hgiven
          obtain ⟨other, heq, hgood⟩ := hgiven
          cases heq
          exact hgood

/-- With an operation of its own the call stores what fits. -/
theorem fits_getOrInit_iff {operation : Operation} {fits : Operation → PendingResult → Prop}
    (hown : ∀ result, outcome = .ready (.ok result) → slot = none → fits operation result) :
    ((getOrInit slot operation).finished = false ∧ ∀ result, outcome = .ready (.ok result) →
      fits (getOrInit slot operation).operation result) ↔ Fits slot outcome fits := by
  cases slot with
  | none => exact iff_of_true ⟨rfl, fun result hresult => hown result hresult rfl⟩ nofun
  | some future =>
    constructor
    · intro h other hother
      cases hother
      exact h
    · exact fun h => h future rfl

/-- The result of a stored operation is of its kind. -/
theorem Operation.Yields.kinds {operation : Operation} {result : PendingResult}
    (h : operation.Yields result) :
    (∃ bufRem contents, operation = .read bufRem ∧ result = .bytes contents ∧
        contents.length ≤ bufRem) ∨
      (∃ buf, operation = .write buf ∧ result = .empty) ∨
      ∃ position pos, operation = .seek position ∧ result = .seekPos pos := by
  cases operation with
  | read bufRem =>
    cases result with
    | bytes contents => exact .inl ⟨bufRem, contents, rfl, rfl, h⟩
    | empty => exact h.elim
    | seekPos pos => exact h.elim
  | write buf =>
    cases result with
    | empty => exact .inr (.inl ⟨buf, rfl, rfl⟩)
    | bytes contents => exact h.elim
    | seekPos pos => exact h.elim
  | seek position =>
    cases result with
    | seekPos pos => exact .inr (.inr ⟨position, pos, rfl, rfl⟩)
    | bytes contents => exact h.elim
    | empty => exact h.elim

/-- A poll of the future that the call polls is sound unless the future has ended before, or
ends with a result that does not fit. -/
theorem poll_sound_iff {call : Call} {take : PendingResult → Option Answer} {wrongKind : Panic}
    (fits : Operation → PendingResult → Prop) (h : call.Possible slot)
    (hpolls : call.polls slot = some (future, outcome))
    (htake : ∀ operation result, operation.Yields result → call.Completes slot operation result →
      ((∃ answer, take result = some answer ∧
        answer.Sound (call.Completes slot) (slot = none ∧ idle)) ↔ fits operation result)) :
    (future.poll outcome take wrongKind).1.Sound (call.Completes slot) (slot = none ∧ idle) ↔
      future.finished = false ∧ ∀ result, outcome = .ready (.ok result) →
        fits future.operation result := by
  rw [Future.poll_good_iff (fun answer => answer.Sound (call.Completes slot) (slot = none ∧ idle))
    trivial (fun _ => trivial) (fun _ => id)]
  refine and_congr_right fun hunfinished => forall₂_congr fun result hresult => ?_
  have hcompletes : call.Completes slot future.operation result := by
    unfold Call.Completes
    rw [hpolls, hresult, ← hunfinished]
  exact htake _ _ (h _ _ hcompletes) hcompletes

theorem pollRead_sound_iff {remaining : ℕ} (h : (Call.pollRead remaining outcome).Possible slot) :
    (Call.pollRead remaining outcome).Sound idle slot ↔
      (Call.pollRead remaining outcome).Fine idle slot := by
  refine (poll_sound_iff (FitsRead remaining) h rfl ?_).trans (fits_getOrInit_iff ?_)
  · intro operation result hyields hcompletes
    obtain ⟨bufRem, contents, rfl, rfl, -⟩ | ⟨buf, rfl, rfl⟩ | ⟨position, pos, rfl, rfl⟩ :=
      hyields.kinds
    · by_cases hfits : contents.length ≤ remaining
      · have hfilled : putSlice remaining contents = .filled contents := if_pos hfits
        exact iff_of_true ⟨_, congrArg some hfilled, bufRem, hcompletes⟩ hfits
      · have hfull : putSlice remaining contents = .panicked .bufferFull := if_neg hfits
        refine iff_of_false ?_ hfits
        intro hgiven
        obtain ⟨answer, hanswer, hsound⟩ := hgiven
        cases hanswer.symm.trans (congrArg some hfull)
        exact hsound
    · exact iff_of_false (fun ⟨_, hanswer, _⟩ => nomatch hanswer) id
    · exact iff_of_false (fun ⟨_, hanswer, _⟩ => nomatch hanswer) id
  · intro result hresult hslot
    subst hslot
    have hyields := h (.read remaining) result (by subst hresult; rfl)
    obtain ⟨bufRem, contents, heq, rfl, -⟩ | ⟨buf, heq, -⟩ | ⟨position, pos, heq, -⟩ :=
      hyields.kinds
    · exact hyields
    · cases heq
    · cases heq

theorem pollWrite_sound_iff {buf : Bytes} (h : (Call.pollWrite buf outcome).Possible slot) :
    (Call.pollWrite buf outcome).Sound idle slot ↔ (Call.pollWrite buf outcome).Fine idle slot := by
  refine (poll_sound_iff (FitsWrite buf.length) h rfl ?_).trans (fits_getOrInit_iff ?_)
  · intro operation result hyields hcompletes
    obtain ⟨bufRem, contents, rfl, rfl, -⟩ | ⟨stored, rfl, rfl⟩ | ⟨position, pos, rfl, rfl⟩ :=
      hyields.kinds
    · exact iff_of_false (fun ⟨_, hanswer, _⟩ => nomatch hanswer) id
    · constructor
      · intro hgiven
        obtain ⟨answer, hanswer, hsound⟩ := hgiven
        cases hanswer
        obtain ⟨other, hother, hlength⟩ := hsound
        have hsame := hcompletes.symm.trans hother
        cases hsame
        exact hlength.symm
      · exact fun hlength => ⟨_, rfl, stored, hcompletes, hlength.symm⟩
    · exact iff_of_false (fun ⟨_, hanswer, _⟩ => nomatch hanswer) id
  · exact fun _ _ _ => rfl

theorem pollComplete_sound_iff (h : (Call.pollComplete outcome).Possible slot) :
    (Call.pollComplete outcome).Sound idle slot ↔ (Call.pollComplete outcome).Fine idle slot := by
  cases slot with
  | none =>
    constructor
    · intro hcase
      rcases hcase with ⟨position, hcompletes⟩ | ⟨-, hidle⟩
      · cases hcompletes
      · exact ⟨fun _ => hidle, nofun⟩
    · exact fun hfine => .inr ⟨rfl, hfine.1 rfl⟩
  | some future =>
    refine (poll_sound_iff FitsSeek h rfl ?_).trans ?_
    · intro operation result hyields hcompletes
      obtain ⟨bufRem, contents, rfl, rfl, -⟩ | ⟨buf, rfl, rfl⟩ | ⟨position, pos, rfl, rfl⟩ :=
        hyields.kinds
      · exact iff_of_false (fun ⟨_, hanswer, _⟩ => nomatch hanswer) id
      · exact iff_of_false (fun ⟨_, hanswer, _⟩ => nomatch hanswer) id
      · exact iff_of_true ⟨_, rfl, .inl ⟨position, hcompletes⟩⟩ trivial
    · constructor
      · refine fun hpoll => ⟨nofun, fun other hother => ?_⟩
        cases hother
        exact hpoll
      · exact fun hfine => hfine.2 future rfl

theorem Call.sound_iff {call : Call} (h : call.Possible slot) :
    call.Sound idle slot ↔ call.Fine idle slot := by
  cases call with
  | pollRead remaining outcome => exact pollRead_sound_iff h
  | pollWrite buf outcome => exact pollWrite_sound_iff h
  | startSeek position => exact Iff.rfl
  | pollComplete outcome => exact pollComplete_sound_iff h

end Soundness

/-- The slot after the call. -/
def step (slot : Option Future) (call : Call) : Option (Option Future) :=
  some (call.answer slot).2

theorem along_cons {P : Option Future → Call → Prop} {slot : Option Future} {call : Call}
    {calls : List Call} (hcall : P slot call)
    (hrest : StepRuns.Along step P (call.answer slot).2 calls) :
    StepRuns.Along step P slot (call :: calls) := by
  refine ⟨hcall, fun next hnext => ?_⟩
  cases hnext
  exact hrest

/-- The calls on a file that has just been opened, with outcomes that the operations can have,
are all sound exactly if each is made where it fits what is stored. -/
theorem calls_sound_iff (idle : Prop) {calls : List Call}
    (h : StepRuns.Along step Call.Possible none calls) :
    StepRuns.Along step (Call.Sound idle) none calls ↔
      StepRuns.Along step (Call.Fine idle) none calls :=
  StepRuns.along_iff (fun _ _ hpossible => Call.sound_iff hpossible) h

/-- A read that is taken up again with a larger buffer, and a write after it. -/
theorem calls_sound_iff_resumed :
    StepRuns.Along step (Call.Sound False) none
      [.pollRead 2 .pending, .pollRead 4 (.ready (.ok (.bytes [7, 8]))),
        .pollWrite [1, 2, 3] (.ready (.ok .empty))] := by
  refine (calls_sound_iff False ?_).mpr ?_
  · apply along_cons
    · exact nofun
    apply along_cons
    · intro operation result hcompletes
      cases hcompletes
      exact Nat.le_refl 2
    apply along_cons
    · intro operation result hcompletes
      cases hcompletes
      trivial
    exact trivial
  · apply along_cons
    · exact nofun
    apply along_cons
    · intro future hfuture
      cases hfuture
      refine ⟨rfl, fun result hresult => ?_⟩
      cases hresult
      exact (by decide : 2 ≤ 4)
    apply along_cons
    · exact nofun
    exact trivial

/-- A read fails and is polled once more: the future has given its result. -/
theorem failed_read_polled_again :
    StepRuns.Along step Call.Possible none
        [.pollRead 4 (.ready (.error .socket)), .pollRead 4 .pending] ∧
      ¬StepRuns.Along step (Call.Sound True) none
        [.pollRead 4 (.ready (.error .socket)), .pollRead 4 .pending] := by
  constructor
  · exact along_cons nofun (along_cons nofun trivial)
  · exact fun halong => (halong.2 _ rfl).1

/-- A write takes over a read that has not ended. -/
example : (pollWrite (some ⟨.read 4, false⟩) [1] (.ready (.ok (.bytes [])))).1 =
    .panicked .nonWriteFuture := rfl

/-- One byte is reported where three were sent. -/
example : (pollWrite (some ⟨.write [1, 2, 3], false⟩) [1] (.ready (.ok .empty))).1 = .wrote 1 := rfl

end XitForge.Afc.PendingFuture
