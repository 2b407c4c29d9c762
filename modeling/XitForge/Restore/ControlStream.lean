import Mathlib.Data.List.Basic
import XitForge.ByteStream
import XitForge.StepRuns

/-!
The control connection of a restore, byte by byte. `recv` takes the length and the body
of a message in as many reads as the connection likes, and what it has read is its own:
a `recv` that is dropped has taken the bytes off the stream. While the filesystem is sent
`tokio::select!` drops the pump at any await, and a boot object waits three seconds only.
-/
namespace XitForge.Restore.ControlStream

open ByteStream StepRuns

/-- `send_plist`: the length as a `u32`, and the text. -/
def frame (body : Bytes) : Bytes := beBytes 4 body.length ++ body

def frames (bodies : List Bytes) : Bytes := bodies.flatMap frame

/-- A message of the device. -/
structure Message where
  body : Bytes
  fits : body.length < 2 ^ 32

/-- What a handler does on the control connection. -/
inductive Action where
  | reply (body : Bytes)
  /-- A boot object waits for a message, and may reply to it. -/
  | ask (answer : Bytes → Option Bytes)

/-- Who has called `recv`. -/
inductive Caller where
  | loop
  | bootObject (answer : Bytes → Option Bytes) (rest : List Action)

/-- Where the loop awaits something. -/
inductive Task where
  /-- In `recv`, which has read some bytes of a message. -/
  | receiving (got : Bytes) (caller : Caller)
  /-- In a handler, with this still to do. -/
  | handling (actions : List Action)
  /-- In `send`, with these bytes still to write. -/
  | sending (pending : Bytes) (actions : List Action)

structure State where
  unread : Bytes
  written : Bytes
  /-- The bodies that `recv` has returned. -/
  received : List Bytes
  /-- The replies that were handed to `send`, or were still to be when the pump was dropped. -/
  replies : List Bytes
  task : Task
  /-- What a dropped `recv` had read. -/
  lost : Bytes
  /-- What a dropped pump had still to write. -/
  unsaid : Bytes

/-- What happens next. -/
inductive Tick where
  | read (count : ℕ)
  | write (count : ℕ)
  | flush
  /-- The handler goes on, or is done. -/
  | proceed
  /-- The three seconds are over. -/
  | expire
  /-- The transfer is over: the pump is dropped, and the main loop goes on. -/
  | finish
  deriving DecidableEq, Repr

/-- What `read_exact` still waits for, in the length or in the body. -/
def missing (got : Bytes) : ℕ :=
  if got.length < 4 then 4 - got.length else 4 + beValue (got.take 4) - got.length

def Action.reply? : Action → Option Bytes
  | .reply body => some body
  | .ask _ => none

/-- The replies that are still to be handed to `send`. -/
def planned (actions : List Action) : List Bytes := actions.filterMap Action.reply?

namespace Task

def got : Task → Bytes
  | .receiving got _ => got
  | _ => []

def pending : Task → Bytes
  | .sending pending _ => pending
  | _ => []

def rest : Task → List Action
  | .receiving _ .loop => []
  | .receiving _ (.bootObject _ rest) => rest
  | .handling actions => actions
  | .sending _ actions => actions

/-- What the requests so far have still to be answered with. -/
def owes (task : Task) : Bytes := task.pending ++ frames (planned task.rest)

end Task

section Steps

-- what the handler of a message does, by the number of messages before it
variable (plan : ℕ → Bytes → List Action)

/-- The handler that a message is given to. -/
def handlerOf (count : ℕ) (body : Bytes) : Caller → List Action
  | .loop => plan count body
  | .bootObject answer rest => ((answer body).map Action.reply).toList ++ rest

/-- `recv` goes on with some more bytes, and returns with the last of them. -/
def State.take (s : State) (count : ℕ) (got : Bytes) (caller : Caller) : State :=
  let got' := got ++ s.unread.take count
  let body := got'.drop 4
  if missing got' = 0 then
    { s with
      unread := s.unread.drop count
      received := s.received ++ [body]
      task := .handling (handlerOf plan s.received.length body caller) }
  else { s with unread := s.unread.drop count, task := .receiving got' caller }

/-- One await of the loop is over. A read or a write takes some bytes; the length and the
text of a reply are written one after the other. -/
def step (s : State) : Tick → Option State
  | .read count =>
    match s.task with
    | .receiving got caller =>
      if 0 < count ∧ count ≤ missing got ∧ count ≤ s.unread.length then
        some (s.take plan count got caller)
      else none
    | _ => none
  | .write count =>
    match s.task with
    | .sending pending actions =>
      if 0 < count ∧ count ≤ pending.length then
        some { s with
          written := s.written ++ pending.take count
          task := .sending (pending.drop count) actions }
      else none
    | _ => none
  | .flush =>
    match s.task with
    | .sending [] actions => some { s with task := .handling actions }
    | _ => none
  | .proceed =>
    match s.task with
    | .handling (.reply body :: actions) =>
      some { s with replies := s.replies ++ [body], task := .sending (frame body) actions }
    | .handling (.ask answer :: actions) =>
      some { s with task := .receiving [] (.bootObject answer actions) }
    | .handling [] => some { s with task := .receiving [] .loop }
    | _ => none
  | .expire =>
    match s.task with
    | .receiving got (.bootObject _ actions) =>
      some { s with lost := s.lost ++ got, task := .handling actions }
    | _ => none
  | .finish =>
    some { s with
      lost := s.lost ++ s.task.got
      unsaid := s.unsaid ++ s.task.owes
      replies := s.replies ++ planned s.task.rest
      task := .receiving [] .loop }

/-- The pump has just been started, and the device has these messages to send. -/
def State.start (messages : List Message) : State where
  unread := frames (messages.map Message.body)
  written := []
  received := []
  replies := []
  task := .receiving [] .loop
  lost := []
  unsaid := []

end Steps

section Frames

theorem frames_cons (body : Bytes) (bodies : List Bytes) :
    frames (body :: bodies) = frame body ++ frames bodies := rfl

theorem frames_append (bodies more : List Bytes) :
    frames (bodies ++ more) = frames bodies ++ frames more := List.flatMap_append

theorem length_frame (body : Bytes) : (frame body).length = 4 + body.length := by
  rw [frame, List.length_append, length_beBytes]

/-- The last bytes of a message, and the whole of it then. -/
theorem length_of_missing {got more : Bytes} (hpos : 0 < more.length) (hmore : more.length ≤ missing got)
    (h : missing (got ++ more) = 0) :
    (got ++ more).length = 4 + beValue ((got ++ more).take 4) ∧ 4 ≤ (got ++ more).length := by
  unfold missing at h hmore
  rw [List.length_append] at h ⊢
  by_cases hprefix : got.length < 4
  · rw [if_pos hprefix] at hmore
    by_cases hfour : got.length + more.length < 4
    · rw [if_pos hfour] at h
      omega
    · rw [if_neg hfour] at h
      omega
  · rw [if_neg hprefix] at hmore
    rw [if_neg (by omega)] at h
    have htake : (got ++ more).take 4 = got.take 4 := List.take_append_of_le_length (by omega)
    rw [htake] at h ⊢
    omega

/-- Bytes in front of frames that are as long as they say are the first of them. -/
theorem frame_of_whole {got unread : Bytes} {bodies : List Bytes}
    (hfits : ∀ body ∈ bodies, body.length < 2 ^ 32) (h : got ++ unread = frames bodies)
    (hlength : got.length = 4 + beValue (got.take 4)) (hfour : 4 ≤ got.length) :
    ∃ rest, bodies = got.drop 4 :: rest ∧ unread = frames rest := by
  cases bodies with
  | nil =>
    obtain ⟨rfl, -⟩ := List.append_eq_nil_iff.mp h
    exact absurd hfour (by decide)
  | cons body rest =>
    have hbody := hfits body List.mem_cons_self
    have htake : got.take 4 = beBytes 4 body.length := by
      have hfront := congrArg (List.take 4) h
      rw [List.take_append_of_le_length hfour, frames_cons, frame, List.append_assoc,
        List.take_left' (length_beBytes 4 _)] at hfront
      exact hfront
    rw [htake, beValue_beBytes (by omega)] at hlength
    rw [frames_cons] at h
    obtain ⟨rfl, rfl⟩ := List.append_inj h (hlength.trans (length_frame body).symm)
    exact ⟨rest, by rw [frame, List.drop_left' (length_beBytes 4 _)], rfl⟩

end Frames

section Accounts

variable {messages : List Message} {s s' : State} {tick : Tick} {plan : ℕ → Bytes → List Action}

/-- Every byte is in a message, lost, or still to be read, and every byte of a reply is
written, unsaid, or still to be written; as long as none was lost they are in order. -/
structure Accounted (messages : List Message) (s : State) : Prop where
  read : (frames (messages.map Message.body)).length =
    (frames s.received).length + s.lost.length + s.task.got.length + s.unread.length
  aligned : s.lost = [] → ∃ rest, s.received ++ rest = messages.map Message.body ∧
    s.task.got ++ s.unread = frames rest
  written : (frames s.replies).length =
    s.written.length + s.task.pending.length + s.unsaid.length
  said : s.unsaid = [] → s.written ++ s.task.pending = frames s.replies

/-- `recv` takes its bytes from the front of what is unread. -/
theorem Accounted.take (h : Accounted messages s) {count : ℕ} {got : Bytes} {caller : Caller}
    (htask : s.task = .receiving got caller) (hpos : 0 < count) (hcount : count ≤ missing got)
    (hunread : count ≤ s.unread.length) : Accounted messages (s.take plan count got caller) := by
  obtain ⟨hread, haligned, hwritten, hsaid⟩ := h
  rw [htask] at hread haligned hwritten hsaid
  change _ = _ + _ + got.length + _ at hread
  have hsplit : (got ++ s.unread.take count) ++ s.unread.drop count = got ++ s.unread := by
    rw [List.append_assoc, List.take_append_drop]
  have hlength : (got ++ s.unread.take count).length + (s.unread.drop count).length =
      got.length + s.unread.length := by
    rw [← List.length_append, hsplit, List.length_append]
  have htaken : (s.unread.take count).length = count := List.length_take_of_le hunread
  unfold State.take
  dsimp only
  by_cases hwhole : missing (got ++ s.unread.take count) = 0
  · rw [if_pos hwhole]
    obtain ⟨hframe, hfour⟩ := length_of_missing (by omega) (by omega) hwhole
    refine ⟨?_, fun hlost => ?_, hwritten, hsaid⟩
    · show _ = (frames (s.received ++ [_])).length + s.lost.length + 0 + (s.unread.drop count).length
      have hbody : (frames [(got ++ s.unread.take count).drop 4]).length =
          (got ++ s.unread.take count).length := by
        rw [frames_cons, List.length_append, length_frame, List.length_drop]
        show 4 + _ + 0 = _
        omega
      rw [frames_append, List.length_append, hbody]
      omega
    · obtain ⟨rest, hmessages, hrest⟩ := haligned hlost
      have hfits : ∀ body ∈ rest, body.length < 2 ^ 32 := by
        intro body hbody
        have hmem : body ∈ messages.map Message.body := by
          rw [← hmessages]
          exact List.mem_append_right _ hbody
        obtain ⟨message, -, rfl⟩ := List.mem_map.mp hmem
        exact message.fits
      obtain ⟨rest, rfl, hunread'⟩ := frame_of_whole hfits (hsplit.trans hrest) hframe hfour
      exact ⟨rest, by rw [← hmessages, List.append_assoc]; rfl, hunread'⟩
  · rw [if_neg hwhole]
    refine ⟨?_, fun hlost => ?_, hwritten, hsaid⟩
    · show _ = (frames s.received).length + s.lost.length + (got ++ s.unread.take count).length +
        (s.unread.drop count).length
      omega
    · obtain ⟨rest, hmessages, hrest⟩ := haligned hlost
      exact ⟨rest, hmessages, hsplit.trans hrest⟩

/-- A task that has read and has to write as much as the one before. -/
theorem Accounted.turn (h : Accounted messages s) {task : Task} (hgot : task.got = s.task.got)
    (hpending : task.pending = s.task.pending) : Accounted messages { s with task := task } := by
  obtain ⟨hread, haligned, hwritten, hsaid⟩ := h
  rw [← hgot] at hread haligned
  rw [← hpending] at hwritten hsaid
  exact ⟨hread, haligned, hwritten, hsaid⟩

/-- The messages are received whole and once, with the rest of them on the stream behind
what the one in front has been read of, and every reply to them is written whole but for
what is still to be written of it. -/
structure Settled (messages : List Message) (s : State) : Prop where
  messages : ∃ rest, s.received ++ rest = messages.map Message.body ∧
    s.task.got ++ s.unread = frames rest
  replies : s.written ++ s.task.owes = frames (s.replies ++ planned s.task.rest)

end Accounts

/-- `<plist><dict/></plist>`. -/
def emptyMessage : Message where
  body := [0x3C, 0x70, 0x6C, 0x69, 0x73, 0x74, 0x3E, 0x3C, 0x64, 0x69, 0x63, 0x74, 0x2F, 0x3E,
    0x3C, 0x2F, 0x70, 0x6C, 0x69, 0x73, 0x74, 0x3E]
  fits := by decide

end XitForge.Restore.ControlStream
