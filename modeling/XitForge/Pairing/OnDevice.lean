import Mathlib.Data.Int.Notation
import Mathlib.Data.List.Basic
import XitForge.StepRuns

/-!
`XFOnDevicePairing`. An attempt is started on the main queue, runs on the native queue and
is finished on the main queue, and any thread may stop it. What happens at once is a
section under `_stateLock` or a block of the main queue; a thread that has stopped an
attempt hands its block to the main queue later.
-/
namespace XitForge.Pairing.OnDevice

/-- An `NSError`. -/
structure PairError where
  code : ℤ
  message : String
  domain : String := "XitForge.OnDevicePairing"
  deriving DecidableEq, Repr

section Errors

def unsupported : PairError where
  code := 2001
  message := "El emparejamiento iniciado desde Ajustes requiere iOS 27 o posterior."

def cancelledError : PairError := { code := 2004, message := "Emparejamiento cancelado." }

/-- The error of `cancel`. -/
def userCancelled : PairError where
  code := 3072
  message := "Emparejamiento cancelado."
  domain := "NSCocoaErrorDomain"

def invalidPin : PairError := { code := 2007, message := "El servicio devolvió un PIN no válido." }

def unpublishedIdentity : PairError where
  code := 2009
  message := "No se pudo publicar la identidad de emparejamiento."

/-- With the code that Bonjour gives. -/
def notPublished (code : ℤ) : PairError where
  code := 2010
  message := "No se pudo anunciar XitForge por Bonjour (código " ++ toString code ++
    "). Activa Wi-Fi y permite Red local en Ajustes > XitForge."

def noRecord : PairError where
  code := 2012
  message := "El iPhone no devolvió un registro de emparejamiento."

def incomplete : PairError := { code := 2013, message := "El emparejamiento no se completó." }

end Errors

/-- A block of the main queue. -/
inductive Block where
  /-- `start`, called on another thread. -/
  | start
  /-- `[self->_advertisement stop]`, for the attempt that was stopped. -/
  | stop (attempt : ℕ)
  | pin (attempt : ℕ) (pin : String)
  | publish (attempt port : ℕ)
  | finish (attempt : ℕ) (url : Bool) (error : Option PairError)
  deriving DecidableEq, Repr

inductive Event where
  /-- A stop is accepted. -/
  | accepted (attempt : ℕ)
  /-- The record is written. -/
  | saved (attempt : ℕ)
  /-- `finishAttempt` is called. -/
  | ended (attempt : ℕ)
  /-- The completion that was captured by one attempt is called by the finish of one. -/
  | completed (captured attempt : ℕ) (url : Bool) (error : Option PairError)
  deriving DecidableEq, Repr

inductive Deed where
  | cancel
  | pin
  | ready
  | publish
  | stopAdvertisement
  | shutdown
  | closeListener
  | closePeer
  | cancelDeadline
  | endKeepAlive
  | endBackgroundTask
  deriving DecidableEq, Repr

/-- What something that belongs to one attempt does to the state of one. -/
structure Act where
  attempt : ℕ
  target : ℕ
  deed : Deed
  deriving DecidableEq, Repr

/-- Where `runAttempt` is. -/
inductive Point where
  | entry
  /-- In `cancellationError`, before anything was done. -/
  | refused
  | preparing
  | binding
  | storing (port : ℕ)
  | publishing (port : ℕ) (cancelled : Bool)
  /-- At the head of the loop. -/
  | waiting
  | selecting
  | adopting
  /-- Behind the loop. -/
  | closing (peer : Bool) (error : Option PairError)
  | checking (peer : Bool) (error : Option PairError)
  /-- In `pairable_host_accept_fd`. -/
  | accepting
  /-- In `stopWithError` for a PIN, behind the section. -/
  | stopping
  | committing (error : Option PairError) (record : Bool)
  | releasing (peer : Bool) (error : Option PairError) (saved : Bool)
  /-- In `cancellationError`. -/
  | reporting
  | finishing (saved : Bool) (error : Option PairError)
  deriving DecidableEq, Repr

/-- The attempt that set a field stands for what the field holds. -/
structure State where
  running : Bool := false
  cancelled : Bool := false
  stopError : Option PairError := none
  attempt : ℕ := 0
  /-- `_activeReady`, `_activePIN` and `_activeCompletion`. -/
  active : Option ℕ := none
  listenerFD : Option ℕ := none
  peerFD : Option ℕ := none
  advertisement : Option ℕ := none
  deadline : Option ℕ := none
  ownsAudioSession : Option ℕ := none
  /-- The notifications of the audio session are observed. -/
  observer : Option ℕ := none
  backgroundTask : Option ℕ := none
  /-- The record on disk. -/
  record : Option ℕ := none
  main : List Block := []
  native : List ℕ := []
  /-- The attempt that runs on the native queue. -/
  task : Option (ℕ × Point) := none
  /-- The stops of other threads that are still to hand over their block. -/
  stopping : List ℕ := []
  log : List Event := []
  acts : List Act := []
  deriving DecidableEq, Repr

/-- How `beginKeepAlive` ends. -/
inductive KeepAlive where
  | ready
  | failed (owns : Bool) (error : PairError)
  deriving DecidableEq, Repr

/-- What the owner of the pairing does on the main thread, on its own or in a handler. -/
inductive Request where
  | start (supported : Bool) (audio : KeepAlive)
  | stop (error : PairError)
  deriving DecidableEq, Repr

/-- What stops an attempt on the main thread by itself. -/
inductive Alarm where
  | deadline
  | expiration
  | interruption
  | reset
  deriving DecidableEq, Repr

def Alarm.error : Alarm → PairError
  | deadline =>
    { code := 2003
      message := "El emparejamiento no se aprobó en cinco minutos. Vuelve a iniciarlo desde XitForge." }
  | expiration =>
    { code := 2002
      message := "iOS detuvo el emparejamiento en segundo plano. Vuelve a XitForge e inténtalo de nuevo." }
  | interruption =>
    { code := 2006
      message := "Una interrupción de audio detuvo el emparejamiento. Vuelve a XitForge para iniciarlo de nuevo." }
  | reset =>
    { code := 2006
      message := "iOS reinició el audio que mantenía activo el emparejamiento. Vuelve a intentarlo." }

/-- What a block meets. -/
structure Outcome where
  supported : Bool := true
  audio : KeepAlive := .ready
  /-- `setTXTRecordData`. -/
  published : Bool := true
  /-- What the handler does that the block calls. -/
  requests : List Request := []
  deriving DecidableEq, Repr

/-- What a step of `runAttempt` meets. -/
inductive Input where
  | go
  | failed (error : PairError)
  | bound (port : ℕ)
  /-- Nothing to read, or no peer that counts. -/
  | again
  | peer
  | pin (pin : String)
  | returned (record : Bool)
  deriving DecidableEq, Repr

inductive Tick where
  | request (request : Request)
  | startElsewhere
  /-- The section of `stopWithError`, on another thread. -/
  | stopElsewhere (error : PairError)
  | handOver (attempt : ℕ)
  | main (outcome : Outcome)
  | alarm (alarm : Alarm)
  | didPublish (sender : ℕ) (requests : List Request)
  | didNotPublish (sender : ℕ) (code : ℤ)
  /-- The native queue takes its next block. -/
  | dequeue
  | native (input : Input)
  deriving DecidableEq, Repr

namespace State

def note (s : State) (event : Event) : State := { s with log := s.log ++ [event] }

def act (s : State) (acts : List Act) : State := { s with acts := s.acts ++ acts }

def enqueue (s : State) (block : Block) : State := { s with main := s.main ++ [block] }

/-- What is done to a field, if it holds something. -/
def actOn (attempt : ℕ) (field : Option ℕ) (deed : Deed) : List Act :=
  (field.map fun target => ⟨attempt, target, deed⟩).toList

def finishAttempt (s : State) (attempt : ℕ) (url : Bool) (error : Option PairError) : State :=
  (s.note (.ended attempt)).enqueue (.finish attempt url error)

/-- `cancellationError`. -/
def cancellationError (s : State) : PairError := s.stopError.getD cancelledError

/-- The section of `stopWithError`, by something that belongs to an attempt or by the owner. -/
def stopSection (s : State) (owner : Option ℕ) (error : PairError) : Option State :=
  if !s.running || s.cancelled then none
  else
    let s' := { s with cancelled := true, stopError := some error }
    some ((s'.note (.accepted s.attempt)).act
      ((owner.map fun attempt => ⟨attempt, s.attempt, .cancel⟩).toList ++
        actOn s.attempt s.listenerFD .shutdown ++ actOn s.attempt s.peerFD .shutdown))

/-- `stopWithError` on the main thread. -/
def stopWithError (s : State) (owner : Option ℕ) (error : PairError) : State :=
  match s.stopSection owner error with
  | none => s
  | some stopped => stopped.enqueue (.stop s.attempt)

/-- `start` on the main thread. -/
def start (s : State) (supported : Bool) (audio : KeepAlive) : State :=
  if s.running then s
  else
    let attempt := s.attempt + 1
    let s' := { s with
      running := true
      cancelled := false
      stopError := none
      attempt := attempt
      active := some attempt }
    if !supported then s'.finishAttempt attempt false (some unsupported)
    else
      match audio with
      | .failed owns error =>
        ({ s' with ownsAudioSession := if owns then some attempt else s.ownsAudioSession }
          ).finishAttempt attempt false (some error)
      | .ready =>
        { s' with
          ownsAudioSession := some attempt
          observer := some attempt
          backgroundTask := some attempt
          deadline := some attempt
          native := s.native ++ [attempt] }

def request (s : State) : Request → State
  | .start supported audio => s.start supported audio
  | .stop error => s.stopWithError none error

def requests (s : State) (requests : List Request) : State := requests.foldl request s

/-- The block of `receivePIN`. -/
def deliverPin (s : State) (attempt : ℕ) (requests : List Request) : State :=
  if s.running && !s.cancelled && s.attempt == attempt then
    (s.act (actOn attempt s.active .pin)).requests requests
  else s

/-- The block of `publishPort`. -/
def publishPort (s : State) (attempt : ℕ) (published : Bool) : State :=
  if s.running && !s.cancelled && s.attempt == attempt then
    let s' := ({ s with advertisement := some attempt }).act [⟨attempt, s.attempt, .publish⟩]
    if published then s' else s'.stopWithError (some attempt) unpublishedIdentity
  else s

/-- The block of `stopWithError`. -/
def stopAdvertisement (s : State) (attempt : ℕ) : State :=
  s.act (actOn attempt s.advertisement .stopAdvertisement)

/-- The block of `finishAttempt`. -/
def finish (s : State) (attempt : ℕ) (url : Bool) (error : Option PairError)
    (requests : List Request) : State :=
  if !s.running || s.attempt != attempt then s
  else
    let completionURL := !s.cancelled && url
    let completionError := if s.cancelled then some s.cancellationError else error
    let s' := ({ s with
      running := false
      active := none
      advertisement := none
      deadline := none
      ownsAudioSession := none
      observer := none
      backgroundTask := none }).act
        (actOn attempt s.advertisement .stopAdvertisement ++
          actOn attempt s.deadline .cancelDeadline ++
          actOn attempt s.ownsAudioSession .endKeepAlive ++
          actOn attempt s.backgroundTask .endBackgroundTask)
    match s.active with
    | some captured =>
      (s'.note (.completed captured attempt completionURL completionError)).requests requests
    | none => s'

def runBlock (s : State) (outcome : Outcome) : Block → State
  | .start => s.start outcome.supported outcome.audio
  | .stop attempt => s.stopAdvertisement attempt
  | .pin attempt _ => s.deliverPin attempt outcome.requests
  | .publish attempt _ => s.publishPort attempt outcome.published
  | .finish attempt url error => s.finish attempt url error outcome.requests

/-- Whose alarm it is, as long as it may go off. -/
def armed (s : State) : Alarm → Option ℕ
  | .deadline => s.deadline
  | .expiration => s.backgroundTask
  | .interruption => s.observer
  | .reset => s.observer

/-- `netServiceDidPublish`. -/
def didPublish (s : State) (sender : ℕ) (requests : List Request) : State :=
  if s.running && !s.cancelled && s.advertisement == some sender then
    (s.act (actOn sender s.active .ready)).requests requests
  else s

def goto (s : State) (attempt : ℕ) (point : Point) : State := { s with task := some (attempt, point) }

/-- The end of `runAttempt`. -/
def endAttempt (s : State) (attempt : ℕ) (url : Bool) (error : Option PairError) : State :=
  ({ s with task := none }).finishAttempt attempt url error

/-- Six digits. -/
def validPin (pin : String) : Bool :=
  pin.toList.length == 6 && pin.toList.all fun character => '0' ≤ character && character ≤ '9'

/-- The section of `runAttempt` that commits. -/
def commit (s : State) (attempt : ℕ) (error : Option PairError) (record : Bool) :
    Input → Option State
  | .go =>
    if error.isNone && record && (!s.cancelled && s.running && s.attempt == attempt) then
      some ((({ s with record := some attempt }).note (.saved attempt)).goto attempt
        (.releasing true none true))
    else
      let error := if error.isNone && !record then some noRecord else error
      some (s.goto attempt (.releasing true error false))
  | .failed failure =>
    if error.isNone && record && (!s.cancelled && s.running && s.attempt == attempt) then
      some (s.goto attempt (.releasing true (some failure) false))
    else none
  | _ => none

/-- A step of `runAttempt`. -/
def runAttempt (s : State) (attempt : ℕ) : Point → Input → Option State
  | .entry, .go => some (s.goto attempt (if s.cancelled then .refused else .preparing))
  | .refused, .go => some (s.endAttempt attempt false (some s.cancellationError))
  | .preparing, .go => some (s.goto attempt .binding)
  | .preparing, .failed error => some (s.endAttempt attempt false (some error))
  | .binding, .bound port => some (s.goto attempt (.storing port))
  | .binding, .failed error => some (s.endAttempt attempt false (some error))
  | .storing port, .go =>
    some (({ s with listenerFD := some attempt }).goto attempt (.publishing port s.cancelled))
  | .publishing port cancelled, .go =>
    some ((if cancelled then s else s.enqueue (.publish attempt port)).goto attempt .waiting)
  | .waiting, .go => some (s.goto attempt (if s.cancelled then .closing false none else .selecting))
  | .selecting, .again => some (s.goto attempt .waiting)
  | .selecting, .failed error => some (s.goto attempt (.closing false (some error)))
  | .selecting, .peer => some (s.goto attempt .adopting)
  | .adopting, .go =>
    let shutdown := if s.cancelled then [⟨attempt, attempt, .shutdown⟩] else []
    some ((({ s with peerFD := some attempt }).act shutdown).goto attempt (.closing true none))
  | .closing peer error, .go =>
    some ((({ s with listenerFD := none }).act (actOn attempt s.listenerFD .closeListener)).goto
      attempt (.checking peer error))
  | .checking peer error, .go =>
    some (s.goto attempt (if peer && !s.cancelled then .accepting else .releasing peer error false))
  | .accepting, .pin pin =>
    if validPin pin then some (s.enqueue (.pin attempt pin))
    else
      match s.stopSection (some attempt) invalidPin with
      | none => some s
      | some stopped => some (stopped.goto attempt .stopping)
  | .stopping, .go => some ((s.enqueue (.stop attempt)).goto attempt .accepting)
  | .accepting, .failed error => some (s.goto attempt (.committing (some error) false))
  | .accepting, .returned record => some (s.goto attempt (.committing none record))
  | .committing error record, input => s.commit attempt error record input
  | .releasing _ error saved, .go =>
    let error := if error.isNone && !saved then some incomplete else error
    some ((({ s with peerFD := none }).act (actOn attempt s.peerFD .closePeer)).goto attempt
      (if s.cancelled then .reporting else .finishing saved error))
  | .reporting, .go => some (s.goto attempt (.finishing false (some s.cancellationError)))
  | .finishing saved error, .go => some (s.endAttempt attempt saved error)
  | _, _ => none

/-- What happens next, if it can. -/
def step (s : State) : Tick → Option State
  | .request request => some (s.request request)
  | .startElsewhere => some (s.enqueue .start)
  | .stopElsewhere error =>
    (s.stopSection none error).map fun stopped =>
      { stopped with stopping := s.stopping ++ [s.attempt] }
  | .handOver attempt =>
    if attempt ∈ s.stopping then
      some (({ s with stopping := s.stopping.erase attempt }).enqueue (.stop attempt))
    else none
  | .main outcome =>
    match s.main with
    | [] => none
    | block :: rest => some (({ s with main := rest }).runBlock outcome block)
  | .alarm alarm => (s.armed alarm).map fun attempt => s.stopWithError (some attempt) alarm.error
  | .didPublish sender requests => some (s.didPublish sender requests)
  | .didNotPublish sender code =>
    if s.advertisement = some sender then
      some (s.stopWithError (some sender) (notPublished code))
    else none
  | .dequeue =>
    match s.task, s.native with
    | none, attempt :: rest => some { s with native := rest, task := some (attempt, .entry) }
    | _, _ => none
  | .native input =>
    match s.task with
    | some (attempt, point) => s.runAttempt attempt point input
    | none => none

end State

end XitForge.Pairing.OnDevice
