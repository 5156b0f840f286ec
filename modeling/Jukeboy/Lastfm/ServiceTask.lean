import Jukeboy.Base.QueueSet
import Jukeboy.Base.Runs

/-! # The Last.fm service task and its queues

The service task waits on a set of two queues while the internet is there, and
on the command queue alone while it is not. Scrobbles are sent and received
under a mutex; a full scrobble queue drops its oldest entry for the new one.
What a payload holds plays no part in this. -/
namespace Jukeboy.Lastfm.ServiceTask

open Jukeboy.Base.QueueSet

variable {α : Type}

/-- `lastfm_cmd_queue` and `lastfm_cmd_scrobble_queue`. -/
inductive Member where
  | cmd
  | scrobble
deriving DecidableEq, Repr

/-- `LASTFM_SERVICE_CMD_QUEUE_LENGTH` and `LASTFM_SERVICE_SCROBBLE_QUEUE_LENGTH`. -/
def queueLength : Member → Nat
  | .cmd => 8
  | .scrobble => 512

/-- The length of `lastfm_queue_set`. -/
def setLength : Nat := queueLength .cmd + queueLength .scrobble

/-- Where `lastfm_service_task` is: at the head of its loop, in the offline
receive, in `xQueueSelectFromSet`, past it, in `lastfm_service_receive_scrobble`,
processing, and in `lastfm_service_requeue_scrobble` before and after its drop. -/
inductive Pc (α : Type) where
  | top
  | offline
  | selecting
  | selected (member : Member)
  | receiving
  | processing (payload : α)
  | processingScrobble (payload : α)
  | requeueing (payload : α)
  | requeueDropped (payload : α)

/-- `dropped` is what a sender that holds the mutex has still to send after its
drop. -/
structure State (α : Type) where
  queues : Queues Member α
  pc : Pc α
  dropped : Option α

/-- What the calls of the service task answer: whether the internet is there,
whether a wait times out, whether a scrobble fails. -/
structure TaskIo where
  online : Bool
  timedOut : Bool
  failed : Bool

namespace State

variable (s : State α)

def goto (pc : Pc α) : State α := { s with pc := pc }

/-- `lastfm_scrobble_queue_mutex` can be taken. -/
def mutexFree : Bool :=
  s.dropped.isNone && match s.pc with
    | .requeueDropped _ => false
    | _ => true

end State

/-! ## The service task -/

/-- One step of `lastfm_service_task` in its loop. -/
def taskStep (io : TaskIo) (s : State α) : Option (State α) :=
  match s.pc with
  | .top => some (s.goto (if io.online then .selecting else .offline))
  | .offline =>
    match receive .cmd s.queues with
    | none => if io.timedOut then some (s.goto .top) else none
    | some (payload, queues) => some { s with queues := queues, pc := .processing payload }
  | .selecting =>
    match select s.queues with
    | none => none
    | some (member, queues) => some { s with queues := queues, pc := .selected member }
  | .selected .cmd =>
    match receive .cmd s.queues with
    | none => some (s.goto .top)
    | some (payload, queues) => some { s with queues := queues, pc := .processing payload }
  | .selected .scrobble => if io.online then some (s.goto .receiving) else some (s.goto .top)
  | .receiving =>
    if io.timedOut then some (s.goto .top)
    else if !s.mutexFree then none
    else match receive .scrobble s.queues with
    | none => some (s.goto .top)
    | some (payload, queues) => some { s with queues := queues, pc := .processingScrobble payload }
  | .processing _ => some (s.goto .top)
  | .processingScrobble payload => some (s.goto (if io.failed then .requeueing payload else .top))
  | .requeueing payload =>
    if io.timedOut then some (s.goto .top)
    else if !s.mutexFree then none
    else match sendToFront queueLength .scrobble payload s.queues with
    | some queues => some { s with queues := queues, pc := .top }
    | none =>
      match receive .scrobble s.queues with
      | none => some (s.goto .top)
      | some (_, queues) => some { s with queues := queues, pc := .requeueDropped payload }
  | .requeueDropped payload =>
    match sendToFront queueLength .scrobble payload s.queues with
    | some queues => some { s with queues := queues, pc := .top }
    | none => some (s.goto .top)

/-! ## The senders -/

/-- `lastfm_service_enqueue_command`. -/
def enqueueCommand (payload : α) (s : State α) : State α :=
  match send queueLength .cmd payload s.queues with
  | some queues => { s with queues := queues }
  | none => s

/-- `lastfm_service_send_scrobble` with the mutex taken, up to its drop. -/
def sendScrobble (payload : α) (s : State α) : Option (State α) :=
  if !s.mutexFree then none
  else match send queueLength .scrobble payload s.queues with
  | some queues => some { s with queues := queues }
  | none =>
    match receive .scrobble s.queues with
    | none => some s
    | some (_, queues) => some { s with queues := queues, dropped := some payload }

/-- `lastfm_service_send_scrobble` past its drop. -/
def sendDropped (s : State α) : Option (State α) :=
  match s.dropped with
  | none => none
  | some payload =>
    match send queueLength .scrobble payload s.queues with
    | some queues => some { s with queues := queues, dropped := none }
    | none => some { s with dropped := none }

/-! ## Runs -/

inductive Action (α : Type) where
  | task (io : TaskIo)
  | enqueueCommand (payload : α)
  | sendScrobble (payload : α)
  | sendDropped

def step (s : State α) : Action α → Option (State α)
  | .task io => taskStep io s
  | .enqueueCommand payload => some (enqueueCommand payload s)
  | .sendScrobble payload => sendScrobble payload s
  | .sendDropped => sendDropped s

/-- The queues were created and added to the set. -/
def initState : State α where
  queues := empty
  pc := .top
  dropped := none

end Jukeboy.Lastfm.ServiceTask
