import Mathlib.Algebra.GroupWithZero.Nat
import Mathlib.Logic.Function.Basic
import Jukeboy.Base.EspErr
import Jukeboy.Base.Runs

/-! # Script runs

Callers of `script_service_start` and `script_service_run` acquire the one run context,
fill it in and queue it; the worker task runs it. A caller of `script_service_run` waits
for the completion and releases the context, for a caller of `script_service_start` the
worker does. The state is that of an initialised service. -/
namespace Jukeboy.Services.ScriptRuns

open Jukeboy.Base

abbrev Bytes := List UInt8

/-- Which of the two functions a caller has called. -/
inductive Kind where
  | start
  | run
deriving DecidableEq, Repr

/-- What a caller passes, and what `script_load_file` reads for it. -/
structure Request where
  path : Bytes
  argv : List Bytes
  file : Bytes
deriving DecidableEq, Repr

/-- The callers, by number. -/
structure Callers where
  kind : Nat → Kind
  request : Nat → Request

/-- `script_run_context_t`. `outcome` is what a run leaves in `result` but for its
`run_id`; `completion` is the semaphore, and whether it has been given. -/
structure Context (ω : Type) where
  path : Bytes
  argv : Option (List Bytes)
  script : Option Bytes
  detachOnFinish : Bool
  err : EspErr
  runId : Nat
  outcome : Option ω
  completion : Option Bool
deriving DecidableEq, Repr

/-- `script_reset_context_storage`. -/
def Context.zero {ω : Type} : Context ω := ⟨[], none, none, false, .ok, 0, none, none⟩

/-- What a caller returns, and the `result` it has copied. -/
structure Ret (ω : Type) where
  err : EspErr
  runId : Nat
  outcome : Option ω
deriving DecidableEq, Repr

/-- Where a caller is: before its call, turned away by `script_acquire_context`, at the
steps of `script_prepare_context`, before and past `script_queue_context`, past its wait,
in the two halves of `script_release_context`, and back. -/
inductive Pc (ω : Type) where
  | idle
  | rejected
  | acquired
  | named
  | resolved
  | argued
  | loaded
  | ready
  | queued
  | completed
  | releasing (ret : Ret ω)
  | resetting (ret : Ret ω)
  | done (ret : Ret ω)
deriving DecidableEq, Repr

/-- Where `script_worker_task` is, and with whose run. -/
inductive Worker where
  | waiting
  | woken
  | running (c : Nat)
  | executing (c : Nat)
  | finishing (c : Nat)
  | giving (c : Nat)
  /-- It is about to read `detach_on_finish`. -/
  | checking (c : Nat)
  | releasing (c : Nat)
  | resetting (c : Nat)
deriving DecidableEq, Repr

/-- An execution: whose, and what of. -/
structure Execution where
  caller : Nat
  path : Bytes
  argv : Option (List Bytes)
  script : Option Bytes
deriving DecidableEq, Repr

/-- `pending` is whether there is a `s_pending_context`, and whose run it is. `assigned`
and `finished` hold the run identifier and the outcome of each caller's run, `executed`
the executions and `released` on whose behalf the context was released; the code keeps
none of these. -/
structure State (ω : Type) where
  inUse : Bool
  busy : Bool
  active : Bool
  pending : Option Nat
  requestSem : Bool
  nextRunId : Nat
  context : Context ω
  worker : Worker
  pcs : Nat → Pc ω
  assigned : Nat → Option Nat
  finished : Nat → Option (ω × EspErr)
  executed : List Execution
  released : List Nat

variable {ω : Type}

def initial : State ω where
  inUse := false
  busy := false
  active := false
  pending := none
  requestSem := false
  nextRunId := 1
  context := .zero
  worker := .waiting
  pcs _ := .idle
  assigned _ := none
  finished _ := none
  executed := []
  released := []

/-- A caller goes on. -/
def State.goto (s : State ω) (c : Nat) (pc : Pc ω) : State ω :=
  { s with pcs := Function.update s.pcs c pc }

/-- A caller copies the `result` of the context, to return it with `err`. -/
def State.copy (s : State ω) (err : EspErr) : Ret ω := ⟨err, s.context.runId, s.context.outcome⟩

/-- The first half of `script_release_context`. -/
def releaseContextResources (s : State ω) : State ω :=
  { s with context := { s.context with script := none, argv := none } }

/-- The second half. -/
def resetContext (s : State ω) (c : Nat) : State ω :=
  { s with context := .zero, inUse := false, released := s.released ++ [c] }

/-! ## The callers -/

/-- `script_acquire_context`. -/
def acquireContext (s : State ω) (c : Nat) : State ω :=
  if s.inUse || s.busy || s.active || s.pending.isSome then s.goto c .rejected
  else { s with context := .zero, inUse := true }.goto c .acquired

/-- `script_queue_context`. -/
def queueContext (s : State ω) (c : Nat) : State ω :=
  if s.busy || s.active || s.pending.isSome then
    { s with context := { s.context with err := .invalidState } }.goto c
      (.releasing (s.copy .invalidState))
  else
    let next := (s.nextRunId + 1) % 2 ^ 32
    { s with
      nextRunId := if next = 0 then 1 else next
      context := { s.context with runId := s.nextRunId }
      busy := true
      active := true
      pending := some c
      requestSem := true
      assigned := Function.update s.assigned c (some s.nextRunId) }.goto c .queued

/-- The next step of a caller; `err` is what the call it makes returns. -/
def callerStep (calls : Callers) (c : Nat) (err : EspErr) (s : State ω) : Option (State ω) :=
  match s.pcs c with
  | .idle => some (acquireContext s c)
  | .acquired =>
    -- the semaphore is created, and the result and the path filled in
    some ({ s with context := { s.context with
      completion := some false, err := .ok, runId := 0, outcome := none
      path := (calls.request c).path } }.goto c .named)
  | .named =>
    if err ≠ .ok then some (s.goto c (.releasing (s.copy err))) else some (s.goto c .resolved)
  | .resolved =>
    if err ≠ .ok then some (s.goto c (.releasing (s.copy .noMem)))
    else some ({ s with
      context := { s.context with argv := some (calls.request c).argv } }.goto c .argued)
  | .argued =>
    if err ≠ .ok then some (s.goto c (.releasing (s.copy .fail)))
    else some ({ s with
      context := { s.context with script := some (calls.request c).file } }.goto c .loaded)
  | .loaded =>
    some ({ s with
      context := { s.context with detachOnFinish := decide (calls.kind c = Kind.start) } }.goto c .ready)
  | .ready => some (queueContext s c)
  | .queued =>
    match calls.kind c with
    | .start => some (s.goto c (.done (s.copy .ok)))
    | .run =>
      if s.context.completion = some true then
        some ({ s with context := { s.context with completion := some false } }.goto c .completed)
      else none
  | .completed => some (s.goto c (.releasing (s.copy s.context.err)))
  | .releasing ret => some ((releaseContextResources s).goto c (.resetting ret))
  | .resetting ret => some ((resetContext s c).goto c (.done ret))
  | .rejected => none
  | .done _ => none

/-! ## The worker -/

/-- The next step of `script_worker_task`; `outcome` and `err` are what a run leaves. -/
def workerStep (outcome : ω) (err : EspErr) (s : State ω) : Option (State ω) :=
  match s.worker with
  | .waiting =>
    if s.requestSem then some { s with requestSem := false, worker := .woken } else none
  | .woken =>
    match s.pending with
    | none => some { s with worker := .waiting }
    | some c => some { s with pending := none, worker := .running c }
  | .running c =>
    some { s with
      executed := s.executed ++ [⟨c, s.context.path, s.context.argv, s.context.script⟩]
      worker := .executing c }
  | .executing c =>
    some { s with
      context := { s.context with script := none, outcome := some outcome, err := err }
      finished := Function.update s.finished c (some (outcome, err))
      worker := .finishing c }
  | .finishing c => some { s with active := false, busy := false, worker := .giving c }
  | .giving c =>
    match s.context.completion with
    | none => none
    | some _ =>
      some { s with context := { s.context with completion := some true }, worker := .checking c }
  | .checking c =>
    some { s with worker := if s.context.detachOnFinish then .releasing c else .waiting }
  | .releasing c => some { releaseContextResources s with worker := .resetting c }
  | .resetting c => some { resetContext s c with worker := .waiting }

inductive Action (ω : Type) where
  | caller (c : Nat) (err : EspErr)
  | worker (outcome : ω) (err : EspErr)
deriving DecidableEq, Repr

def step (calls : Callers) (s : State ω) : Action ω → Option (State ω)
  | .caller c err => callerStep calls c err s
  | .worker outcome err => workerStep outcome err s

end Jukeboy.Services.ScriptRuns
