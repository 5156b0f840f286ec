import Jukeboy.Power.Rails

/-! # Shutting down

Services register callbacks with a priority. A reboot posts the shutdown event, calls the
callbacks in the order of their priorities until one fails, turns all rails off and
schedules the restart. -/
namespace Jukeboy.Power.Shutdown

open Jukeboy.Base Jukeboy.Power.Rails

/-- `power_mgmt_service_shutdown_entry_t`. -/
structure Entry where
  callback : Nat
  userCtx : Nat
  priority : Int
deriving DecidableEq, Repr

/-- `POWER_MGMT_MAX_SHUTDOWN_CALLBACKS`. -/
def maxShutdownCallbacks : Nat := 8

/-- `power_mgmt_pending_action_t`, but for `NONE`. -/
inductive PendingAction where
  | reboot
  | download
deriving DecidableEq, Repr

/-- `registered` holds the entries in the order of their registration, which the code does
not keep. -/
structure State where
  service : Service
  callbacks : List Entry
  pending : Option PendingAction
  registered : List Entry

def initial : State := ⟨initialService, [], none, []⟩

/-! ## Registration -/

/-- The loop of `power_mgmt_service_register_shutdown_callback` that makes room: `before`
is what stands below `insert_index`, last entry first, and `after` what was moved up. -/
def insertEntry (entry : Entry) : List Entry → List Entry → List Entry
  | [], after => entry :: after
  | e :: before, after =>
    if entry.priority < e.priority then insertEntry entry before (e :: after)
    else (e :: before).reverse ++ entry :: after

/-- `power_mgmt_service_register_shutdown_callback`; a null callback is none. -/
def registerShutdownCallback (s : State) (callback : Option Nat) (userCtx : Nat)
    (priority : Int) : EspErr × State :=
  match callback with
  | none => (.invalidArg, s)
  | some callback =>
    if s.callbacks.any fun e => e.callback == callback && e.userCtx == userCtx then
      (.invalidState, s)
    else if s.callbacks.length ≥ maxShutdownCallbacks then (.noMem, s)
    else
      let entry := ⟨callback, userCtx, priority⟩
      (.ok, { s with
        callbacks := insertEntry entry s.callbacks.reverse []
        registered := s.registered ++ [entry] })

/-! ## A reboot -/

/-- What a reboot meets: the answers to its event posts and to the calls that switch the
rails, and for every callback what it returns and what it makes of the rails. -/
structure RebootIo where
  shutdownPost : EspErr
  callback : Entry → Service → EspErr × Service
  answers : Answers
  railPost : Rail → EspErr

/-- What `power_mgmt_service_run_shutdown_callbacks` leaves: its result, the rails, and the
callbacks it has called with what they returned. -/
structure Ran where
  err : EspErr
  service : Service
  called : List (Entry × EspErr)

/-- The loop over the callbacks. -/
def runCallbacks (io : RebootIo) (s : Service) : List Entry → Ran
  | [] => ⟨.ok, s, []⟩
  | e :: entries =>
    let (err, s) := io.callback e s
    if err ≠ .ok then ⟨err, s, [(e, err)]⟩
    else
      let ran := runCallbacks io s entries
      { ran with called := (e, err) :: ran.called }

/-- `power_mgmt_service_run_shutdown_callbacks`. -/
def runShutdownCallbacks (io : RebootIo) (s : State) : Ran :=
  if io.shutdownPost ≠ .ok then ⟨io.shutdownPost, s.service, []⟩
  else runCallbacks io s.service s.callbacks

/-- `power_mgmt_service_apply_locked`, its event post included. -/
def applyRail (s : Service) (rail : Rail) (io : RebootIo) : Service × EspErr :=
  match applyLocked s rail io.answers with
  | (s, .returned err) => (s, err)
  | (s, .posting _) => (s, io.railPost rail)

/-- A turn of the loop of `power_mgmt_service_set_all_rails_off`. -/
def setRailOff (io : RebootIo) (acc : Service × EspErr) (rail : Rail) : Service × EspErr :=
  let r := acc.1.rails rail
  let (s, applyErr) :=
    applyRail (acc.1.set rail { r with override := .forceOff, refcount := 0 }) rail io
  (s, if acc.2 = .ok ∧ applyErr ≠ .ok then applyErr else acc.2)

/-- `power_mgmt_service_set_all_rails_off`. -/
def setAllRailsOff (io : RebootIo) (s : Service) : Service × EspErr :=
  [Rail.dac, .led].foldl (setRailOff io) (s, .ok)

/-- `power_mgmt_service_schedule_pending_action`. -/
def schedulePendingAction (s : State) (action : PendingAction) : EspErr × State :=
  if s.pending ≠ none then (.invalidState, s) else (.ok, { s with pending := some action })

structure Rebooted where
  err : EspErr
  state : State
  called : List (Entry × EspErr)

/-- `power_mgmt_service_reboot` and `power_mgmt_service_reboot_to_download`, which differ in
the action they schedule. -/
def rebootWith (action : PendingAction) (io : RebootIo) (s : State) : Rebooted :=
  let ran := runShutdownCallbacks io s
  if ran.err ≠ .ok then ⟨ran.err, { s with service := ran.service }, ran.called⟩
  else
    let (service, err) := setAllRailsOff io ran.service
    if err ≠ .ok then ⟨err, { s with service := service }, ran.called⟩
    else
      let (err, s) := schedulePendingAction { s with service := service } action
      ⟨err, s, ran.called⟩

def reboot : RebootIo → State → Rebooted := rebootWith .reboot

def rebootToDownload : RebootIo → State → Rebooted := rebootWith .download

/-- `power_mgmt_service_process_once`; after the restart nothing is left. -/
def processOnce (deadlineReached : Bool) (s : State) : State :=
  if s.pending ≠ none ∧ deadlineReached = true then initial else s

/-! ## The service's calls -/

inductive Action where
  | register (callback : Option Nat) (userCtx : Nat) (priority : Int)
  | reboot (io : RebootIo)
  | rebootToDownload (io : RebootIo)
  | processOnce (deadlineReached : Bool)
  /-- A call on a rail. -/
  | call (op : Op) (answers : Answers)
  | bind (channel : Nat) (prepareOff : Bool)

def step (s : State) : Action → Option State
  | .register callback userCtx priority =>
    some (registerShutdownCallback s callback userCtx priority).2
  | .reboot io => some (Shutdown.reboot io s).state
  | .rebootToDownload io => some (Shutdown.rebootToDownload io s).state
  | .processOnce deadlineReached => some (Shutdown.processOnce deadlineReached s)
  | .call op answers => some { s with service := (callLocked s.service answers op).1 }
  | .bind channel prepareOff =>
    some { s with service := bindDacI2sChannel s.service channel prepareOff }

end Jukeboy.Power.Shutdown
