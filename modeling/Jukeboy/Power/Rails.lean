import Mathlib.Algebra.GroupWithZero.Nat
import Mathlib.Logic.Function.Basic
import Jukeboy.Base.EspErr
import Jukeboy.Base.Runs

/-! # The power rails

A rail is on while it is requested, unless an override says otherwise. A call changes the
count or the override and applies the rail under the service lock; it gives the lock back
while it posts the rail's event, so that other calls come in between. -/
namespace Jukeboy.Power.Rails

open Jukeboy.Base

/-- `power_mgmt_rail_t`. -/
inductive Rail where
  | dac
  | led
deriving DecidableEq, Repr

/-- `power_mgmt_rail_override_t`. -/
inductive Override where
  | auto
  | forceOn
  | forceOff
deriving DecidableEq, Repr

/-- An entry of `s_rail_refcount`, `s_rail_override` and `s_rail_enabled`. -/
structure RailState where
  refcount : Nat
  override : Override
  enabled : Bool
deriving DecidableEq, Repr

/-- The rails, the bound I2S channel and whether there is a `s_dac_prepare_off_callback`. -/
structure Service where
  rails : Rail → RailState
  dacI2sChannel : Option Nat
  dacPrepareOff : Bool

/-- After `power_mgmt_service_init`. -/
def initialService : Service where
  rails _ := ⟨0, .auto, false⟩
  dacI2sChannel := none
  dacPrepareOff := false

/-- A `size_t` counts up to here. -/
def sizeLimit : Nat := 2 ^ 32

namespace Service

variable (s : Service)

def set (rail : Rail) (state : RailState) : Service :=
  { s with rails := Function.update s.rails rail state }

@[simp] theorem set_same (rail : Rail) (state : RailState) :
    (s.set rail state).rails rail = state := Function.update_self ..

@[simp] theorem set_other {rail other : Rail} (h : other ≠ rail) (state : RailState) :
    (s.set rail state).rails other = s.rails other := Function.update_of_ne h ..

def setEnabled (rail : Rail) (enabled : Bool) : Service :=
  s.set rail { s.rails rail with enabled := enabled }

end Service

/-! ## Applying a rail -/

inductive DacPin where
  | bclk
  | ws
  | data
deriving DecidableEq, Repr

/-- The calls out of the service that can fail while a rail is applied. -/
inductive SubCall where
  | gateLevel (rail : Rail) (level : Nat)
  | muteOutput
  | muteLevel
  | muteDisabled
  | i2sPins (connected : Bool)
  | prepareOff
  | pinDisabled (pin : DacPin)
deriving DecidableEq, Repr

abbrev Answers := SubCall → EspErr

/-- Calls made one after the other until one fails. -/
def firstError (answers : Answers) : List SubCall → EspErr
  | [] => .ok
  | c :: calls => if answers c ≠ .ok then answers c else firstError answers calls

theorem firstError_eq_ok {answers : Answers} {calls : List SubCall} :
    firstError answers calls = .ok ↔ ∀ c ∈ calls, answers c = .ok := by
  induction calls with
  | nil => simp [firstError]
  | cons c calls ih =>
    rw [firstError, List.forall_mem_cons]
    split
    · next hne => exact ⟨fun h => absurd h hne, fun h => absurd h.1 hne⟩
    · next heq => rw [ih, and_iff_right (not_not.mp heq)]

/-- `power_mgmt_service_effective_enabled`. -/
def effectiveEnabled (r : RailState) : Bool :=
  match r.override with
  | .forceOn => true
  | .forceOff => false
  | .auto => decide (r.refcount > 0)

/-- `power_mgmt_service_configure_dac_mute_locked`. -/
def configureDacMuteLocked (enabled : Bool) : List SubCall :=
  if !enabled then [.muteDisabled] else [.muteOutput, .muteLevel]

/-- `power_mgmt_service_reconfig_dac_i2s_gpio_locked`. -/
def reconfigDacI2sGpioLocked (s : Service) (enabled : Bool) : List SubCall :=
  if s.dacI2sChannel.isNone then [] else [.i2sPins enabled]

/-- `power_mgmt_service_apply_dac_pin_state_locked`. -/
def applyDacPinStateLocked (s : Service) (enabled : Bool) : List SubCall :=
  if enabled then
    [.gateLevel .dac 0] ++ configureDacMuteLocked true ++ reconfigDacI2sGpioLocked s true
  else
    configureDacMuteLocked true ++ (if s.dacPrepareOff then [.prepareOff] else []) ++
      reconfigDacI2sGpioLocked s false ++
      [.pinDisabled .bclk, .pinDisabled .ws, .pinDisabled .data] ++
      configureDacMuteLocked false ++ [.gateLevel .dac 1]

/-- The calls that switch a rail in `power_mgmt_service_apply_locked`. -/
def switchCalls (s : Service) (rail : Rail) (enabled : Bool) : List SubCall :=
  match rail with
  | .dac => applyDacPinStateLocked s enabled
  | .led => [.gateLevel .led (if enabled then 0 else 1)]

/-- Where `power_mgmt_service_apply_locked` is when it lets go of the lock: it returns, or
it is about to post `RAIL_ON` or `RAIL_OFF`. -/
inductive Applied where
  | returned (err : EspErr)
  | posting (enabled : Bool)
deriving DecidableEq, Repr

/-- `power_mgmt_service_apply_locked` up to its event. -/
def applyLocked (s : Service) (rail : Rail) (answers : Answers) : Service × Applied :=
  let enabled := effectiveEnabled (s.rails rail)
  if enabled = (s.rails rail).enabled then (s, .returned .ok)
  else
    let err := firstError answers (switchCalls s rail enabled)
    if err ≠ .ok then (s, .returned err) else (s.setEnabled rail enabled, .posting enabled)

/-! ## The calls -/

/-- `power_mgmt_service_rail_request`. -/
def railRequest (s : Service) (rail : Rail) (answers : Answers) : Service × Applied :=
  let r := s.rails rail
  applyLocked (s.set rail { r with refcount := (r.refcount + 1) % sizeLimit }) rail answers

/-- `power_mgmt_service_rail_release`. -/
def railRelease (s : Service) (rail : Rail) (answers : Answers) : Service × Applied :=
  let r := s.rails rail
  if r.refcount = 0 then (s, .returned .invalidState)
  else applyLocked (s.set rail { r with refcount := r.refcount - 1 }) rail answers

/-- `power_mgmt_service_rail_set_override`. -/
def railSetOverride (s : Service) (rail : Rail) (mode : Override) (answers : Answers) :
    Service × Applied :=
  applyLocked (s.set rail { s.rails rail with override := mode }) rail answers

/-- `power_mgmt_service_bind_dac_i2s_channel`. -/
def bindDacI2sChannel (s : Service) (channel : Nat) (prepareOff : Bool) : Service :=
  if s.dacI2sChannel ≠ none ∧ s.dacI2sChannel ≠ some channel then s
  else { s with dacI2sChannel := some channel, dacPrepareOff := prepareOff }

inductive Op where
  | request (rail : Rail)
  | release (rail : Rail)
  | setOverride (rail : Rail) (mode : Override)
deriving DecidableEq, Repr

def Op.rail : Op → Rail
  | .request rail => rail
  | .release rail => rail
  | .setOverride rail _ => rail

def callLocked (s : Service) (answers : Answers) : Op → Service × Applied
  | .request rail => railRequest s rail answers
  | .release rail => railRelease s rail answers
  | .setOverride rail mode => railSetOverride s rail mode answers

/-- What an operation makes of the count and the override of its rail. -/
def Op.change (op : Op) (r : RailState) : RailState :=
  match op with
  | .request _ => { r with refcount := (r.refcount + 1) % sizeLimit }
  | .release _ => { r with refcount := r.refcount - 1 }
  | .setOverride _ mode => { r with override := mode }

theorem switchCalls_set (s : Service) (rail other : Rail) (state : RailState) (enabled : Bool) :
    switchCalls (s.set rail state) other enabled = switchCalls s other enabled := rfl

/-- A release of a rail that is not requested does nothing; every other operation makes its
change and applies the rail. -/
theorem callLocked_eq (s : Service) (answers : Answers) (op : Op) :
    callLocked s answers op =
      if op = .release op.rail ∧ (s.rails op.rail).refcount = 0 then (s, .returned .invalidState)
      else applyLocked (s.set op.rail (op.change (s.rails op.rail))) op.rail answers := by
  cases op with
  | request rail => simp [callLocked, railRequest, Op.rail, Op.change]
  | release rail => simp [callLocked, railRelease, Op.rail, Op.change]
  | setOverride rail mode => simp [callLocked, railSetOverride, Op.rail, Op.change]

/-! ## The calls of several tasks -/

inductive Client where
  | hid
  | other (task : Nat)
deriving DecidableEq, Repr

/-- A call that is in its event post. `changed` says whether it has changed the count or the
override of its rail, which the code does not keep. -/
structure Call where
  client : Client
  op : Op
  enabled : Bool
  changed : Bool
deriving DecidableEq, Repr

/-- A call that has returned. -/
structure Returned where
  client : Client
  op : Op
  err : EspErr
  changed : Bool
deriving DecidableEq, Repr

/-- `calls` stand in the order in which they switched their rails. `posted` holds the
events, true for `RAIL_ON`, and `returned` the calls that are over; the code keeps neither. -/
structure State where
  service : Service
  calls : List Call
  posted : List (Rail × Bool)
  returned : List Returned

def initial : State := ⟨initialService, [], [], []⟩

/-- The call has changed the count or the override of its rail. -/
def changedBy (op : Op) (before after : Service) : Bool :=
  (before.rails op.rail).refcount != (after.rails op.rail).refcount ||
    (before.rails op.rail).override != (after.rails op.rail).override

/-- A call up to its event, with what it returns when it posts none. -/
def call (s : State) (client : Client) (op : Op) (answers : Answers) : State × Option EspErr :=
  let (service, applied) := callLocked s.service answers op
  let changed := changedBy op s.service service
  match applied with
  | .returned err =>
    ({ s with service := service, returned := s.returned ++ [⟨client, op, err, changed⟩] },
      some err)
  | .posting enabled =>
    ({ s with service := service, calls := s.calls ++ [⟨client, op, enabled, changed⟩] }, none)

theorem call_of_returned {s : State} {client : Client} {op : Op} {answers : Answers}
    {service : Service} {err : EspErr}
    (h : callLocked s.service answers op = (service, .returned err)) :
    call s client op answers =
      ({ s with
        service := service
        returned := s.returned ++ [⟨client, op, err, changedBy op s.service service⟩] },
        some err) := by
  rw [call, h]

theorem call_of_posting {s : State} {client : Client} {op : Op} {answers : Answers}
    {service : Service} {enabled : Bool}
    (h : callLocked s.service answers op = (service, .posting enabled)) :
    call s client op answers =
      ({ s with
        service := service
        calls := s.calls ++ [⟨client, op, enabled, changedBy op s.service service⟩] },
        none) := by
  rw [call, h]

/-- A call posts its event, with the answer `err`, and returns. -/
def post (s : State) (index : Nat) (c : Call) (err : EspErr) : State :=
  { s with
    calls := s.calls.eraseIdx index
    posted := if err = .ok then s.posted ++ [(c.op.rail, c.enabled)] else s.posted
    returned := s.returned ++ [⟨c.client, c.op, err, c.changed⟩] }

/-- The calls under way, around the one that posts. -/
theorem calls_around {s : State} {index : Nat} {c : Call} (h : s.calls[index]? = some c) :
    s.calls = s.calls.take index ++ c :: s.calls.drop (index + 1) := by
  obtain ⟨hlt, hget⟩ := List.getElem?_eq_some_iff.mp h
  rw [← hget, List.getElem_cons_drop, List.take_append_drop]

inductive Action where
  | call (client : Client) (op : Op) (answers : Answers)
  | post (index : Nat) (err : EspErr)
  | bind (channel : Nat) (prepareOff : Bool)

def step (s : State) : Action → Option State
  | .call client op answers => some (call s client op answers).1
  | .post index err => s.calls[index]?.map fun c => post s index c err
  | .bind channel prepareOff =>
    some { s with service := bindDacI2sChannel s.service channel prepareOff }

end Jukeboy.Power.Rails
