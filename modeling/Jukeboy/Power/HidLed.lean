import Jukeboy.Power.Rails

/-! # The LED of the HID service

The HID service requests the LED rail when a colour is to be shown and releases it when
none is, and keeps in a flag of its own whether it has requested the rail. Its calls are
made under its own lock; the other clients of the rails come in between. The pixels, and
what the calls of the service return, are left out. -/
namespace Jukeboy.Power.HidLed

open Jukeboy.Base Jukeboy.Power.Rails

/-- The `s_led_` variables. -/
structure Led where
  red : UInt8
  green : UInt8
  blue : UInt8
  brightness : UInt8
  railRequested : Bool
deriving DecidableEq, Repr

structure State where
  power : Rails.State
  led : Led

/-- After `hid_service_init`, which has made the LED strip. -/
def initial : State := ⟨Rails.initial, ⟨0, 0, 0, 100, false⟩⟩

def Led.shouldEnable (led : Led) : Bool :=
  decide (led.brightness > 0) && (led.red != 0 || led.green != 0 || led.blue != 0)

/-- The call on the LED rail that `hid_service_apply_led_locked` makes; `clear` is what
`led_strip_clear` returns. -/
def Led.railCall (led : Led) (clear : EspErr) : Option Op :=
  if led.shouldEnable && !led.railRequested then some (.request .led)
  else if led.shouldEnable then none
  else if clear ≠ .ok then none
  else if led.railRequested then some (.release .led)
  else none

/-- `hid_service_apply_led_locked` past its call on the LED rail. -/
def Led.resume (led : Led) (op : Op) (err : EspErr) : Led :=
  if err ≠ .ok then led
  else { led with railRequested := decide (op = .request .led) }

/-- The lock of the HID service is taken, for a call that is in its event post. -/
def State.busy (s : State) : Bool := s.power.calls.any fun c => c.client == .hid

/-- `hid_service_apply_led_locked`, up to the event of its call on the LED rail. -/
def applyLedLocked (s : State) (clear : EspErr) (answers : Answers) : State :=
  match s.led.railCall clear with
  | none => s
  | some op =>
    match Rails.call s.power .hid op answers with
    | (power, none) => { s with power := power }
    | (power, some err) => { power := power, led := s.led.resume op err }

/-- `hid_service_led_set_rgb`. -/
def ledSetRgb (s : State) (red green blue : UInt8) (clear : EspErr) (answers : Answers) : State :=
  applyLedLocked { s with led := { s.led with red := red, green := green, blue := blue } }
    clear answers

/-- `hid_service_led_set_brightness`. -/
def ledSetBrightness (s : State) (percent : UInt8) (clear : EspErr) (answers : Answers) : State :=
  if ¬ percent ≤ 100 then s
  else applyLedLocked { s with led := { s.led with brightness := percent } } clear answers

/-- `hid_service_led_off`. -/
def ledOff (s : State) (clear : EspErr) (answers : Answers) : State :=
  ledSetRgb s 0 0 0 clear answers

inductive Action where
  | ledSetRgb (red green blue : UInt8) (clear : EspErr) (answers : Answers)
  | ledSetBrightness (percent : UInt8) (clear : EspErr) (answers : Answers)
  | ledOff (clear : EspErr) (answers : Answers)
  /-- A call of another client. -/
  | call (task : Nat) (op : Op) (answers : Answers)
  /-- A call posts its event and returns. -/
  | post (index : Nat) (err : EspErr)
  | bind (channel : Nat) (prepareOff : Bool)

/-- A call of another client, of the HID service, or the rest of one. -/
def step (s : State) : Action → Option State
  | .ledSetRgb red green blue clear answers =>
    if s.busy then none else some (HidLed.ledSetRgb s red green blue clear answers)
  | .ledSetBrightness percent clear answers =>
    if s.busy then none else some (HidLed.ledSetBrightness s percent clear answers)
  | .ledOff clear answers => if s.busy then none else some (HidLed.ledOff s clear answers)
  | .call task op answers =>
    some { s with power := (Rails.call s.power (.other task) op answers).1 }
  | .post index err => s.power.calls[index]?.map fun c => {
      power := Rails.post s.power index c err
      led := if c.client = .hid then s.led.resume c.op err else s.led }
  | .bind channel prepareOff =>
    some { s with power := { s.power with
      service := bindDacI2sChannel s.power.service channel prepareOff } }

end Jukeboy.Power.HidLed
