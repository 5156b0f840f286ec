import Mathlib.Logic.Function.Basic
import Jukeboy.Base.EspErr
import Jukeboy.Base.Runs

/-! # The audio output switch

One dispatcher hands out PCM, and the switch registers it with the service of the
selected target. Every call into a service may fail; a call that fails has no effect.
What a service is told is what counts: its task does it in order. -/
namespace Jukeboy.Audio.OutputSwitch

open Jukeboy.Base Jukeboy.Base.Runs

/-! ## The services -/

/-- `audio_output_target_t`. -/
inductive Target where
  | bluetooth | i2s
deriving DecidableEq, Repr

/-- What a service was told: whether it has the dispatcher, and whether it plays. -/
structure Service where
  registered : Bool
  started : Bool
deriving DecidableEq, Repr

abbrev Services := Target → Service

namespace Services

variable (services : Services) (target : Target)

/-- `register_fn(audio_output_switch_dispatch_pcm, NULL)`, or with NULL. -/
def setRegistered (registered : Bool) : Services :=
  Function.update services target { services target with registered }

/-- `start_audio`, or `suspend_audio`. -/
def setStarted (started : Bool) : Services :=
  Function.update services target { services target with started }

end Services

/-! ## What the calls of an operation return -/

/-- The calls of `audio_output_switch_register_target`. -/
structure RegisterCalls where
  register : EspErr
  /-- `bluetooth_service_is_initialised() && bluetooth_service_is_a2dp_connected()`. -/
  connected : Bool
  start : EspErr
  /-- The `register_fn(NULL, NULL)` after a failure. -/
  undo : EspErr
deriving DecidableEq, Repr

/-- The calls of `audio_output_switch_select`. -/
structure SelectCalls where
  connected : Bool
  unregister : EspErr
  suspend : EspErr
  new : RegisterCalls
  rollback : RegisterCalls
deriving DecidableEq, Repr

/-! ## The switch -/

structure State where
  target : Target
  services : Services
  /-- An `audio_output_switch_set_provider` has succeeded. -/
  provided : Bool

def init : State where
  target := .i2s
  services _ := ⟨false, false⟩
  provided := false

/-- `audio_output_switch_unregister_target`. -/
def unregisterTarget (target : Target) (unregister suspend : EspErr) (services : Services) :
    Services × EspErr :=
  if unregister ≠ .ok then (services, unregister)
  else if suspend ≠ .ok then (services.setRegistered target false, suspend)
  else ((services.setRegistered target false).setStarted target false, .ok)

/-- `audio_output_switch_register_target` of a target that has a service. -/
def registerTarget (target : Target) (c : RegisterCalls) (services : Services) :
    Services × EspErr :=
  if c.register ≠ .ok then (services, c.register)
  else
    let registered := services.setRegistered target true
    let undone := if c.undo = .ok then registered.setRegistered target false else registered
    if target = .bluetooth ∧ ¬ c.connected then (undone, .invalidState)
    else if c.start ≠ .ok then (undone, c.start)
    else (registered.setStarted target true, .ok)

/-- `audio_output_switch_register_target`; a value that is no target has no service. -/
def registerAny (target : Option Target) (c : RegisterCalls) (services : Services) :
    Services × EspErr :=
  match target with
  | none => (services, .invalidArg)
  | some target => registerTarget target c services

/-- `audio_output_switch_set_provider`. -/
def setProvider (c : RegisterCalls) (s : State) : State × EspErr :=
  let (services, err) := registerTarget s.target c s.services
  ({ s with services, provided := s.provided || err = .ok }, err)

/-- `audio_output_switch_select`. -/
def select (target : Option Target) (c : SelectCalls) (s : State) : State × EspErr :=
  if target = some s.target then (s, .ok)
  else if target = some .bluetooth ∧ ¬ c.connected then (s, .invalidState)
  else
    let (services, err) := unregisterTarget s.target c.unregister c.suspend s.services
    if err ≠ .ok then ({ s with services }, err)
    else
      let (services, err) := registerAny target c.new services
      if err ≠ .ok then
        ({ s with services := (registerTarget s.target c.rollback services).1 }, err)
      else ({ s with target := target.getD s.target, services }, .ok)

/-- `esp_a2d_connection_state_t`. -/
inductive ConnectionState where
  | disconnected | connecting | connected | disconnecting
deriving DecidableEq, Repr

inductive Op where
  | setProvider (c : RegisterCalls)
  | select (target : Option Target) (c : SelectCalls)
  | btEvent (state : ConnectionState) (c : SelectCalls)
deriving DecidableEq, Repr

/-- The `audio_output_switch_select` an operation comes down to:
`audio_output_switch_on_bt_event` switches to and from Bluetooth. -/
def selection (s : State) : Op → Option (Option Target × SelectCalls)
  | .setProvider _ => none
  | .select target c => some (target, c)
  | .btEvent .connected c => if s.target ≠ .bluetooth then some (some .bluetooth, c) else none
  | .btEvent .disconnected c => if s.target = .bluetooth then some (some .i2s, c) else none
  | .btEvent _ _ => none

def step (s : State) (op : Op) : State × EspErr :=
  match op, selection s op with
  | .setProvider c, _ => setProvider c s
  | _, some (target, c) => select target c s
  | _, none => (s, .ok)

def next (s : State) (op : Op) : Option State := some (step s op).1

/-! ## Registering -/

variable {target previous : Target} {c : RegisterCalls} {services : Services} {s : State}

/-- The check of a target that only works connected. -/
def Connects (target : Target) (c : RegisterCalls) : Prop :=
  target = .bluetooth → c.connected = true

instance (target : Target) (c : RegisterCalls) : Decidable (Connects target c) :=
  inferInstanceAs (Decidable (_ → _))

/-- Every call that registering makes succeeds. -/
def Works (target : Target) (c : RegisterCalls) : Prop :=
  c.register = .ok ∧ Connects target c ∧ c.start = .ok

instance (target : Target) (c : RegisterCalls) : Decidable (Works target c) :=
  inferInstanceAs (Decidable (_ ∧ _))

/-- What a registration that fails leaves. -/
def leftover (target : Target) (c : RegisterCalls) (services : Services) : Services :=
  if c.register = .ok then services.setRegistered target (c.undo ≠ .ok) else services

theorem registerTarget_works (h : Works target c) :
    registerTarget target c services =
      ((services.setRegistered target true).setStarted target true, .ok) := by
  obtain ⟨hregister, hconnects, hstart⟩ := h
  have hready : ¬ (target = .bluetooth ∧ ¬ c.connected = true) := fun hbad =>
    hbad.2 (hconnects hbad.1)
  unfold registerTarget
  rw [if_neg (not_not.mpr hregister), if_neg hready, if_neg (not_not.mpr hstart)]

theorem registerTarget_fails (h : ¬ Works target c) :
    (registerTarget target c services).1 = leftover target c services ∧
      (registerTarget target c services).2 ≠ .ok := by
  unfold registerTarget leftover
  by_cases hregister : c.register = .ok
  · rw [if_neg (not_not.mpr hregister), if_pos hregister]
    have hundone : (if c.undo = .ok
        then (services.setRegistered target true).setRegistered target false
        else services.setRegistered target true) = services.setRegistered target (c.undo ≠ .ok) := by
      by_cases hundo : c.undo = .ok
      · simp [hundo, Services.setRegistered]
      · simp [hundo]
    dsimp only
    rw [hundone]
    by_cases hready : target = .bluetooth ∧ ¬ c.connected = true
    · rw [if_pos hready]
      exact ⟨rfl, fun h => by cases h⟩
    · have hstart : c.start ≠ .ok := fun hstart =>
        h ⟨hregister, fun hbt => by_contra fun hnot => hready ⟨hbt, hnot⟩, hstart⟩
      rw [if_neg hready, if_pos hstart]
      exact ⟨rfl, hstart⟩
  · rw [if_pos hregister, if_neg hregister]
    exact ⟨rfl, hregister⟩

/-! ## What the switch is for -/

/-- The dispatcher is registered with the service of the target, and with no other. -/
def Exclusive (s : State) : Prop := ∀ t, (s.services t).registered = decide (t = s.target)

/-- The selection is refused before any call is made. -/
def Refused (target : Option Target) (c : SelectCalls) : Prop :=
  target = some .bluetooth ∧ ¬ c.connected = true

instance (target : Option Target) (c : SelectCalls) : Decidable (Refused target c) :=
  inferInstanceAs (Decidable (_ ∧ _))

/-- The calls that a failing selection makes on the previous target succeed. -/
def PreviousWorks (s : State) (target : Option Target) (c : SelectCalls) : Prop :=
  Refused target c ∨ c.unregister = .ok ∧ c.suspend = .ok ∧ c.rollback.register = .ok ∧
    if Connects s.target c.rollback then c.rollback.start = .ok else c.rollback.undo = .ok

/-- Once there is a provider the operation leaves the dispatcher with the target alone,
and a selection that fails leaves the previous target registered and started. -/
structure Kept (s : State) (op : Op) : Prop where
  exclusive : (step s op).1.provided = true → Exclusive (step s op).1
  restored : ∀ target c, selection s op = some (target, c) → (step s op).2 ≠ .ok →
    PreviousWorks s target c →
      (step s op).1.target = s.target ∧ (step s op).1.services s.target = ⟨true, true⟩

/-! ## When it does that -/

/-- The target has the dispatcher after a registration that fails or not. -/
def Registers (target : Target) (c : RegisterCalls) : Prop :=
  c.register = .ok ∧ (Works target c ∨ c.undo ≠ .ok)

instance (target : Target) (c : RegisterCalls) : Decidable (Registers target c) :=
  inferInstanceAs (Decidable (_ ∧ _))

/-- The new target works, or it is not left with the dispatcher and the previous one is. -/
def Settles (previous : Target) (c : SelectCalls) : Option Target → Prop
  | some target => Works target c.new ∨ ¬ Registers target c.new ∧ Registers previous c.rollback
  | none => Registers previous c.rollback

instance (previous : Target) (c : SelectCalls) : ∀ target, Decidable (Settles previous c target)
  | some _ => inferInstanceAs (Decidable (_ ∨ _))
  | none => inferInstanceAs (Decidable (Registers _ _))

/-- A selection does not stop at a failing suspend, and settles. -/
def ExclusiveCondition (s : State) (target : Option Target) (c : SelectCalls) : Prop :=
  target ≠ some s.target → ¬ Refused target c → c.unregister = .ok →
    c.suspend = .ok ∧ Settles s.target c target

instance (s : State) (target : Option Target) (c : SelectCalls) :
    Decidable (ExclusiveCondition s target c) := inferInstanceAs (Decidable (_ → _))

/-- The target that was asked for works. -/
def NewWorks (target : Option Target) (c : SelectCalls) : Prop :=
  ∃ t, target = some t ∧ Works t c.new

/-- A selection that is refused finds the previous target playing; where another one fails,
the previous target is not a Bluetooth target that has lost its connection. -/
def RestoreCondition (s : State) (target : Option Target) (c : SelectCalls) : Prop :=
  target ≠ some s.target →
    if Refused target c then s.services s.target = ⟨true, true⟩
    else PreviousWorks s target c → NewWorks target c ∨ Connects s.target c.rollback

/-- The condition of an operation: `set_provider` does not undo the registration it
finds, or finds no other service with the dispatcher; a selection is as above. -/
def Condition (s : State) (op : Op) : Prop :=
  match op, selection s op with
  | .setProvider c, _ =>
    if s.provided then c.register = .ok → Registers s.target c
    else Works s.target c → ∀ t, t ≠ s.target → (s.services t).registered = false
  | _, some (target, c) =>
    (s.provided = true → ExclusiveCondition s target c) ∧ RestoreCondition s target c
  | _, none => True

/-! ## What the services are left with -/

theorem registered_setRegistered (services : Services) (target : Target) (registered : Bool)
    (t : Target) : (services.setRegistered target registered t).registered =
      if t = target then registered else (services t).registered := by
  unfold Services.setRegistered
  rw [Function.update_apply]
  split
  · rfl
  · rfl

theorem registered_setStarted (services : Services) (target : Target) (started : Bool)
    (t : Target) :
    (services.setStarted target started t).registered = (services t).registered := by
  unfold Services.setStarted
  rw [Function.update_apply]
  split
  · next h => rw [h]
  · rfl

theorem registered_registerTarget (target : Target) (c : RegisterCalls) (services : Services)
    (t : Target) : ((registerTarget target c services).1 t).registered =
      if t = target ∧ c.register = .ok then decide (Registers target c)
      else (services t).registered := by
  by_cases hworks : Works target c
  · have hregisters : Registers target c := ⟨hworks.1, .inl hworks⟩
    rw [registerTarget_works hworks, registered_setStarted, registered_setRegistered]
    simp [hworks.1, hregisters]
  · rw [(registerTarget_fails hworks).1, leftover]
    by_cases hregister : c.register = .ok
    · rw [if_pos hregister, registered_setRegistered]
      simp [hregister, Registers, hworks]
    · rw [if_neg hregister]
      simp [hregister]

/-- A service without the dispatcher has it afterwards when the registration leaves it. -/
theorem registered_of_unregistered (h : (services target).registered = false) :
    ((registerTarget target c services).1 target).registered = decide (Registers target c) := by
  rw [registered_registerTarget]
  by_cases hregister : c.register = .ok
  · rw [if_pos ⟨rfl, hregister⟩]
  · rw [if_neg fun hall => hregister hall.2, h]
    have hnot : ¬ Registers target c := fun hall => hregister hall.1
    simp [hnot]

theorem registered_other {t : Target} (h : t ≠ target) :
    ((registerTarget target c services).1 t).registered = (services t).registered := by
  rw [registered_registerTarget, if_neg fun hall => h hall.1]

/-! ## Selecting -/

variable {new : Option Target} {calls : SelectCalls}

/-- The services once the previous target is unregistered and suspended. -/
def released (s : State) : Services :=
  (s.services.setRegistered s.target false).setStarted s.target false

theorem registered_released (h : Exclusive s) (t : Target) :
    (released s t).registered = false := by
  rw [released, registered_setStarted, registered_setRegistered, h t]
  by_cases ht : t = s.target
  · rw [if_pos ht]
  · rw [if_neg ht]
    exact decide_eq_false ht

/-- What a selection does, by how far it gets. -/
inductive Selects (new : Option Target) (c : SelectCalls) (s : State) : State × EspErr → Prop
  | same (h : new = some s.target) : Selects new c s (s, .ok)
  | refused (h : new ≠ some s.target) (hrefused : Refused new c) :
      Selects new c s (s, .invalidState)
  | kept (h : new ≠ some s.target) (hgoes : ¬ Refused new c) (hfails : c.unregister ≠ .ok) :
      Selects new c s (s, c.unregister)
  | stopped (h : new ≠ some s.target) (hgoes : ¬ Refused new c) (hok : c.unregister = .ok)
      (hfails : c.suspend ≠ .ok) :
      Selects new c s ({ s with services := s.services.setRegistered s.target false }, c.suspend)
  | switched (t : Target) (hnew : new = some t) (h : t ≠ s.target) (hgoes : ¬ Refused new c)
      (hok : c.unregister = .ok) (hsuspend : c.suspend = .ok) (hworks : Works t c.new) :
      Selects new c s ({ s with
        target := t, services := ((released s).setRegistered t true).setStarted t true }, .ok)
  | rolledBack (err : EspErr) (h : new ≠ some s.target) (hgoes : ¬ Refused new c)
      (hok : c.unregister = .ok) (hsuspend : c.suspend = .ok) (herr : err ≠ .ok)
      (hfails : ∀ t, new = some t → ¬ Works t c.new) :
      Selects new c s ({ s with services :=
        (registerTarget s.target c.rollback (registerAny new c.new (released s)).1).1 }, err)

theorem select_selects (new : Option Target) (c : SelectCalls) (s : State) :
    Selects new c s (select new c s) := by
  unfold select
  by_cases hsame : new = some s.target
  · rw [if_pos hsame]
    exact .same hsame
  rw [if_neg hsame]
  by_cases hrefused : Refused new c
  · have hstops : new = some .bluetooth ∧ ¬ c.connected = true := hrefused
    rw [if_pos hstops]
    exact .refused hsame hrefused
  have hgoes : ¬ (new = some .bluetooth ∧ ¬ c.connected = true) := hrefused
  rw [if_neg hgoes, unregisterTarget]
  by_cases hunregister : c.unregister = .ok
  · rw [if_neg (not_not.mpr hunregister)]
    by_cases hsuspend : c.suspend = .ok
    · rw [if_neg (not_not.mpr hsuspend)]
      dsimp only
      rw [if_neg (not_not.mpr rfl)]
      change Selects new c s (if (registerAny new c.new (released s)).2 ≠ .ok then _ else _)
      by_cases hworks : ∃ t, new = some t ∧ Works t c.new
      · obtain ⟨t, rfl, hworks⟩ := hworks
        have hdone : registerTarget t c.new (released s) =
            (((released s).setRegistered t true).setStarted t true, .ok) :=
          registerTarget_works hworks
        change Selects _ c s (if (registerTarget t c.new (released s)).2 ≠ .ok then _ else
          ({ s with target := t, services := (registerTarget t c.new (released s)).1 }, .ok))
        rw [hdone, if_neg (not_not.mpr rfl)]
        exact .switched t rfl (fun h => hsame (congrArg some h)) hrefused hunregister hsuspend hworks
      · have hfails : ∀ t, new = some t → ¬ Works t c.new := fun t ht hw => hworks ⟨t, ht, hw⟩
        have herr : (registerAny new c.new (released s)).2 ≠ .ok := by
          cases new with
          | none =>
            intro h
            cases h
          | some t => exact (registerTarget_fails (hfails t rfl)).2
        rw [if_pos herr]
        exact .rolledBack _ hsame hrefused hunregister hsuspend herr hfails
    · rw [if_pos hsuspend]
      dsimp only
      rw [if_pos hsuspend]
      exact .stopped hsame hrefused hunregister hsuspend
  · rw [if_pos hunregister]
    dsimp only
    rw [if_pos hunregister]
    exact .kept hsame hrefused hunregister

/-! ## What an operation keeps -/

theorem exclusive_iff (s : State) : Exclusive s ↔
    (s.services s.target).registered = true ∧
      ∀ t, t ≠ s.target → (s.services t).registered = false := by
  constructor
  · intro h
    refine ⟨by rw [h s.target, decide_eq_true rfl], ?_⟩
    intro t ht
    rw [h t, decide_eq_false ht]
  · intro ⟨hself, hothers⟩ t
    by_cases ht : t = s.target
    · rw [ht, hself, decide_eq_true rfl]
    · rw [hothers t ht, decide_eq_false ht]

/-- Registering with the target leaves every other service as it was. -/
theorem exclusive_register (hs : s.services = (registerTarget s.target c services).1) :
    Exclusive s ↔
      (if c.register = .ok then Registers s.target c
        else (services s.target).registered = true) ∧
      ∀ t, t ≠ s.target → (services t).registered = false := by
  rw [exclusive_iff, hs, registered_registerTarget]
  refine and_congr ?_ ?_
  · by_cases hregister : c.register = .ok
    · rw [if_pos ⟨rfl, hregister⟩, if_pos hregister, decide_eq_true_iff]
    · rw [if_neg fun hall => hregister hall.2, if_neg hregister]
  · exact forall₂_congr fun t ht => by rw [registered_other ht]

/-- Registering with a target that does not have the dispatcher. -/
theorem exclusive_of_unregistered (hs : s.services = (registerTarget s.target c services).1)
    (hfree : (services s.target).registered = false) :
    Exclusive s ↔ Registers s.target c ∧ ∀ t, t ≠ s.target → (services t).registered = false := by
  rw [exclusive_register hs]
  refine and_congr_left fun _ => ?_
  by_cases hregister : c.register = .ok
  · rw [if_pos hregister]
  · rw [if_neg hregister, hfree]
    exact ⟨fun h => (by cases h), fun h => absurd h.1 hregister⟩

theorem eq_of_ne_of_ne {t u v : Target} (ht : t ≠ v) (hu : u ≠ v) : t = u := by
  cases t <;> cases u <;> cases v <;> first | rfl | exact absurd rfl ht | exact absurd rfl hu

/-- A rollback leaves the previous target alone with the dispatcher when it settles. -/
theorem exclusive_rolledBack (hexclusive : Exclusive s) (hnew : new ≠ some s.target)
    (hfails : ∀ t, new = some t → ¬ Works t calls.new) :
    Exclusive { s with services :=
      (registerTarget s.target calls.rollback (registerAny new calls.new (released s)).1).1 } ↔
      Settles s.target calls new := by
  have hreleased := registered_released hexclusive
  cases new with
  | none =>
    refine (exclusive_of_unregistered (s := { s with services :=
      (registerTarget s.target calls.rollback (released s)).1 }) rfl (hreleased s.target)).trans ?_
    exact ⟨fun h => h.1, fun h => ⟨h, fun t _ => hreleased t⟩⟩
  | some t =>
    have ht : t ≠ s.target := fun h => hnew (congrArg some h)
    have hself : ((registerTarget t calls.new (released s)).1 s.target).registered = false := by
      rw [registered_other ht.symm, hreleased]
    have hnewt := registered_of_unregistered (c := calls.new) (hreleased t)
    refine (exclusive_of_unregistered (s := { s with services :=
      (registerTarget s.target calls.rollback _).1 }) rfl hself).trans ?_
    constructor
    · intro ⟨hprevious, hothers⟩
      have hleft : decide (Registers t calls.new) = false := hnewt ▸ hothers t ht
      exact .inr ⟨of_decide_eq_false hleft, hprevious⟩
    · intro hsettles
      obtain ⟨hleft, hprevious⟩ := hsettles.resolve_left (hfails t rfl)
      refine ⟨hprevious, fun u hu => ?_⟩
      rw [eq_of_ne_of_ne hu ht]
      exact hnewt.trans (decide_eq_false hleft)

/-- The new selection leaves the dispatcher with one target. -/
theorem selects_exclusive {r : State × EspErr} (hexclusive : Exclusive s)
    (h : Selects new calls s r) : Exclusive r.1 ↔ ExclusiveCondition s new calls := by
  unfold ExclusiveCondition
  cases h with
  | same h => exact ⟨fun _ hnew => absurd h hnew, fun _ => hexclusive⟩
  | refused h hrefused => exact ⟨fun _ _ hgoes => absurd hrefused hgoes, fun _ => hexclusive⟩
  | kept h hgoes hfails => exact ⟨fun _ _ _ hok => absurd hok hfails, fun _ => hexclusive⟩
  | stopped h hgoes hok hfails =>
    constructor
    · intro hstopped
      have hself := ((exclusive_iff _).mp hstopped).1
      rw [registered_setRegistered, if_pos rfl] at hself
      exact absurd hself Bool.false_ne_true
    · intro hcond
      exact absurd (hcond h hgoes hok).1 hfails
  | switched t hnew h hgoes hok hsuspend hworks =>
    subst hnew
    refine ⟨fun _ _ _ _ => ⟨hsuspend, .inl hworks⟩, fun _ u => ?_⟩
    rw [registered_setStarted, registered_setRegistered]
    by_cases hu : u = t
    · rw [if_pos hu, decide_eq_true hu]
    · rw [if_neg hu, decide_eq_false hu, registered_released hexclusive]
  | rolledBack err h hgoes hok hsuspend herr hfails =>
    rw [exclusive_rolledBack hexclusive h hfails]
    exact ⟨fun hsettles _ _ _ => ⟨hsuspend, hsettles⟩, fun hcond => (hcond h hgoes hok).2⟩

/-- After a rollback with calls that succeed, the previous target plays exactly when it
is connected where that matters. -/
theorem restored_rolledBack (hgoes : ¬ Refused new calls) (hprevious : PreviousWorks s new calls) :
    (registerTarget s.target calls.rollback services).1 s.target = ⟨true, true⟩ ↔
      Connects s.target calls.rollback := by
  obtain ⟨-, -, hregister, hrest⟩ := hprevious.resolve_left hgoes
  by_cases hconnects : Connects s.target calls.rollback
  · rw [if_pos hconnects] at hrest
    rw [registerTarget_works ⟨hregister, hconnects, hrest⟩]
    simp [Services.setRegistered, Services.setStarted, hconnects]
  · rw [if_neg hconnects] at hrest
    rw [(registerTarget_fails fun hworks => hconnects hworks.2.1).1, leftover, if_pos hregister]
    simp [Services.setRegistered, hconnects, hrest]

/-- What a selection that fails leaves of the previous target. -/
theorem selects_restored {r : State × EspErr} (h : Selects new calls s r) :
    (r.2 ≠ .ok → PreviousWorks s new calls →
      r.1.target = s.target ∧ r.1.services s.target = ⟨true, true⟩) ↔
      RestoreCondition s new calls := by
  unfold RestoreCondition
  cases h with
  | same h => exact ⟨fun _ hnew => absurd h hnew, fun _ hok => absurd rfl hok⟩
  | refused h hrefused =>
    rw [if_pos hrefused]
    constructor
    · intro hrestored _
      exact (hrestored (fun h => by cases h) (.inl hrefused)).2
    · intro hplays _ _
      exact ⟨rfl, hplays h⟩
  | kept h hgoes hfails =>
    have hnot : ¬ PreviousWorks s new calls := fun hprevious =>
      hfails (hprevious.resolve_left hgoes).1
    rw [if_neg hgoes]
    exact ⟨fun _ _ hprevious => absurd hprevious hnot, fun _ _ hprevious => absurd hprevious hnot⟩
  | stopped h hgoes hok hfails =>
    have hnot : ¬ PreviousWorks s new calls := fun hprevious =>
      hfails (hprevious.resolve_left hgoes).2.1
    rw [if_neg hgoes]
    exact ⟨fun _ _ hprevious => absurd hprevious hnot, fun _ _ hprevious => absurd hprevious hnot⟩
  | switched t hnew h hgoes hok hsuspend hworks =>
    rw [if_neg hgoes]
    exact ⟨fun _ _ _ => .inl ⟨t, hnew, hworks⟩, fun _ hne => absurd rfl hne⟩
  | rolledBack err h hgoes hok hsuspend herr hfails =>
    have hnew : ¬ NewWorks new calls := fun ⟨t, ht, hworks⟩ => hfails t ht hworks
    rw [if_neg hgoes]
    constructor
    · intro hrestored _ hprevious
      exact .inr ((restored_rolledBack hgoes hprevious).mp (hrestored herr hprevious).2)
    · intro hcond _ hprevious
      have hconnects := (hcond h hprevious).resolve_left hnew
      exact ⟨rfl, (restored_rolledBack hgoes hprevious).mpr hconnects⟩

theorem select_provided (new : Option Target) (calls : SelectCalls) (s : State) :
    (select new calls s).1.provided = s.provided := by
  have h := select_selects new calls s
  generalize select new calls s = r at h ⊢
  cases h with
  | same => rfl
  | refused => rfl
  | kept => rfl
  | stopped => rfl
  | switched => rfl
  | rolledBack => rfl

theorem setProvider_provided (c : RegisterCalls) (s : State) :
    (setProvider c s).1.provided = (s.provided || decide (Works s.target c)) := by
  unfold setProvider
  by_cases hworks : Works s.target c
  · rw [registerTarget_works hworks, decide_eq_true hworks]
    rfl
  · have hfails : (registerTarget s.target c s.services).2 ≠ .ok := (registerTarget_fails hworks).2
    show (s.provided || decide ((registerTarget s.target c s.services).2 = .ok)) = _
    rw [decide_eq_false hfails, decide_eq_false hworks]

/-- Nothing is asked before there is a provider. -/
def Provided (s : State) : Prop := s.provided = true → Exclusive s

theorem setProvider_kept (hI : Provided s) (c : RegisterCalls) :
    ((setProvider c s).1.provided = true → Exclusive (setProvider c s).1) ↔
      Condition s (.setProvider c) := by
  rw [setProvider_provided]
  have hexclusive : Exclusive (setProvider c s).1 ↔ _ :=
    exclusive_register (s := (setProvider c s).1) rfl
  rw [hexclusive]
  show _ ↔ if s.provided then _ else _
  by_cases hprovided : s.provided = true
  · obtain ⟨hself, hothers⟩ := (exclusive_iff s).mp (hI hprovided)
    rw [if_pos hprovided, hprovided, Bool.true_or]
    constructor
    · intro h hregister
      have hboth := (h rfl).1
      rwa [if_pos hregister] at hboth
    · intro h _
      refine ⟨?_, hothers⟩
      by_cases hregister : c.register = .ok
      · rw [if_pos hregister]
        exact h hregister
      · rw [if_neg hregister]
        exact hself
  · have hnot : s.provided = false := Bool.eq_false_iff.mpr hprovided
    rw [if_neg hprovided, hnot, Bool.false_or, decide_eq_true_iff]
    refine forall_congr' fun hworks => ?_
    rw [if_pos hworks.1]
    exact ⟨fun h => h.2, fun h => ⟨⟨hworks.1, .inl hworks⟩, h⟩⟩

/-- An operation that is not `set_provider` selects, or does nothing. -/
theorem step_cases (s : State) (op : Op) :
    (∃ c, op = .setProvider c) ∨
    (∃ new c, selection s op = some (new, c) ∧ step s op = select new c s ∧
      (Condition s op ↔
        (s.provided = true → ExclusiveCondition s new c) ∧ RestoreCondition s new c)) ∨
    (selection s op = none ∧ step s op = (s, .ok) ∧ Condition s op) := by
  cases op with
  | setProvider c => exact .inl ⟨c, rfl⟩
  | select new c => exact .inr (.inl ⟨new, c, rfl, rfl, Iff.rfl⟩)
  | btEvent state c =>
    cases h : selection s (.btEvent state c) with
    | none => exact .inr (.inr ⟨rfl, by simp only [step, h], by simp only [Condition, h]⟩)
    | some sel =>
      obtain ⟨new, calls⟩ := sel
      exact .inr (.inl ⟨new, calls, rfl, by simp only [step, h], by simp only [Condition, h]⟩)

theorem kept_iff (hI : Provided s) (op : Op) : Kept s op ↔ Condition s op := by
  obtain ⟨c, rfl⟩ | ⟨new, c, hsel, hstep, hcond⟩ | ⟨hsel, hstep, hcond⟩ := step_cases s op
  · rw [← setProvider_kept hI c]
    constructor
    · intro h
      exact h.exclusive
    · intro h
      constructor
      · exact h
      · intro target calls hsel
        exact absurd hsel (Option.some_ne_none (target, calls)).symm
  · have hselects := select_selects new c s
    rw [hcond, ← selects_restored hselects]
    constructor
    · intro hkept
      refine ⟨fun hprovided => ?_, ?_⟩
      · rw [← selects_exclusive (hI hprovided) hselects, ← hstep]
        refine hkept.exclusive ?_
        rw [hstep, select_provided, hprovided]
      · rw [← hstep]
        exact hkept.restored new c hsel
    · intro ⟨hexclusive, hrestored⟩
      constructor
      · rw [hstep, select_provided]
        intro hprovided
        exact (selects_exclusive (hI hprovided) hselects).mpr (hexclusive hprovided)
      · intro target calls hsel'
        rw [hsel, Option.some.injEq, Prod.mk.injEq] at hsel'
        rw [← hsel'.1, ← hsel'.2, hstep]
        exact hrestored
  · refine ⟨fun _ => hcond, fun _ => ⟨?_, ?_⟩⟩
    · rw [hstep]
      exact hI
    · intro target c hsel'
      rw [hsel] at hsel'
      cases hsel'

/-- **One sink.** Every operation leaves the dispatcher with the target alone, and a
selection that fails leaves the previous target playing, as long as every operation
meets the condition. -/
theorem one_sink (ops : List Op) : Along next Kept init ops ↔ Along next Condition init ops := by
  refine along_congr (I := Provided) ?_ (fun s op hI => kept_iff hI op) (fun h => by cases h)
  intro s op t _ hkept hnext
  rw [next, Option.some.injEq] at hnext
  rw [← hnext]
  exact hkept.exclusive

/-- The output runs on I2S, a headset connects, and the I2S service is unregistered but
cannot be suspended: no service has the dispatcher. -/
def suspendFails : List Op :=
  let works : RegisterCalls := ⟨.ok, true, .ok, .ok⟩
  [.setProvider works, .btEvent .connected ⟨true, .ok, .noMem, works, works⟩]

theorem no_sink : ¬ Along next Kept init suspendFails := by
  intro h
  have hkept := (h.2 _ rfl).1.exclusive rfl .i2s
  revert hkept
  decide +kernel

end Jukeboy.Audio.OutputSwitch
