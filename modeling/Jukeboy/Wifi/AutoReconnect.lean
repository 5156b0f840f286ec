import Jukeboy.Wifi.Handlers

/-! # Auto-reconnect while the link is down

The service with its queue. Something has to bring the service back to the link:
the reconnect timer, or a message in the queue. A connect command stops the timer
before it can fail, the end of a scan leaves the timer as it is, and a failed
connection at boot starts none. -/
namespace Jukeboy.Wifi.AutoReconnect

open Jukeboy.Base Jukeboy.Base.Runs Jukeboy.CompanionApi.Tlv
open Jukeboy.Wifi.Service
open Jukeboy.Wifi.Slots (ServiceState)

/-! ## The service and its queue -/

/-- The service, `s_cmd_queue`, and whether the last connection command processed
was the user's disconnect. -/
structure System where
  service : State
  queue : List Msg
  userDisconnected : Bool

/-- A message is queued, the first message is handled, or a slot is saved. -/
inductive Action where
  | post (msg : Msg)
  | handle (env : Env)
  | save (env : Slots.Env) (index : UInt8) (ssid password : Bytes)

/-- Connect commands and the reconnect of the user end what a disconnect began. -/
def userDisconnectedAfter (user : Bool) : Msg → Bool
  | .disconnect => true
  | .connectSlot _ | .reconnectNow => false
  | _ => user

/-- Only a timer that runs queues a tick. -/
def step (s : System) : Action → Option System
  | .post msg =>
    if msg = .reconnectTimer ∧ s.service.timerRunning = false then none
    else some { s with queue := s.queue ++ [msg] }
  | .handle env =>
    match s.queue with
    | [] => none
    | msg :: rest => some {
        service := processCmd env msg s.service
        queue := rest
        userDisconnected := userDisconnectedAfter s.userDisconnected msg }
  | .save env index ssid password =>
    some { s with service := saveSlot env index ssid password s.service }

/-- The service once `wifi_service_init` has returned. -/
def boot (nvs : Nvs) (env : Env) : System := ⟨init nvs env, [], false⟩

/-! ## What is claimed, and when it holds -/

/-- A message that leads to a connection attempt. -/
def wakes : Msg → Bool
  | .reconnectTimer | .reconnectNow | .connectSlot _ => true
  | _ => false

/-- Auto-reconnect has the link to bring back. -/
def Waiting (s : System) : Prop :=
  s.service.autoreconnect = true ∧ s.userDisconnected = false ∧
    (s.service.state = .idle ∨ s.service.state = .disconnected)

/-- Something will bring the service back to the link. -/
def Awake (s : System) : Prop := s.service.timerRunning = true ∨ s.queue.any wakes = true

def Watched (s : System) : Prop := Waiting s → Awake s

/-- At boot, auto-reconnect is off or a slot works. -/
def Booted (nvs : Nvs) (env : Env) : Prop :=
  nvsLoadAutoreconnect nvs = true →
    (buildReconnectOrder env (started nvs)).any (works env (started nvs)) = true

/-- What handling the message must not do: fail a connect command while
auto-reconnect is on and nothing else is left to wake the service (the timer is left
running only if the credentials do not load or do not fit), or end a scan with
nothing to wake it. -/
def Rearms (env : Env) (rest : List Msg) (s : System) : Msg → Prop
  | .connectSlot index => s.service.autoreconnect = true →
      works env s.service index = true ∨ rest.any wakes = true ∨
        s.service.timerRunning = true ∧ credentials (env.slot index) index s.service = none
  | .evtScanDone => s.service.state = .scanning → s.service.autoreconnect = true →
      s.userDisconnected = false → s.service.timerRunning = true ∨ rest.any wakes = true
  | _ => True

def Rearmed (s : System) : Action → Prop
  | .handle env =>
    match s.queue with
    | [] => True
    | msg :: rest => Rearms env rest s msg
  | _ => True

instance (s : System) : Decidable (Watched s) :=
  inferInstanceAs (Decidable (_ ∧ _ ∧ (_ ∨ _) → _ ∨ _))

instance (nvs : Nvs) (env : Env) : Decidable (Booted nvs env) :=
  inferInstanceAs (Decidable (_ → _))

instance (env : Env) (rest : List Msg) (s : System) : ∀ msg, Decidable (Rearms env rest s msg)
  | .connectSlot _ => inferInstanceAs (Decidable (_ → _ ∨ _ ∨ _ ∧ _))
  | .evtScanDone => inferInstanceAs (Decidable (_ → _ → _ → _ ∨ _))
  | .disconnect | .scan | .setAutoreconnect _ | .reconnectTimer | .reconnectNow
  | .evtDisconnected _ | .evtGotIp _ | .evtConnectivityOk | .evtConnectivityFailed => .isTrue trivial

instance (s : System) : ∀ a, Decidable (Rearmed s a)
  | .handle env =>
    match h : s.queue with
    | [] => .isTrue (by unfold Rearmed; rw [h]; trivial)
    | msg :: rest =>
      decidable_of_iff (Rearms env rest s msg) (by unfold Rearmed; rw [h])
  | .post _ | .save .. => .isTrue trivial

/-! ## One message -/

variable {s t : System} {env : Env} {msg : Msg} {rest : List Msg}

theorem watched_of_connected {user : Bool} {u : State} (h : u.state = .connected) :
    Watched ⟨u, rest, user⟩ := by
  rintro ⟨-, -, hidle | hdown⟩
  · cases h.symm.trans hidle
  · cases h.symm.trans hdown

theorem watched_of_connecting {user : Bool} {u : State} (h : u.state = .connecting) :
    Watched ⟨u, rest, user⟩ := by
  rintro ⟨-, -, hidle | hdown⟩
  · cases h.symm.trans hidle
  · cases h.symm.trans hdown

theorem watched_of_linked {user : Bool} {u : State} (h : u.linked = true) :
    Watched ⟨u, rest, user⟩ := by
  unfold State.linked at h
  rw [Bool.or_eq_true, beq_iff_eq, beq_iff_eq] at h
  rcases h with h | h
  · exact watched_of_connected h
  · exact watched_of_connecting h

/-- A message that wakes nothing and leaves what is looked at leaves the service watched. -/
theorem watched_of_same {u : State} (hs : Watched s) (hqueue : s.queue = msg :: rest)
    (hmsg : wakes msg = false) (hauto : u.autoreconnect = s.service.autoreconnect)
    (hstate : u.state = s.service.state) (htimer : u.timerRunning = s.service.timerRunning) :
    Watched ⟨u, rest, s.userDisconnected⟩ := by
  rintro ⟨hon, huser, hdown⟩
  have hawake := hs ⟨hauto.symm.trans hon, huser, hstate ▸ hdown⟩
  unfold Awake at hawake ⊢
  rw [hqueue, List.any_cons, hmsg, Bool.false_or] at hawake
  rw [htimer]
  exact hawake

theorem watched_reconnect {now user : Bool} :
    Watched ⟨processReconnect env now s.service, rest, user⟩ := by
  rcases processReconnect_cases env now s.service with ⟨hidle, heq⟩ | ⟨-, h⟩
  · rw [heq]
    cases hlinked : s.service.linked with
    | true => exact watched_of_linked hlinked
    | false =>
      -- the link is down, so auto-reconnect is off
      unfold acts at hidle
      rw [hlinked, Bool.not_false, Bool.true_and, Bool.or_eq_false_iff] at hidle
      exact fun hwaiting => by cases hidle.2.symm.trans hwaiting.1
  · cases hworks : (buildReconnectOrder env s.service).any (works env s.service) with
    | true => exact watched_of_connecting (h.succeeds hworks).1
    | false => exact fun hwaiting => .inl ((h.fails hworks).2.2.2.2 hwaiting.1)

theorem watched_connectSlot {index : UInt8} :
    Watched ⟨processConnectSlot env index s.service, rest, false⟩ ↔
      Rearms env rest s (.connectSlot index) := by
  cases hworks : works env s.service index with
  | true =>
    obtain ⟨found, heq⟩ := processConnectSlot_works hworks
    rw [heq]
    exact ⟨fun _ _ => .inl hworks, fun _ => watched_of_connecting rfl⟩
  | false =>
    obtain ⟨hkept, hdown, -, -, htimer⟩ := processConnectSlot_fails hworks
    have hauto : (processConnectSlot env index s.service).autoreconnect = s.service.autoreconnect :=
      congrArg (·.2.2.2) hkept
    generalize processConnectSlot env index s.service = u at hdown htimer hauto ⊢
    have hstopped : u.timerRunning = true ↔
        s.service.timerRunning = true ∧ credentials (env.slot index) index s.service = none := by
      rw [htimer, ← Option.isSome_eq_false_iff.trans Option.isNone_iff_eq_none]
      cases (credentials (env.slot index) index s.service).isSome with
      | true => simp
      | false => simp
    have hwatched : Watched ⟨u, rest, false⟩ ↔ (s.service.autoreconnect = true →
        (s.service.timerRunning = true ∧ credentials (env.slot index) index s.service = none) ∨
          rest.any wakes = true) := by
      unfold Watched Waiting Awake
      simp only [hauto, hdown, hstopped, or_true, and_true]
    rw [hwatched]
    unfold Rearms
    dsimp only
    rw [hworks]
    exact forall_congr' fun _ => ⟨fun h => .inr h.symm, fun h => (h.resolve_left
      (fun h => by cases h)).symm⟩

theorem watched_scanDone (hs : Watched s) (hqueue : s.queue = .evtScanDone :: rest) :
    Watched ⟨processScanDone env s.service, rest, s.userDisconnected⟩ ↔
      Rearms env rest s .evtScanDone := by
  obtain ⟨results, posted, heq⟩ := processScanDone_eq env s.service
  by_cases hscanning : s.service.state = .scanning
  · rw [if_pos hscanning] at heq
    rw [heq]
    unfold Watched Waiting Awake Rearms
    dsimp only
    exact ⟨fun h _ hauto huser => h ⟨hauto, huser, .inr rfl⟩,
      fun h hwaiting => h hscanning hwaiting.1 hwaiting.2.1⟩
  · rw [if_neg hscanning] at heq
    rw [heq]
    exact ⟨fun _ h => absurd h hscanning, fun _ => watched_of_same hs hqueue rfl rfl rfl rfl⟩

/-- **One message**: it leaves the service watched exactly when it rearms. -/
theorem watched_handle (hs : Watched s) (hqueue : s.queue = msg :: rest) :
    Watched ⟨processCmd env msg s.service, rest, userDisconnectedAfter s.userDisconnected msg⟩ ↔
      Rearms env rest s msg := by
  cases msg with
  | connectSlot index => exact watched_connectSlot
  | evtScanDone => exact watched_scanDone hs hqueue
  | disconnect => exact iff_of_true (fun hwaiting => by cases hwaiting.2.1) trivial
  | scan => exact iff_of_true (fun hwaiting => absurd hwaiting.2.2 (by rintro (h | h) <;> cases h)) trivial
  | reconnectTimer => exact iff_of_true watched_reconnect trivial
  | reconnectNow => exact iff_of_true watched_reconnect trivial
  | evtConnectivityOk | evtConnectivityFailed =>
    exact iff_of_true (watched_of_same hs hqueue rfl rfl rfl rfl) trivial
  | evtGotIp info =>
    exact iff_of_true (watched_of_connected (processGotIp_joins env info s.service).state) trivial
  | setAutoreconnect enable =>
    refine iff_of_true ?_ trivial
    obtain ⟨nvs, posted, heq⟩ := processSetAutoreconnect_eq env enable s.service
    cases hlinked : s.service.linked with
    | true =>
      rw [processCmd, heq]
      exact watched_of_linked hlinked
    | false =>
      rw [processCmd, heq, hlinked]
      intro hwaiting
      have henable : enable = true := hwaiting.1
      exact .inl (by rw [henable]; rfl)
  | evtDisconnected reason =>
    refine iff_of_true ?_ trivial
    by_cases hexpected : expected reason s.service
    · obtain ⟨posted, heq⟩ := processDisconnected_expected env hexpected
      rw [processCmd, heq]
      exact watched_of_same hs hqueue rfl rfl rfl rfl
    · have h := processDisconnected_unexpected env hexpected
      cases hworks : (slotsLeft s.service).any (works env s.service) with
      | true => exact watched_of_connecting (h.succeeds hworks).1
      | false => exact fun hwaiting => .inl ((h.fails hworks).2.2.2 hwaiting.1)

theorem watched_step {a : Action} (hs : Watched s) (h : step s a = some t) :
    Watched t ↔ Rearmed s a := by
  cases a with
  | post msg =>
    dsimp only [step] at h
    split at h
    · cases h
    · obtain rfl := Option.some.inj h
      refine iff_of_true (fun hwaiting => ?_) trivial
      rcases hs hwaiting with htimer | hqueued
      · exact .inl htimer
      · refine .inr ?_
        rw [List.any_append, hqueued]
        rfl
  | save =>
    obtain rfl := Option.some.inj h
    exact iff_of_true hs trivial
  | handle env =>
    dsimp only [step] at h
    unfold Rearmed
    cases hqueue : s.queue with
    | nil =>
      rw [hqueue] at h
      cases h
    | cons msg rest =>
      rw [hqueue] at h
      obtain rfl := Option.some.inj h
      exact watched_handle hs hqueue

/-! ## Every run -/

theorem watched_boot (nvs : Nvs) (env : Env) : Watched (boot nvs env) ↔ Booted nvs env := by
  have hstarted : (started nvs).autoreconnect = nvsLoadAutoreconnect nvs := rfl
  have htries := startReconnectSequence_tries env (s := started nvs) rfl
  unfold boot init Booted
  rw [hstarted]
  cases hauto : nvsLoadAutoreconnect nvs with
  | false =>
    rw [if_neg (fun h => by cases h)]
    exact iff_of_true (fun hwaiting => by cases hauto.symm.trans hwaiting.1) (fun h => by cases h)
  | true =>
    rw [if_pos rfl]
    cases hworks : (buildReconnectOrder env (started nvs)).any (works env (started nvs)) with
    | true =>
      exact iff_of_true (watched_of_connecting (htries.succeeds hworks).2.1) fun _ => rfl
    | false =>
      -- nothing started the timer
      refine iff_of_false (fun h => ?_) fun h => by cases h rfl
      have hidle := (htries.fails hworks).2.1
      have hon : (startReconnectSequence env (started nvs)).1.autoreconnect = true :=
        (congrArg (·.2.2.2) htries.kept).trans hauto
      rcases h ⟨hon, rfl, .inl hidle⟩ with htimer | hqueued
      · cases htries.timer htimer
      · cases hqueued

/-- **Auto-reconnect.** In every state of a run, a service that waits for the link
with auto-reconnect on has its timer running or a message queued that wakes it,
exactly when the connection at boot worked, no connect command failed after it
stopped the timer, and no scan ended, with nothing else left to wake the service. -/
theorem autoreconnect_watched (nvs : Nvs) (env : Env) (as : List Action) :
    (∀ pre t, pre <+: as → run step (boot nvs env) pre = some t → Watched t) ↔
      Booted nvs env ∧ Along step Rearmed (boot nvs env) as := by
  rw [← watched_boot]
  refine always_iff (fun s a t => watched_step) fun s a hnone => ?_
  cases a with
  | post | save => trivial
  | handle env =>
    dsimp only [step] at hnone
    unfold Rearmed
    cases hqueue : s.queue with
    | nil => trivial
    | cons msg rest =>
      rw [hqueue] at hnone
      cases hnone

/-- `esp_wifi_set_config` fails for every slot. -/
def refusing : Env := { Env.fine with slot := fun _ => ⟨.ok, .ok, .ok, .ok, .ok, true, .other 1, .ok⟩ }

/-- A connect command whose configuration the driver refuses leaves the service
disconnected for good; so does such a failure at boot. -/
theorem autoreconnect_stuck :
    (∃ t, run step (boot .home .fine)
        [.post (.evtGotIp ⟨1, 2, 3⟩), .handle .fine, .post (.connectSlot 0), .handle refusing] =
          some t ∧ ¬ Watched t) ∧
    ¬ Watched (boot .home refusing) := by
  refine ⟨?_, by decide +kernel⟩
  have h : ((run step (boot .home .fine) [.post (.evtGotIp ⟨1, 2, 3⟩), .handle .fine,
      .post (.connectSlot 0), .handle refusing]).map fun t => decide (Watched t)) = some false := by
    decide +kernel
  obtain ⟨t, hrun, hwatched⟩ := Option.map_eq_some_iff.mp h
  exact ⟨t, hrun, of_decide_eq_false hwatched⟩

end Jukeboy.Wifi.AutoReconnect
