import Mathlib.Data.List.Infix
import Jukeboy.Wifi.Service

/-! # What the handlers of the Wi-Fi service do

Each handler said once, as a record of what it changes or as a structure of what
its outcome has: whether a slot works decides between the two outcomes of every
attempt. What a run of messages keeps is derived from these. -/
namespace Jukeboy.Wifi.Service

open Jukeboy.Base Jukeboy.CompanionApi.Tlv
open Jukeboy.CompanionApi.ServiceHandlers (wifiSlotCount)
open Jukeboy.Wifi.Slots (StoredSlot ServiceState slotKey copyCString nvsLoadSlot)

/-! ## What an attempt does -/

variable {env : Env} {s t : State} {index : UInt8}

/-- The credentials of a slot that `wifi_service_connect_with_credentials` gives
the driver: they load, and they fit its configuration. -/
def credentials (env : Slots.Env) (index : UInt8) (s : State) : Option (Bytes × Bytes) :=
  match nvsLoadSlot env index true s.saved with
  | .error _ => none
  | .ok (ssid, password) =>
    if slotKey index ≠ none ∧ ssid.length < 32 ∧ password.length < 64 then some (ssid, password)
    else none

/-- An attempt with the slot gets as far as `esp_wifi_connect`. -/
def reaches (env : Env) (s : State) (index : UInt8) : Bool :=
  (credentials (env.slot index) index s).isSome && (env.slot index).setConfig == .ok

/-- An attempt with the slot succeeds. -/
def works (env : Env) (s : State) (index : UInt8) : Bool :=
  reaches env s index && (env.slot index).connect == .ok

/-- The state in which an attempt calls `esp_wifi_set_config`. -/
def prepared (s : State) : State :=
  { s with
    timerRunning := false
    expectedDisconnect := if s.linked then .handoff else .none
    calls := if s.linked then s.calls ++ [.disconnect] else s.calls }

/-- The state in which an attempt calls `esp_wifi_connect`. -/
def configured (index : UInt8) (found : Bytes × Bytes) (s : State) : State :=
  { prepared s with config := some found, calls := (prepared s).calls ++ [.connect index] }

/-- The state an attempt that succeeds leaves. -/
def attempted (index : UInt8) (found : Bytes × Bytes) (s : State) : State :=
  ({ configured index found s with
    currentSlot := index.toNat, state := .connecting }.resetIpState).post .connecting

theorem works_reaches (h : works env s index = true) : reaches env s index = true :=
  (Bool.and_eq_true_iff.mp h).1

theorem works_none {order : List UInt8} (h : order.any (reaches env s) = false) :
    order.any (works env s) = false := by
  rw [List.any_eq_false] at h ⊢
  exact fun index hmem hworks => h index hmem (works_reaches hworks)

/-- The slots `esp_wifi_connect` was called for, oldest first. -/
def connects (s : State) : List UInt8 :=
  s.calls.filterMap fun
    | .connect index => some index
    | .disconnect => none

theorem connects_append {made : List UInt8} (h : t.calls = s.calls ++ made.map .connect) :
    connects t = connects s ++ made := by
  unfold connects
  rw [h, List.filterMap_append, List.filterMap_map]
  exact congrArg (_ ++ ·) List.filterMap_some

theorem connects_getLast (h : t.calls.getLast? = some (.connect index)) :
    (connects t).getLast? = some index := by
  obtain ⟨calls, heq⟩ := List.getLast?_eq_some_iff.mp h
  unfold connects
  rw [heq, List.filterMap_append]
  exact List.getLast?_concat

/-- The slots decide what an attempt can do. -/
theorem credentials_congr (h : t.slots = s.slots) (env : Slots.Env) (index : UInt8) :
    credentials env index t = credentials env index s := by
  have hload : nvsLoadSlot env index true t.saved = nvsLoadSlot env index true s.saved := by
    unfold nvsLoadSlot State.saved
    rw [h]
  rw [credentials, credentials, hload]

theorem reaches_congr (h : t.slots = s.slots) : reaches env t = reaches env s :=
  funext fun index => by rw [reaches, reaches, credentials_congr h]

theorem works_congr (h : t.slots = s.slots) : works env t = works env s :=
  funext fun index => by rw [works, works, reaches_congr h]

theorem copyCString_eq {size : Nat} {src : Bytes} (h : src.length < size) :
    copyCString size src = .ok src := if_pos h

/-- **An attempt**: it stops where the credentials do not fit, at
`esp_wifi_set_config`, at `esp_wifi_connect`, or succeeds. -/
theorem connectSavedSlot_eq (env : Slots.Env) (index : UInt8) (s : State) :
    (credentials env index s = none ∧ ∃ err, err ≠ .ok ∧ connectSavedSlot env index s = (s, err)) ∨
    ∃ found, credentials env index s = some found ∧ connectSavedSlot env index s =
      if env.setConfig ≠ .ok then (prepared s, env.setConfig)
      else if env.connect ≠ .ok then (configured index found s, env.connect)
      else (attempted index found s, .ok) := by
  unfold credentials connectSavedSlot
  cases hload : nvsLoadSlot env index true s.saved with
  | error err =>
    refine .inl ⟨rfl, err, ?_, rfl⟩
    rintro rfl
    exact Slots.nvsLoadSlot_ne_ok _ _ _ _ hload
  | ok found =>
    obtain ⟨ssid, password⟩ := found
    dsimp only
    by_cases hkey : slotKey index = none
    · exact .inl ⟨by rw [if_neg]; simp [hkey], .invalidArg, fun h => (by cases h),
        by rw [connectWithCredentials, if_pos hkey]⟩
    · by_cases hssid : ssid.length < 32
      · by_cases hpass : password.length < 64
        · refine .inr ⟨(ssid, password), if_pos ⟨hkey, hssid, hpass⟩, ?_⟩
          rw [connectWithCredentials, if_neg hkey, copyCString_eq hssid, copyCString_eq hpass]
          cases hlinked : s.linked with
          | true => simp only [attempted, configured, prepared, hlinked, if_true]
          | false => simp only [attempted, configured, prepared, hlinked, Bool.false_eq_true, if_false]
        · refine .inl ⟨by rw [if_neg]; simp [hpass], .invalidSize, fun h => (by cases h), ?_⟩
          rw [connectWithCredentials, if_neg hkey, copyCString_eq hssid, copyCString, if_neg hpass]
      · refine .inl ⟨by rw [if_neg]; simp [hssid], .invalidSize, fun h => (by cases h), ?_⟩
        rw [connectWithCredentials, if_neg hkey, copyCString, if_neg hssid]

/-! ## What a sequence of attempts does -/

/-- What no attempt touches. -/
def kept (s : State) := (s.slots, s.lastSuccessfulSlot, s.nvsLastSlot, s.autoreconnect)

/-- What is known of the link's address and its connectivity. -/
def known (s : State) := (s.haveIpInfo, s.dnsLookupActive, s.connectivityOk)

/-- Attempts with the slots of a list, in order, up to the first that works. -/
structure Tries (env : Env) (order : List UInt8) (s : State) (r : State × EspErr) : Prop where
  kept : Service.kept r.1 = Service.kept s
  timer : r.1.timerRunning = true → s.timerRunning = true
  succeeds : order.any (works env s) = true →
    r.2 = .ok ∧ r.1.state = .connecting ∧ known r.1 = (false, false, false) ∧
      ∃ index, r.1.currentSlot = (index.toNat : Int) ∧ r.1.calls.getLast? = some (.connect index)
  fails : order.any (works env s) = false →
    r.2 ≠ .ok ∧ r.1.state = s.state ∧ known r.1 = known s ∧ r.1.currentSlot = invalidSlot ∧
      r.1.reconnectSequenceActive = false
  calls : ∃ made : List UInt8, r.1.calls = s.calls ++ made.map .connect ∧
    (made = [] ↔ order.any (reaches env s) = false)

theorem slots_of_kept (h : kept t = kept s) : t.slots = s.slots := congrArg (·.1) h

/-- Attempts from a state that differs in nothing an attempt looks at. -/
theorem Tries.congr {order : List UInt8} {r : State × EspErr} (h : Tries env order t r)
    (hkept : Service.kept t = Service.kept s) (hstate : t.state = s.state)
    (htimer : t.timerRunning = true → s.timerRunning = true) (hknown : known t = known s)
    (hcalls : t.calls = s.calls) : Tries env order s r := by
  obtain ⟨hk, ht, hs, hf, hc⟩ := h
  rw [works_congr (slots_of_kept hkept)] at hs hf
  rw [reaches_congr (slots_of_kept hkept), hcalls] at hc
  rw [hstate, hknown] at hf
  exact ⟨hk.trans hkept, fun h => htimer (ht h), hs, hf, hc⟩

theorem linked_congr (h : t.state = s.state) : t.linked = s.linked := by
  unfold State.linked
  rw [h]

theorem prepared_of_unlinked (h : s.linked = false) :
    prepared s = { s with timerRunning := false, expectedDisconnect := .none } := by
  unfold prepared
  rw [h]
  rfl

theorem attempt_works (h : works env s index = true) :
    ∃ found, connectSavedSlot (env.slot index) index s = (attempted index found s, .ok) := by
  simp only [works, reaches, Bool.and_eq_true, beq_iff_eq] at h
  obtain ⟨⟨hsome, hset⟩, hconnect⟩ := h
  rcases connectSavedSlot_eq (env.slot index) index s with ⟨hnone, -⟩ | ⟨found, -, heq⟩
  · rw [hnone] at hsome
    cases hsome
  · rw [if_neg (not_not.mpr hset), if_neg (not_not.mpr hconnect)] at heq
    exact ⟨found, heq⟩

/-- An attempt that fails leaves a link that is down as it is. -/
theorem attempt_fails (hlinked : s.linked = false) (h : works env s index = false) :
    ∃ t err, connectSavedSlot (env.slot index) index s = (t, err) ∧ err ≠ .ok ∧
      kept t = kept s ∧ (t.timerRunning = true → s.timerRunning = true) ∧ t.state = s.state ∧
        known t = known s ∧
        ∃ made : List UInt8, t.calls = s.calls ++ made.map .connect ∧
          (made = [] ↔ reaches env s index = false) := by
  have hprepared := prepared_of_unlinked hlinked
  rcases connectSavedSlot_eq (env.slot index) index s with
    ⟨hnone, err, herr, heq⟩ | ⟨found, hfound, heq⟩
  · exact ⟨s, err, heq, herr, rfl, id, rfl, rfl, [], (List.append_nil _).symm, by simp [reaches, hnone]⟩
  · by_cases hset : (env.slot index).setConfig = .ok
    · by_cases hconnect : (env.slot index).connect = .ok
      · simp [works, reaches, hfound, hset, hconnect] at h
      · have hconfigured : configured index found s =
            { s with
              timerRunning := false, expectedDisconnect := .none, config := some found
              calls := s.calls ++ [.connect index] } := by
          unfold configured
          rw [hprepared]
        rw [if_neg (not_not.mpr hset), if_pos hconnect, hconfigured] at heq
        exact ⟨_, _, heq, hconnect, rfl, fun h => (by cases h), rfl, rfl, [index], rfl,
          by simp [reaches, hfound, hset]⟩
    · rw [if_pos hset, hprepared] at heq
      exact ⟨_, _, heq, hset, rfl, fun h => (by cases h), rfl, rfl, [], (List.append_nil _).symm,
        by simp [reaches, hset]⟩

theorem trySlots_tries (env : Env) (order : List UInt8) (hlinked : s.linked = false) :
    Tries env order s (trySlots env order s) := by
  induction order generalizing s with
  | nil =>
    refine ⟨rfl, id, fun h => (by cases h), fun _ => ⟨fun h => (by cases h), rfl, rfl, rfl, rfl⟩,
      [], ?_, by simp⟩
    exact (List.append_nil _).symm
  | cons index rest ih =>
    -- the state the attempt is made in
    have hsame : Tries env (index :: rest) { s with reconnectOrderIndex := s.reconnectOrderIndex + 1 }
        (trySlots env (index :: rest) s) →
        Tries env (index :: rest) s (trySlots env (index :: rest) s) :=
      fun h => h.congr rfl rfl id rfl rfl
    refine hsame ?_
    have hunlinked :
        { s with reconnectOrderIndex := s.reconnectOrderIndex + 1 }.linked = false := hlinked
    rw [trySlots]
    generalize { s with reconnectOrderIndex := s.reconnectOrderIndex + 1 } = t at hunlinked ⊢
    dsimp only
    cases hworks : works env t index with
    | true =>
      obtain ⟨found, heq⟩ := attempt_works hworks
      rw [heq]
      refine ⟨rfl, fun h => (by cases h), fun _ => ⟨rfl, rfl, rfl, index, rfl,
        List.getLast?_concat⟩, fun h => ?_,
        [index], ?_, by simp [works_reaches hworks]⟩
      · simp [hworks] at h
      · change (prepared t).calls ++ _ = _
        rw [prepared_of_unlinked hunlinked]
        rfl
    | false =>
      obtain ⟨u, err, heq, herr, hkept, htimer, hstate, hknown, made, hcalls, hmade⟩ :=
        attempt_fails hunlinked hworks
      have hu := ih ((linked_congr hstate).trans hunlinked)
      rw [heq, if_neg herr]
      obtain ⟨hk, ht, hs, hf, more, hmore, hiff⟩ := hu
      rw [works_congr (slots_of_kept hkept)] at hs hf
      rw [reaches_congr (slots_of_kept hkept)] at hiff
      rw [hstate, hknown] at hf
      refine ⟨hk.trans hkept, fun h => htimer (ht h), fun h => hs (by simpa [hworks] using h),
        fun h => hf (by simpa [hworks] using h),
        made ++ more, by rw [hmore, hcalls, List.map_append, List.append_assoc], ?_⟩
      rw [List.append_eq_nil_iff, hmade, hiff, List.any_cons, Bool.or_eq_false_iff]

theorem startReconnectSequence_tries (env : Env) (hlinked : s.linked = false) :
    Tries env (buildReconnectOrder env s) s (startReconnectSequence env s) := by
  unfold startReconnectSequence
  dsimp only
  have horder : buildReconnectOrder env { s.clearReconnectSequence with timerRunning := false } =
      buildReconnectOrder env s := rfl
  rw [horder]
  split
  · next hnone =>
    rw [List.length_eq_zero_iff.mp hnone]
    exact ⟨rfl, fun h => (by cases h), fun h => (by cases h), fun _ => ⟨fun h => (by cases h), rfl,
      rfl, rfl, rfl⟩, [], (List.append_nil _).symm,
      by simp⟩
  · have h := trySlots_tries env (s := { s.clearReconnectSequence with
      timerRunning := false, reconnectOrder := buildReconnectOrder env s
      reconnectSequenceActive := true, reconnectOrderIndex := 0 })
      (buildReconnectOrder env s) hlinked
    exact h.congr rfl rfl (fun h => by cases h) rfl rfl

/-! ## What a message does -/

/-- The reconnect message leads to attempts: the link is down, and the user or
auto-reconnect asks for it. -/
def acts (now : Bool) (s : State) : Bool := !s.linked && (now || s.autoreconnect)

theorem processReconnect_idle {now : Bool} (h : acts now s = false) :
    processReconnect env now s = s := by
  unfold acts at h
  unfold processReconnect
  rw [h, if_neg Bool.false_ne_true]

/-- What a reconnect message that acts leaves. -/
structure Reconnects (env : Env) (s t : State) : Prop where
  kept : Service.kept t = Service.kept s
  succeeds : (buildReconnectOrder env s).any (works env s) = true →
    t.state = .connecting ∧ known t = (false, false, false) ∧
      ∃ index, t.currentSlot = (index.toNat : Int) ∧ t.calls.getLast? = some (.connect index)
  fails : (buildReconnectOrder env s).any (works env s) = false →
    t.state = .disconnected ∧ known t = known s ∧ t.currentSlot = invalidSlot ∧
      t.reconnectSequenceActive = false ∧ (t.autoreconnect = true → t.timerRunning = true)
  calls : ∃ made : List UInt8, t.calls = s.calls ++ made.map .connect ∧
    (made = [] ↔ (buildReconnectOrder env s).any (reaches env s) = false)

theorem processReconnect_acts {now : Bool} (env : Env) (h : acts now s = true) :
    Reconnects env s (processReconnect env now s) := by
  have hlinked : s.linked = false := by
    unfold acts at h
    cases hl : s.linked with
    | false => rfl
    | true => simp [hl] at h
  have htries := startReconnectSequence_tries env hlinked
  unfold acts at h
  unfold processReconnect
  rw [h, if_pos rfl]
  obtain ⟨hkept, -, hs, hf, hcalls⟩ := htries
  generalize startReconnectSequence env s = r at hkept hs hf hcalls ⊢
  obtain ⟨u, err⟩ := r
  dsimp only at hkept hs hf hcalls ⊢
  cases hany : (buildReconnectOrder env s).any (works env s) with
  | true =>
    obtain ⟨hok, hrest⟩ := hs hany
    rw [if_neg (not_not.mpr hok)]
    exact ⟨hkept, fun _ => hrest, fun hno => (by cases hany.symm.trans hno), hcalls⟩
  | false =>
    obtain ⟨herr, -, hknown, -, hover⟩ := hf hany
    rw [if_pos herr]
    split
    · exact ⟨hkept, fun hyes => (by cases hany.symm.trans hyes),
        fun _ => ⟨rfl, hknown, rfl, hover, fun _ => rfl⟩, hcalls⟩
    · next hauto =>
      exact ⟨hkept, fun hyes => (by cases hany.symm.trans hyes),
        fun _ => ⟨rfl, hknown, rfl, hover, fun hon => absurd hon hauto⟩, hcalls⟩

/-- The disconnect was asked for and is reported as such. -/
def expected (reason : UInt8) (s : State) : Prop :=
  s.expectedDisconnect ≠ .none ∧ reason = reasonAssocLeave

instance (reason : UInt8) (s : State) : Decidable (expected reason s) :=
  inferInstanceAs (Decidable (_ ∧ _))

theorem processDisconnected_expected {reason : UInt8} (env : Env) (h : expected reason s) :
    ∃ posted, processDisconnected env reason s =
      { s with expectedDisconnect := .none, posted := posted } := by
  unfold expected at h
  unfold processDisconnected
  rw [if_pos h]
  dsimp only
  split <;> exact ⟨_, rfl⟩

/-- The slots a reconnect sequence has left. -/
def slotsLeft (s : State) : List UInt8 :=
  if s.reconnectSequenceActive then s.reconnectOrder.drop s.reconnectOrderIndex else []

/-- What an unexpected disconnect leaves. -/
structure Drops (env : Env) (s t : State) : Prop where
  kept : Service.kept t = Service.kept s
  known : known t = (false, false, false)
  succeeds : (slotsLeft s).any (works env s) = true →
    t.state = .connecting ∧
      ∃ index, t.currentSlot = (index.toNat : Int) ∧ t.calls.getLast? = some (.connect index)
  fails : (slotsLeft s).any (works env s) = false →
    t.state = .disconnected ∧ t.currentSlot = invalidSlot ∧ t.reconnectSequenceActive = false ∧
      (t.autoreconnect = true → t.timerRunning = true)
  calls : ∃ made : List UInt8, t.calls = s.calls ++ made.map .connect ∧
    (made = [] ↔ (slotsLeft s).any (reaches env s) = false)

theorem processDisconnected_unexpected {reason : UInt8} (env : Env) (h : ¬ expected reason s) :
    Drops env s (processDisconnected env reason s) := by
  unfold expected at h
  unfold processDisconnected
  rw [if_neg h]
  dsimp only
  generalize hdown : State.post (State.resetIpState
    { s with expectedDisconnect := .none, state := .disconnected }) (.disconnected reason) = d
  have htries : Tries env (slotsLeft s) d
      (if d.reconnectSequenceActive then tryNextReconnectSlot env d else (d, .nvsNotFound)) ∨
      (slotsLeft s = [] ∧ d.reconnectSequenceActive = false ∧
        (if d.reconnectSequenceActive then tryNextReconnectSlot env d else (d, .nvsNotFound)) =
          (d, .nvsNotFound)) := by
    have hleft : slotsLeft s =
        if d.reconnectSequenceActive then d.reconnectOrder.drop d.reconnectOrderIndex else [] := by
      rw [← hdown]
      rfl
    cases hactive : d.reconnectSequenceActive with
    | true =>
      refine .inl ?_
      have hunlinked : d.linked = false := by
        rw [← hdown]
        rfl
      have ht := trySlots_tries env (slotsLeft s) hunlinked
      rw [hleft] at ht ⊢
      exact ht
    | false => exact .inr ⟨by rw [hleft, hactive]; rfl, rfl, rfl⟩
  have hkept : Service.kept d = Service.kept s := by rw [← hdown]; rfl
  have hknown : Service.known d = (false, false, false) := by rw [← hdown]; rfl
  have hstate : d.state = .disconnected := by rw [← hdown]; rfl
  have hcalls : d.calls = s.calls := by rw [← hdown]; rfl
  rcases htries with ⟨hk, -, hs, hf, hc⟩ | ⟨hnone, hinactive, heq⟩
  · generalize (if d.reconnectSequenceActive = true then tryNextReconnectSlot env d
      else (d, EspErr.nvsNotFound)) = r at hk hs hf hc ⊢
    obtain ⟨u, err⟩ := r
    rw [works_congr (slots_of_kept hkept)] at hs hf
    rw [reaches_congr (slots_of_kept hkept), hcalls] at hc
    dsimp only at hk hs hf hc ⊢
    cases hany : (slotsLeft s).any (works env s) with
    | true =>
      obtain ⟨hok, hconnecting, hreset, hslot⟩ := hs hany
      rw [if_pos hok]
      exact ⟨hk.trans hkept, hreset, fun _ => ⟨hconnecting, hslot⟩,
        fun hno => (by cases hany.symm.trans hno), hc⟩
    | false =>
      obtain ⟨herr, hsame, hreset, -, hover⟩ := hf hany
      rw [if_neg herr]
      split
      · exact ⟨hk.trans hkept, hreset.trans hknown, fun hyes => (by cases hany.symm.trans hyes),
          fun _ => ⟨hsame.trans hstate, rfl, hover, fun _ => rfl⟩, hc⟩
      · next hauto =>
        exact ⟨hk.trans hkept, hreset.trans hknown, fun hyes => (by cases hany.symm.trans hyes),
          fun _ => ⟨hsame.trans hstate, rfl, hover, fun hon => absurd hon hauto⟩, hc⟩
  · rw [heq, if_neg (fun h => by cases h)]
    have hmade : ∃ made : List UInt8, d.calls = s.calls ++ made.map .connect ∧
        (made = [] ↔ (slotsLeft s).any (reaches env s) = false) :=
      ⟨[], by rw [hcalls, List.map_nil, List.append_nil], by simp [hnone]⟩
    split
    · exact ⟨hkept, hknown, fun hyes => by simp [hnone] at hyes,
        fun _ => ⟨hstate, rfl, hinactive, fun _ => rfl⟩, hmade⟩
    · next hauto =>
      exact ⟨hkept, hknown, fun hyes => by simp [hnone] at hyes,
        fun _ => ⟨hstate, rfl, hinactive, fun hon => absurd hon hauto⟩, hmade⟩

theorem processConnectSlot_works (h : works env s index = true) :
    ∃ found, processConnectSlot env index s = attempted index found s.clearReconnectSequence := by
  obtain ⟨found, heq⟩ := attempt_works (s := s.clearReconnectSequence) h
  unfold processConnectSlot
  rw [heq]
  exact ⟨found, rfl⟩

/-- A connect command that fails: the timer was stopped if the credentials fit. -/
theorem processConnectSlot_fails (h : works env s index = false) :
    kept (processConnectSlot env index s) = kept s ∧
      (processConnectSlot env index s).state = .disconnected ∧
        (processConnectSlot env index s).currentSlot = invalidSlot ∧
          known (processConnectSlot env index s) = known s ∧
            (processConnectSlot env index s).timerRunning =
              if (credentials (env.slot index) index s).isSome then false else s.timerRunning := by
  unfold processConnectSlot
  have hsame : credentials (env.slot index) index s.clearReconnectSequence =
      credentials (env.slot index) index s := rfl
  rcases connectSavedSlot_eq (env.slot index) index s.clearReconnectSequence with
    ⟨hnone, err, herr, heq⟩ | ⟨found, hfound, heq⟩
  · rw [heq, ← hsame, hnone]
    dsimp only
    rw [if_pos herr]
    exact ⟨rfl, rfl, rfl, rfl, rfl⟩
  · rw [← hsame, hfound, heq]
    by_cases hset : (env.slot index).setConfig = .ok
    · by_cases hconnect : (env.slot index).connect = .ok
      · rw [hsame] at hfound
        simp [works, reaches, hfound, hset, hconnect] at h
      · rw [if_neg (not_not.mpr hset), if_pos hconnect]
        dsimp only
        rw [if_pos hconnect]
        exact ⟨rfl, rfl, rfl, rfl, rfl⟩
    · rw [if_pos hset]
      dsimp only
      rw [if_pos hset]
      exact ⟨rfl, rfl, rfl, rfl, rfl⟩

/-- The flags of the DNS lookup after the connectivity test: whether one is under
way, and whether the last one succeeded. -/
def tested (env : Env) (flags : Bool × Bool) : Bool × Bool :=
  if flags.1 then flags else
  match env.dns with
  | .ok => (false, true)
  | .inProgress => (true, false)
  | .failed => (false, false)

theorem startConnectivityTest_eq (env : Env) (s : State) :
    ∃ posted, startConnectivityTest env s =
      { s with
        dnsLookupActive := (tested env (s.dnsLookupActive, s.connectivityOk)).1
        connectivityOk := (tested env (s.dnsLookupActive, s.connectivityOk)).2
        posted := posted } := by
  unfold startConnectivityTest tested
  cases hactive : s.dnsLookupActive with
  | true =>
    refine ⟨s.posted, ?_⟩
    rw [if_pos rfl, if_pos rfl, ← hactive]
  | false =>
    rw [if_neg Bool.false_ne_true, if_neg Bool.false_ne_true]
    cases env.dns with
    | ok => exact ⟨_, by rw [← hactive]; rfl⟩
    | inProgress => exact ⟨_, rfl⟩
    | failed => exact ⟨_, by rw [← hactive]⟩

/-- The service has a slot for the link. -/
def hasSlot (s : State) : Prop := 0 ≤ s.currentSlot ∧ s.currentSlot < wifiSlotCount

instance (s : State) : Decidable (hasSlot s) := inferInstanceAs (Decidable (_ ∧ _))

/-- What an address leaves. -/
structure Joins (env : Env) (info : IpInfo) (s t : State) : Prop where
  state : t.state = .connected
  ip : t.haveIpInfo = true ∧ t.ipInfo = info
  slot : t.currentSlot = s.currentSlot
  calls : t.calls = s.calls
  flags : (t.dnsLookupActive, t.connectivityOk) = tested env (s.dnsLookupActive, s.connectivityOk)
  last : t.lastSuccessfulSlot = if hasSlot s then s.currentSlot else s.lastSuccessfulSlot
  nvsLast : t.nvsLastSlot = s.nvsLastSlot ∨ hasSlot s ∧ t.nvsLastSlot = some s.currentSlot
  autoreconnect : t.autoreconnect = s.autoreconnect

theorem processGotIp_joins (env : Env) (info : IpInfo) (s : State) :
    Joins env info s (processGotIp env info s) := by
  unfold processGotIp
  have hslot : (0 ≤ s.currentSlot ∧ s.currentSlot < (wifiSlotCount : Int)) = hasSlot s := rfl
  dsimp only [State.clearReconnectSequence]
  simp only [hslot]
  by_cases h : hasSlot s
  · have hvalid : (0 ≤ s.currentSlot ∧ s.currentSlot < (wifiSlotCount : Int)) := h
    rw [if_pos h]
    unfold nvsSaveLastSuccessfulSlot
    dsimp only
    rw [if_pos hvalid]
    split
    · obtain ⟨posted, heq⟩ := startConnectivityTest_eq env _
      rw [heq]
      exact ⟨rfl, ⟨rfl, rfl⟩, rfl, rfl, rfl, (if_pos h).symm, .inr ⟨h, rfl⟩, rfl⟩
    · obtain ⟨posted, heq⟩ := startConnectivityTest_eq env _
      rw [heq]
      exact ⟨rfl, ⟨rfl, rfl⟩, rfl, rfl, rfl, (if_pos h).symm, .inl rfl, rfl⟩
  · rw [if_neg h]
    obtain ⟨posted, heq⟩ := startConnectivityTest_eq env _
    rw [heq]
    exact ⟨rfl, ⟨rfl, rfl⟩, rfl, rfl, rfl, (if_neg h).symm, .inl rfl, rfl⟩

theorem processSetAutoreconnect_eq (env : Env) (enable : Bool) (s : State) :
    ∃ nvs posted, processSetAutoreconnect env enable s =
      { s with
        nvsAutoreconnect := nvs, autoreconnect := enable
        timerRunning := if enable then !s.linked || s.timerRunning else false
        posted := posted } := by
  unfold processSetAutoreconnect nvsSaveAutoreconnect
  have hlinked : ∀ nvs : Option Bool,
      { s with nvsAutoreconnect := nvs, autoreconnect := enable }.linked = s.linked := fun _ => rfl
  split <;> cases enable <;> simp only [hlinked] <;> cases hl : s.linked <;> exact ⟨_, _, rfl⟩

theorem processScanDone_eq (env : Env) (s : State) :
    ∃ results posted, processScanDone env s =
      { s with
        scanResults := results
        state := if s.state = .scanning then .disconnected else s.state
        posted := posted } := by
  unfold processScanDone
  dsimp only
  cases env.mutexFree with
  | true | false =>
    by_cases h : s.state = .scanning
    · simp only [h, if_true, Bool.false_eq_true, if_false]
      exact ⟨_, _, rfl⟩
    · simp only [h, if_true, Bool.false_eq_true, if_false]
      exact ⟨_, _, rfl⟩

theorem processReconnect_cases (env : Env) (now : Bool) (s : State) :
    acts now s = false ∧ processReconnect env now s = s ∨
      acts now s = true ∧ Reconnects env s (processReconnect env now s) := by
  cases h : acts now s with
  | false => exact .inl ⟨rfl, processReconnect_idle h⟩
  | true => exact .inr ⟨rfl, processReconnect_acts env h⟩

theorem connectSavedSlot_calls (env : Slots.Env) (index : UInt8) (s : State) :
    s.calls <+: (connectSavedSlot env index s).1.calls := by
  have hprepared : s.calls <+: (prepared s).calls := by
    unfold prepared
    dsimp only
    split
    · exact List.prefix_append ..
    · exact List.prefix_rfl
  have hconfigured : ∀ found, s.calls <+: (configured index found s).calls := fun found =>
    hprepared.trans (List.prefix_append ..)
  rcases connectSavedSlot_eq env index s with ⟨-, err, -, heq⟩ | ⟨found, -, heq⟩
  · rw [heq]
  · rw [heq]
    split
    · exact hprepared
    · split
      · exact hconfigured found
      · exact hconfigured found

/-- No step takes a driver call back. -/
theorem step_calls (s : State) (x : Step) : s.calls <+: (step s x).calls := by
  cases x with
  | save => exact List.prefix_rfl
  | handle env msg =>
    change s.calls <+: (processCmd env msg s).calls
    cases msg with
    | connectSlot index =>
      have h := connectSavedSlot_calls (env.slot index) index s.clearReconnectSequence
      unfold processCmd processConnectSlot
      dsimp only
      split
      · exact h
      · exact h
    | disconnect =>
      unfold processCmd processDisconnect
      dsimp only
      split
      · exact List.prefix_append ..
      · exact List.prefix_rfl
    | scan | evtConnectivityOk | evtConnectivityFailed => exact List.prefix_rfl
    | setAutoreconnect enable =>
      obtain ⟨nvs, posted, heq⟩ := processSetAutoreconnect_eq env enable s
      rw [processCmd, heq]
    | reconnectTimer | reconnectNow =>
      rcases processReconnect_cases env _ s with ⟨-, heq⟩ | ⟨-, h⟩
      · rw [processCmd, heq]
      · obtain ⟨made, heq, -⟩ := h.calls
        rw [processCmd, heq]
        exact List.prefix_append ..
    | evtDisconnected reason =>
      by_cases hexpected : expected reason s
      · obtain ⟨posted, heq⟩ := processDisconnected_expected env hexpected
        rw [processCmd, heq]
      · obtain ⟨made, heq, -⟩ := (processDisconnected_unexpected env hexpected).calls
        rw [processCmd, heq]
        exact List.prefix_append ..
    | evtScanDone =>
      obtain ⟨results, posted, heq⟩ := processScanDone_eq env s
      rw [processCmd, heq]
    | evtGotIp info => exact (processGotIp_joins env info s).calls ▸ List.prefix_rfl

theorem run_calls (s : State) (steps : List Step) : s.calls <+: (run s steps).calls := by
  induction steps generalizing s with
  | nil => exact List.prefix_rfl
  | cons x steps ih => exact (step_calls s x).trans (ih (step s x))

end Jukeboy.Wifi.Service
