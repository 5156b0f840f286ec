import Mathlib.Data.List.FinRange
import Jukeboy.Base.EspErr
import Jukeboy.CompanionApi.ServiceHandlers

/-! # The saved slots of the Wi-Fi service

Three pairs of strings in NVS, numbered from 0 by every function of the service;
only the names of the keys, and what is shown to a user, count from 1. -/
namespace Jukeboy.Wifi.Slots

open Jukeboy.Base Jukeboy.CompanionApi.Tlv
open Jukeboy.CompanionApi.ServiceHandlers (WifiSlot wifiSlotCount)

instance : NeZero wifiSlotCount := ⟨by decide⟩

/-- What NVS holds under the two keys of a slot. -/
structure StoredSlot where
  ssid : Option Bytes
  password : Option Bytes
deriving DecidableEq, Repr

/-- `wifi_svc_state_t`. -/
inductive ServiceState where
  | idle | scanning | connecting | connected | disconnected
deriving DecidableEq, Repr

/-- What the calls into NVS, the command queue and the driver return. -/
structure Env where
  openRead : EspErr
  openWrite : EspErr
  setSsid : EspErr
  setPassword : EspErr
  commit : EspErr
  queueAccepts : Bool
  setConfig : EspErr
  connect : EspErr

/-- The globals of the service that slots touch. `commands` are the
`CMD_CONNECT_SLOT` messages that wait, `config` is what `esp_wifi_set_config` was
given last. -/
structure State where
  slots : Fin wifiSlotCount → StoredSlot
  lastSuccessfulSlot : Int
  currentSlot : Int
  state : ServiceState
  hasQueue : Bool
  commands : List UInt8
  config : Option (Bytes × Bytes)

/-- `wifi_copy_cstring` into a buffer of `size` bytes. -/
def copyCString (size : Nat) (src : Bytes) : Except EspErr Bytes :=
  if src.length < size then .ok src else .error .invalidSize

/-- `wifi_service_slot_index_valid`, and the keys `wifi_service_build_slot_key`
makes of a valid index. -/
def slotKey (index : UInt8) : Option (Fin wifiSlotCount) :=
  if h : index.toNat < wifiSlotCount then some ⟨index.toNat, h⟩ else none

/-! ## NVS -/

/-- `nvs_save_slot`: a write that reports success takes effect. -/
def nvsSaveSlot (env : Env) (index : UInt8) (ssid password : Bytes) (s : State) :
    State × EspErr :=
  match slotKey index with
  | none => (s, .invalidArg)
  | some key =>
    if env.openWrite ≠ .ok then (s, env.openWrite) else
    if env.setSsid ≠ .ok then (s, env.setSsid) else
    let s := { s with
      slots := Function.update s.slots key { s.slots key with ssid := some ssid } }
    if env.setPassword ≠ .ok then (s, env.setPassword) else
    let s := { s with
      slots := Function.update s.slots key { s.slots key with password := some password } }
    (s, env.commit)

/-- `nvs_get_str` into a buffer of `size` bytes. -/
def nvsGetStr (value : Option Bytes) (size : Nat) : Except EspErr Bytes :=
  match value with
  | none => .error .nvsNotFound
  | some v => if v.length < size then .ok v else .error (.other 0x110C)

/-- `nvs_load_slot`, for the SSID alone or with the password. -/
def nvsLoadSlot (env : Env) (index : UInt8) (withPassword : Bool) (s : State) :
    Except EspErr (Bytes × Bytes) := do
  match slotKey index with
  | none => .error .invalidArg
  | some key =>
    failIf (env.openRead != .ok) env.openRead
    let ssid ← nvsGetStr (s.slots key).ssid 33
    let password ← if withPassword then nvsGetStr (s.slots key).password 65 else .ok []
    failIf (ssid == []) .nvsNotFound
    .ok (ssid, password)

/-! ## The calls -/

/-- `wifi_service_save_slot`. -/
def saveSlot (env : Env) (index : UInt8) (ssid password : Bytes) (s : State) : State × EspErr :=
  if slotKey index = none ∨ ssid = [] then (s, .invalidArg) else
  match copyCString 33 ssid, copyCString 65 password with
  | .error err, _ => (s, err)
  | .ok _, .error err => (s, err)
  | .ok ssid, .ok password => nvsSaveSlot env index ssid password s

/-- `wifi_service_connect_slot`. -/
def connectSlot (env : Env) (index : UInt8) (s : State) : State × EspErr :=
  if slotKey index = none then (s, .invalidArg) else
  if !s.hasQueue then (s, .invalidState) else
  match nvsLoadSlot env index false s with
  | .error _ => (s, .notFound)
  | .ok _ =>
    if env.queueAccepts then ({ s with commands := s.commands ++ [index] }, .ok)
    else (s, .timeout)

/-- `wifi_service_get_active_slot`. -/
def getActiveSlot (s : State) : Int :=
  if s.state = .connecting ∨ s.state = .connected then s.currentSlot else -1

/-- One turn of the loop of `wifi_service_get_saved_slots`. -/
def slotInfo (env : Env) (s : State) (key : Fin wifiSlotCount) : WifiSlot :=
  let loaded := nvsLoadSlot env (.ofNat key) false s
  { configured := loaded.toOption.isSome
    preferred := (key : Int) == s.lastSuccessfulSlot
    active := (key : Int) == getActiveSlot s
    ssid := (loaded.toOption.map Prod.fst).getD [] }

/-- `wifi_service_get_saved_slots`. -/
def getSavedSlots (env : Env) (s : State) : List WifiSlot :=
  (List.finRange wifiSlotCount).map (slotInfo env s)

/-! ## The connect command -/

/-- `wifi_service_connect_with_credentials`. -/
def connectWithCredentials (env : Env) (index : UInt8) (ssid password : Bytes) (s : State) :
    State × EspErr :=
  if slotKey index = none then (s, .invalidArg) else
  match copyCString 32 ssid, copyCString 64 password with
  | .error err, _ => (s, err)
  | .ok _, .error err => (s, err)
  | .ok ssid, .ok password =>
    if env.setConfig ≠ .ok then (s, env.setConfig) else
    let s := { s with config := some (ssid, password) }
    if env.connect ≠ .ok then (s, env.connect) else
    ({ s with currentSlot := index.toNat, state := .connecting }, .ok)

/-- `wifi_service_connect_saved_slot`. -/
def connectSavedSlot (env : Env) (index : UInt8) (s : State) : State × EspErr :=
  match nvsLoadSlot env index true s with
  | .error err => (s, err)
  | .ok (ssid, password) => connectWithCredentials env index ssid password s

/-- The `CMD_CONNECT_SLOT` case of `wifi_service_process_cmd`. -/
def processConnectSlot (env : Env) (index : UInt8) (s : State) : State :=
  let (s, err) := connectSavedSlot env index s
  if err ≠ .ok then { s with state := .disconnected, currentSlot := -1 } else s

/-! ## What they do -/

/-- The SSID a slot is listed with. -/
def slotSsid (s : State) (key : Fin wifiSlotCount) : Option Bytes :=
  (s.slots key).ssid.filter fun ssid => ssid.length < 33 && ssid != []

/-- NVS can be read, commands are queued, and the driver takes its configuration. -/
structure Works (env : Env) (s : State) : Prop where
  openRead : env.openRead = .ok
  queueAccepts : env.queueAccepts = true
  setConfig : env.setConfig = .ok
  connect : env.connect = .ok
  hasQueue : s.hasQueue = true

/-- The writes of a save succeed. -/
def Writes (env : Env) : Prop :=
  env.openWrite = .ok ∧ env.setSsid = .ok ∧ env.setPassword = .ok ∧ env.commit = .ok

theorem slotKey_ofNat (key : Fin wifiSlotCount) : slotKey (.ofNat key) = some key := by
  have hlt : (key : Nat) < 256 := key.isLt.trans (by decide)
  have htoNat : (UInt8.ofNat key).toNat = key := UInt8.toNat_ofNat_of_lt' hlt
  simp only [slotKey, htoNat, key.isLt, dif_pos, Fin.eta]

theorem slotSsid_eq_some {s : State} {key : Fin wifiSlotCount} {ssid : Bytes} :
    slotSsid s key = some ssid ↔
      (s.slots key).ssid = some ssid ∧ ssid.length < 33 ∧ ssid ≠ [] := by
  rw [slotSsid, Option.filter_eq_some_iff, Bool.and_eq_true, decide_eq_true_eq, bne_iff_ne]

theorem nvsGetStr_ne_ok (value : Option Bytes) (size : Nat) :
    nvsGetStr value size ≠ .error .ok := by
  unfold nvsGetStr
  cases value with
  | none => simp
  | some v =>
    dsimp only
    split <;> simp

/-- A load that fails says why. -/
theorem nvsLoadSlot_ne_ok (env : Env) (index : UInt8) (withPassword : Bool) (s : State) :
    nvsLoadSlot env index withPassword s ≠ .error .ok := by
  unfold nvsLoadSlot
  cases slotKey index with
  | none => simp
  | some key =>
    refine failIf_bind_ne_error_ok (fun h => by simpa using h) ?_
    refine bind_ne_error_ok (nvsGetStr_ne_ok _ _) fun ssid => ?_
    have hend (password : Bytes) : (failIf (ssid == []) .nvsNotFound >>= fun _ =>
        (.ok (ssid, password) : Except EspErr (Bytes × Bytes))) ≠ .error .ok :=
      failIf_bind_ne_error_ok (fun _ => by simp) (by simp)
    cases withPassword with
    | false => exact hend []
    | true => exact bind_ne_error_ok (nvsGetStr_ne_ok _ _) hend

/-- A slot that is listed with an SSID can be loaded. -/
theorem nvsLoadSlot_ok {env : Env} (hread : env.openRead = .ok) {index : UInt8}
    {key : Fin wifiSlotCount} (hkey : slotKey index = some key) {s : State} {ssid : Bytes}
    (hssid : slotSsid s key = some ssid) : nvsLoadSlot env index false s = .ok (ssid, []) := by
  obtain ⟨hstored, hlen, hne⟩ := slotSsid_eq_some.mp hssid
  simp [nvsLoadSlot, hkey, hread, hstored, nvsGetStr, hlen, hne, failIf, bind, Except.bind]

/-- A slot that is listed without an SSID cannot be loaded. -/
theorem nvsLoadSlot_error {env : Env} (hread : env.openRead = .ok) {index : UInt8}
    {key : Fin wifiSlotCount} (hkey : slotKey index = some key) {s : State}
    (hnone : slotSsid s key = none) : ∃ err, nvsLoadSlot env index false s = .error err := by
  cases hstored : (s.slots key).ssid with
  | none =>
    exact ⟨.nvsNotFound, by
      simp [nvsLoadSlot, hkey, hread, hstored, nvsGetStr, failIf, bind, Except.bind]⟩
  | some ssid =>
    by_cases hlen : ssid.length < 33
    · by_cases hempty : ssid = []
      · exact ⟨.nvsNotFound, by
          simp [nvsLoadSlot, hkey, hread, hstored, nvsGetStr, hempty, failIf, bind, Except.bind]⟩
      · rw [slotSsid_eq_some.mpr ⟨hstored, hlen, hempty⟩] at hnone
        cases hnone
    · exact ⟨.other 0x110C, by
        simp [nvsLoadSlot, hkey, hread, hstored, nvsGetStr, hlen, failIf, bind, Except.bind]⟩

/-- What a slot is listed as. -/
theorem slotInfo_eq {env : Env} (hread : env.openRead = .ok) (s : State)
    (key : Fin wifiSlotCount) :
    slotInfo env s key =
      { configured := (slotSsid s key).isSome
        preferred := (key : Int) == s.lastSuccessfulSlot
        active := (key : Int) == getActiveSlot s
        ssid := (slotSsid s key).getD [] } := by
  unfold slotInfo
  cases hssid : slotSsid s key with
  | some ssid =>
    rw [nvsLoadSlot_ok hread (slotKey_ofNat key) hssid]
    rfl
  | none =>
    obtain ⟨err, hload⟩ := nvsLoadSlot_error hread (slotKey_ofNat key) hssid
    rw [hload]
    rfl

/-- **A save succeeds** exactly for a valid index, an SSID and a password that fit
and writes that succeed, and then the slot holds both. -/
theorem saveSlot_ok_iff {env : Env} {index : UInt8} {ssid password : Bytes} {s t : State} :
    saveSlot env index ssid password s = (t, .ok) ↔
      ∃ key, slotKey index = some key ∧ ssid ≠ [] ∧ ssid.length < 33 ∧ password.length < 65 ∧
        Writes env ∧ t = { s with
          slots := Function.update s.slots key ⟨some ssid, some password⟩ } := by
  unfold saveSlot copyCString nvsSaveSlot Writes
  constructor
  · intro h
    split at h
    · cases h
    · next hvalid =>
      obtain ⟨hsome, hne⟩ := not_or.mp hvalid
      obtain ⟨key, hkey⟩ := Option.ne_none_iff_exists'.mp hsome
      by_cases hlen : ssid.length < 33
      · by_cases hplen : password.length < 65
        · simp only [hlen, hplen, if_true, hkey] at h
          refine ⟨key, hkey, hne, hlen, hplen, ?_⟩
          split at h
          · next hopen => exact absurd (Prod.mk.inj h).2 hopen
          · next hopen =>
            split at h
            · next hset => exact absurd (Prod.mk.inj h).2 hset
            · next hset =>
              split at h
              · next hpass => exact absurd (Prod.mk.inj h).2 hpass
              · next hpass =>
                obtain ⟨rfl, hcommit⟩ := Prod.mk.inj h
                refine ⟨⟨of_not_not hopen, of_not_not hset, of_not_not hpass, hcommit⟩, ?_⟩
                rw [Function.update_idem, Function.update_self]
        · simp only [hlen, hplen, if_true, if_false] at h
          cases h
      · simp only [hlen, if_false] at h
        cases h
  · rintro ⟨key, hkey, hne, hlen, hplen, ⟨hopen, hset, hpass, hcommit⟩, rfl⟩
    rw [if_neg (by rw [hkey]; simp [hne])]
    simp only [hlen, hplen, if_true, hkey, hopen, hset, hpass, hcommit, ne_eq, not_true, if_false,
      Function.update_idem, Function.update_self]

/-- A connect request is accepted exactly for a slot that is listed with an SSID. -/
theorem connectSlot_spec {env : Env} {s : State} (hworks : Works env s) (index : UInt8) :
    if ∃ key, slotKey index = some key ∧ (slotSsid s key).isSome = true then
      connectSlot env index s = ({ s with commands := s.commands ++ [index] }, .ok)
    else (connectSlot env index s).1 = s ∧ (connectSlot env index s).2 ≠ .ok := by
  unfold connectSlot
  cases hkey : slotKey index with
  | none =>
    rw [if_neg (by simp)]
    exact ⟨rfl, fun h => by cases h⟩
  | some key =>
    rw [hworks.hasQueue, hworks.queueAccepts]
    simp only [Option.some.injEq, exists_eq_left', reduceCtorEq, if_false, Bool.not_true,
      Bool.false_eq_true, if_true]
    cases hssid : slotSsid s key with
    | some ssid =>
      rw [nvsLoadSlot_ok hworks.openRead hkey hssid]
      rfl
    | none =>
      obtain ⟨err, hload⟩ := nvsLoadSlot_error hworks.openRead hkey hssid
      rw [hload]
      exact ⟨rfl, fun h => by cases h⟩

/-- The command connects with what the slot holds, when that fits the driver's
configuration: 31 bytes of SSID and 63 of password. -/
theorem processConnectSlot_spec {env : Env} {s : State} (hworks : Works env s) {index : UInt8}
    {key : Fin wifiSlotCount} (hkey : slotKey index = some key) {ssid password : Bytes}
    (hslot : s.slots key = ⟨some ssid, some password⟩) (hne : ssid ≠ []) (hlen : ssid.length < 33)
    (hplen : password.length < 65) :
    if ssid.length < 32 ∧ password.length < 64 then
      (processConnectSlot env index s).state = .connecting ∧
        (processConnectSlot env index s).config = some (ssid, password)
    else (processConnectSlot env index s).state = .disconnected := by
  have hload : nvsLoadSlot env index true s = .ok (ssid, password) := by
    simp [nvsLoadSlot, hkey, hworks.openRead, hslot, nvsGetStr, hlen, hplen, hne, failIf, bind,
      Except.bind]
  have hvalid : ¬ slotKey index = none := by
    rw [hkey]
    intro h
    cases h
  unfold processConnectSlot connectSavedSlot
  rw [hload]
  unfold connectWithCredentials copyCString
  by_cases hfits : ssid.length < 32
  · by_cases hpfits : password.length < 64
    · simp [hfits, hpfits, hvalid, hworks.setConfig, hworks.connect]
    · simp [hfits, hpfits, hvalid]
  · simp [hfits, hvalid]

end Jukeboy.Wifi.Slots
