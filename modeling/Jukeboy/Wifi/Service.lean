import Jukeboy.Base.Runs
import Jukeboy.Wifi.Slots

/-! # The Wi-Fi service

One function handles the commands of the API, the ticks of the reconnect timer,
the events of the driver and the answers of the DNS lookup. What the driver, NVS
and the lookup return while a message is handled is given by an environment. -/
namespace Jukeboy.Wifi.Service

open Jukeboy.Base Jukeboy.CompanionApi.Tlv
open Jukeboy.CompanionApi.ServiceHandlers (wifiSlotCount)
open Jukeboy.Wifi.Slots (StoredSlot ServiceState slotKey copyCString nvsLoadSlot)

/-- `WIFI_SVC_INVALID_SLOT`. -/
def invalidSlot : Int := -1

/-- `WIFI_REASON_ASSOC_LEAVE`. -/
def reasonAssocLeave : UInt8 := 8

/-! ## Messages, events and driver calls -/

/-- `esp_netif_ip_info_t`. -/
structure IpInfo where
  ip : UInt32
  netmask : UInt32
  gw : UInt32
deriving DecidableEq, Repr

def IpInfo.zero : IpInfo := ⟨0, 0, 0⟩

/-- `wifi_svc_msg_t`. -/
inductive Msg where
  | connectSlot (index : UInt8)
  | disconnect
  | scan
  | setAutoreconnect (enable : Bool)
  | reconnectTimer
  | reconnectNow
  | evtDisconnected (reason : UInt8)
  | evtScanDone
  | evtGotIp (info : IpInfo)
  | evtConnectivityOk
  | evtConnectivityFailed
deriving DecidableEq, Repr

/-- `wifi_svc_event_id_t` with the data posted. -/
inductive Event where
  | started
  | scanDone (results : List Bytes)
  | connecting
  | connected
  | connectivityOk
  | disconnected (reason : UInt8)
  | autoreconnectChanged (enable : Bool)
deriving DecidableEq, Repr

/-- The driver calls that change the link, with the slot a connection is for. -/
inductive LinkCall where
  | disconnect
  | connect (index : UInt8)
deriving DecidableEq, Repr

/-- `wifi_svc_expected_disconnect_t`. -/
inductive ExpectedDisconnect where
  | none
  | user
  | handoff
deriving DecidableEq, Repr

/-- What `dns_gethostbyname_addrtype` returns. -/
inductive DnsResult where
  | ok
  | inProgress
  | failed
deriving DecidableEq, Repr

/-! ## State -/

/-- What the calls made while a message is handled return: for an attempt with a
slot, for the checks of `wifi_service_build_reconnect_order`, for a write to NVS,
for the DNS lookup, for the scan records and their mutex. -/
structure Env where
  slot : UInt8 → Slots.Env
  readLast : EspErr
  readConfigured : UInt8 → EspErr
  openWrite : EspErr
  setValue : EspErr
  dns : DnsResult
  scanRecords : Except EspErr (List Bytes)
  mutexFree : Bool

/-- The static variables, what NVS holds, whether the reconnect timer runs, and
the driver calls and events so far. -/
structure State where
  slots : Fin wifiSlotCount → StoredSlot
  nvsLastSlot : Option Int
  nvsAutoreconnect : Option Bool
  config : Option (Bytes × Bytes)
  state : ServiceState
  autoreconnect : Bool
  sntpInitialised : Bool
  dnsLookupActive : Bool
  connectivityOk : Bool
  ipInfo : IpInfo
  haveIpInfo : Bool
  lastSuccessfulSlot : Int
  currentSlot : Int
  reconnectSequenceActive : Bool
  reconnectOrder : List UInt8
  reconnectOrderIndex : Nat
  expectedDisconnect : ExpectedDisconnect
  timerRunning : Bool
  scanResults : List Bytes
  calls : List LinkCall
  posted : List Event

namespace State

variable (s : State)

/-- The part of the state that the saved slots are about. -/
def saved : Slots.State where
  slots := s.slots
  lastSuccessfulSlot := s.lastSuccessfulSlot
  currentSlot := s.currentSlot
  state := s.state
  hasQueue := true
  commands := []
  config := s.config

def post (e : Event) : State := { s with posted := s.posted ++ [e] }

/-- The link is up or coming up: `WIFI_SVC_STATE_CONNECTED` or `_CONNECTING`. -/
def linked : Bool := s.state == .connected || s.state == .connecting

/-- `wifi_service_get_state`. -/
def getState : ServiceState := s.state

/-- `wifi_service_has_internet`. -/
def hasInternet : Bool := s.connectivityOk && s.state == .connected && s.haveIpInfo

/-- `wifi_service_get_active_slot`. -/
def getActiveSlot : Int := Slots.getActiveSlot s.saved

/-- `wifi_service_reset_ip_state`. -/
def resetIpState : State :=
  { s with haveIpInfo := false, dnsLookupActive := false, connectivityOk := false, ipInfo := .zero }

/-- `wifi_service_clear_reconnect_sequence`. -/
def clearReconnectSequence : State :=
  { s with reconnectSequenceActive := false, reconnectOrder := [], reconnectOrderIndex := 0 }

end State

/-! ## Connecting -/

/-- `wifi_service_connect_with_credentials`. -/
def connectWithCredentials (env : Slots.Env) (index : UInt8) (ssid password : Bytes) (s : State) :
    State × EspErr :=
  if slotKey index = none then (s, .invalidArg) else
  match copyCString 32 ssid, copyCString 64 password with
  | .error err, _ => (s, err)
  | .ok _, .error err => (s, err)
  | .ok ssid, .ok password =>
    let needHandoff := s.linked
    let s := { s with timerRunning := false }
    let s :=
      if needHandoff then
        { s with expectedDisconnect := .handoff, calls := s.calls ++ [.disconnect] }
      else { s with expectedDisconnect := .none }
    if env.setConfig ≠ .ok then (s, env.setConfig) else
    let s := { s with config := some (ssid, password), calls := s.calls ++ [.connect index] }
    if env.connect ≠ .ok then (s, env.connect) else
    (({ s with currentSlot := index.toNat, state := .connecting }.resetIpState).post .connecting, .ok)

/-- `wifi_service_connect_saved_slot`. -/
def connectSavedSlot (env : Slots.Env) (index : UInt8) (s : State) : State × EspErr :=
  match nvsLoadSlot env index true s.saved with
  | .error err => (s, err)
  | .ok (ssid, password) => connectWithCredentials env index ssid password s

/-- `wifi_service_slot_is_configured`, when the read of NVS returns `openRead`. -/
def slotIsConfigured (env : Env) (openRead : EspErr) (index : UInt8) (s : State) : Bool :=
  (nvsLoadSlot { env.slot index with openRead := openRead } index false s.saved).toOption.isSome

/-- `wifi_service_build_reconnect_order`: the last successful slot first. -/
def buildReconnectOrder (env : Env) (s : State) : List UInt8 :=
  let last : UInt8 := .ofNat s.lastSuccessfulSlot.toNat
  let first :=
    if 0 ≤ s.lastSuccessfulSlot ∧ s.lastSuccessfulSlot < wifiSlotCount ∧
        slotIsConfigured env env.readLast last s = true then [last] else []
  first ++ ((List.range wifiSlotCount).map UInt8.ofNat).filter fun index =>
    !first.contains index && slotIsConfigured env (env.readConfigured index) index s

/-- The loop of `wifi_service_try_next_reconnect_slot` over the slots left. -/
def trySlots (env : Env) : List UInt8 → State → State × EspErr
  | [], s => ({ s.clearReconnectSequence with currentSlot := invalidSlot }, .nvsNotFound)
  | index :: rest, s =>
    let s := { s with reconnectOrderIndex := s.reconnectOrderIndex + 1 }
    let (s, err) := connectSavedSlot (env.slot index) index s
    if err = .ok then (s, .ok) else trySlots env rest s

/-- `wifi_service_try_next_reconnect_slot`. -/
def tryNextReconnectSlot (env : Env) (s : State) : State × EspErr :=
  trySlots env
    (if s.reconnectSequenceActive then s.reconnectOrder.drop s.reconnectOrderIndex else []) s

/-- `wifi_service_start_reconnect_sequence`. -/
def startReconnectSequence (env : Env) (s : State) : State × EspErr :=
  let s := { s.clearReconnectSequence with timerRunning := false }
  let s := { s with reconnectOrder := buildReconnectOrder env s }
  if s.reconnectOrder.length = 0 then ({ s with currentSlot := invalidSlot }, .nvsNotFound)
  else tryNextReconnectSlot env { s with reconnectSequenceActive := true, reconnectOrderIndex := 0 }

/-! ## Connectivity -/

/-- `wifi_service_start_connectivity_test`. -/
def startConnectivityTest (env : Env) (s : State) : State :=
  if s.dnsLookupActive then s else
  let s := { s with connectivityOk := false }
  match env.dns with
  | .ok => { s with connectivityOk := true }.post .connectivityOk
  | .inProgress => { s with dnsLookupActive := true }
  | .failed => s

/-- `nvs_save_last_successful_slot`: a write that reports success takes effect. -/
def nvsSaveLastSuccessfulSlot (env : Env) (slot : Int) (s : State) : State :=
  let persisted := if 0 ≤ slot ∧ slot < wifiSlotCount then slot else invalidSlot
  if env.openWrite = .ok ∧ env.setValue = .ok then { s with nvsLastSlot := some persisted } else s

/-- `nvs_save_autoreconnect`. -/
def nvsSaveAutoreconnect (env : Env) (enable : Bool) (s : State) : State :=
  if env.openWrite = .ok ∧ env.setValue = .ok then { s with nvsAutoreconnect := some enable } else s

/-! ## The command handler -/

/-- `CMD_CONNECT_SLOT`. -/
def processConnectSlot (env : Env) (index : UInt8) (s : State) : State :=
  let (s, err) := connectSavedSlot (env.slot index) index s.clearReconnectSequence
  if err ≠ .ok then { s with state := .disconnected, currentSlot := invalidSlot } else s

/-- `CMD_DISCONNECT`. -/
def processDisconnect (s : State) : State :=
  let s := { s.clearReconnectSequence with timerRunning := false }
  let s :=
    if s.linked then { s with expectedDisconnect := .user, calls := s.calls ++ [.disconnect] }
    else { s with expectedDisconnect := .none }
  { s with state := .disconnected, currentSlot := invalidSlot }.resetIpState

/-- `CMD_SET_AUTORECONNECT`. -/
def processSetAutoreconnect (env : Env) (enable : Bool) (s : State) : State :=
  let s := { nvsSaveAutoreconnect env enable s with autoreconnect := enable }
  let s :=
    if !enable then { s with timerRunning := false }
    else if !s.linked then { s with timerRunning := true }
    else s
  s.post (.autoreconnectChanged enable)

/-- `CMD_RECONNECT_TIMER` and `CMD_RECONNECT_NOW`. -/
def processReconnect (env : Env) (now : Bool) (s : State) : State :=
  if !s.linked && (now || s.autoreconnect) then
    let (s, err) := startReconnectSequence env s
    if err ≠ .ok then
      let s := { s with state := .disconnected, currentSlot := invalidSlot }
      if s.autoreconnect then { s with timerRunning := true } else s
    else s
  else s

/-- `CMD_EVT_DISCONNECTED`. -/
def processDisconnected (env : Env) (reason : UInt8) (s : State) : State :=
  if s.expectedDisconnect ≠ .none ∧ reason = reasonAssocLeave then
    let expected := s.expectedDisconnect
    let s := { s with expectedDisconnect := .none }
    if expected = .user then s.post (.disconnected reason) else s
  else
    let s := { s with expectedDisconnect := .none, state := .disconnected }.resetIpState
    let s := s.post (.disconnected reason)
    let (s, err) :=
      if s.reconnectSequenceActive then tryNextReconnectSlot env s else (s, .nvsNotFound)
    if err = .ok then s
    else
      let s := { s with currentSlot := invalidSlot }
      if s.autoreconnect then { s with timerRunning := true } else s

/-- `CMD_EVT_SCAN_DONE`. -/
def processScanDone (env : Env) (s : State) : State :=
  let s :=
    if env.mutexFree then { s with scanResults := env.scanRecords.toOption.getD [] } else s
  let s := if s.state = .scanning then { s with state := .disconnected } else s
  s.post (.scanDone s.scanResults)

/-- `CMD_EVT_GOT_IP`. -/
def processGotIp (env : Env) (info : IpInfo) (s : State) : State :=
  let s := { s with
    ipInfo := info, haveIpInfo := true, state := .connected
    expectedDisconnect := .none }.clearReconnectSequence
  let s :=
    if 0 ≤ s.currentSlot ∧ s.currentSlot < (wifiSlotCount : Int) then
      nvsSaveLastSuccessfulSlot env s.currentSlot { s with lastSuccessfulSlot := s.currentSlot }
    else s
  let s := { s with timerRunning := false }.post .connected
  { startConnectivityTest env s with sntpInitialised := true }

/-- `wifi_service_process_cmd`. -/
def processCmd (env : Env) (msg : Msg) (s : State) : State :=
  match msg with
  | .connectSlot index => processConnectSlot env index s
  | .disconnect => processDisconnect s
  | .scan => { s with state := .scanning }
  | .setAutoreconnect enable => processSetAutoreconnect env enable s
  | .reconnectTimer => processReconnect env false s
  | .reconnectNow => processReconnect env true s
  | .evtDisconnected reason => processDisconnected env reason s
  | .evtScanDone => processScanDone env s
  | .evtGotIp info => processGotIp env info s
  | .evtConnectivityOk =>
    { s with dnsLookupActive := false, connectivityOk := true }.post .connectivityOk
  | .evtConnectivityFailed => { s with dnsLookupActive := false, connectivityOk := false }

/-- `wifi_service_save_slot`, which other tasks call. -/
def saveSlot (env : Slots.Env) (index : UInt8) (ssid password : Bytes) (s : State) : State :=
  { s with slots := (Slots.saveSlot env index ssid password s.saved).1.slots }

/-- A message is handled, or another task saves a slot. -/
inductive Step where
  | handle (env : Env) (msg : Msg)
  | save (env : Slots.Env) (index : UInt8) (ssid password : Bytes)

def step (s : State) : Step → State
  | .handle env msg => processCmd env msg s
  | .save env index ssid password => saveSlot env index ssid password s

def run (s : State) (steps : List Step) : State := steps.foldl step s

/-- The service as a transition system: no step is ever refused. -/
def next (s : State) (x : Step) : Option State := some (step s x)

theorem run_append (s : State) (xs ys : List Step) : run s (xs ++ ys) = run (run s xs) ys :=
  List.foldl_append

/-! ## Start-up -/

/-- What NVS returns to `wifi_service_init`. -/
structure Nvs where
  slots : Fin wifiSlotCount → StoredSlot
  lastSlot : Option Int
  autoreconnect : Option Bool
  readAutoreconnect : EspErr
  readLastSlot : EspErr

/-- `nvs_load_autoreconnect`. -/
def nvsLoadAutoreconnect (nvs : Nvs) : Bool :=
  if nvs.readAutoreconnect ≠ .ok then true else nvs.autoreconnect.getD true

/-- `nvs_load_last_successful_slot`. -/
def nvsLoadLastSuccessfulSlot (nvs : Nvs) : Int :=
  if nvs.readLastSlot ≠ .ok then invalidSlot
  else
    let slot := nvs.lastSlot.getD invalidSlot
    if slot < 0 ∨ slot ≥ wifiSlotCount then invalidSlot else slot

/-- `wifi_service_init` up to its boot-time connection. -/
def started (nvs : Nvs) : State where
  slots := nvs.slots
  nvsLastSlot := nvs.lastSlot
  nvsAutoreconnect := nvs.autoreconnect
  config := none
  state := .idle
  autoreconnect := nvsLoadAutoreconnect nvs
  sntpInitialised := false
  dnsLookupActive := false
  connectivityOk := false
  ipInfo := .zero
  haveIpInfo := false
  lastSuccessfulSlot := nvsLoadLastSuccessfulSlot nvs
  currentSlot := invalidSlot
  reconnectSequenceActive := false
  reconnectOrder := []
  reconnectOrderIndex := 0
  expectedDisconnect := .none
  timerRunning := false
  scanResults := []
  calls := []
  posted := [.started]

/-- `wifi_service_init` whose driver calls succeed. -/
def init (nvs : Nvs) (env : Env) : State :=
  if (started nvs).autoreconnect then (startReconnectSequence env (started nvs)).1 else started nvs

/-! ## A device with one saved slot -/

/-- Every call succeeds, and the name is looked up in the background. -/
def Env.fine : Env where
  slot _ := ⟨.ok, .ok, .ok, .ok, .ok, true, .ok, .ok⟩
  readLast := .ok
  readConfigured _ := .ok
  openWrite := .ok
  setValue := .ok
  dns := .inProgress
  scanRecords := .ok []
  mutexFree := true

/-- One network in slot 0, which was used last. -/
def Nvs.home : Nvs where
  slots key := if key = 0 then ⟨some [104], some [112]⟩ else ⟨none, none⟩
  lastSlot := some 0
  autoreconnect := some true
  readAutoreconnect := .ok
  readLastSlot := .ok

/-- The device after its first address and a successful connectivity test. -/
def online : State :=
  run (init .home .fine)
    [.handle .fine (.evtGotIp ⟨1, 2, 3⟩), .handle .fine .evtConnectivityOk]

end Jukeboy.Wifi.Service
