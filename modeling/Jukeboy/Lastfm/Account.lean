import Mathlib.Data.List.Infix
import Jukeboy.Base.Fallible
import Jukeboy.Base.Runs
import Jukeboy.Lastfm.HttpResponse
import Jukeboy.Wifi.Slots

/-! # The Last.fm account

The base URL, the token, the session and the two switches live in memory and in NVS.
Every task may call the service; a call gives up the processor where it waits for the NVS
task or for the HTTP client, and other calls go on there. -/
namespace Jukeboy.Lastfm.Account
open Jukeboy.Base Jukeboy.Lastfm.HttpResponse
open Jukeboy.CompanionApi.Tlv (Bytes ascii cString)

/-- `LASTFM_SERVICE_AUTH_URL_MAX_LEN`, which is also the bound of the token, the session
key and the username. -/
abbrev maxLen : Nat := 127

/-- `strncpy` into an array of `maxLen + 1` bytes, with the terminator stored behind it. -/
def copyString (src : Bytes) : Bytes := src.take maxLen

/-! ## NVS -/

/-- The keys of the namespace: `auth_url`, `token`, `sk`, `username`, `scrobble_en` and
`nowplay_en`. -/
inductive Key where
  | authUrl | token | sessionKey | username | scrobblingEnabled | nowPlayingEnabled
deriving DecidableEq, Repr

/-- The entries of the namespace, by type. -/
structure Nvs where
  str : Key → Option Bytes
  i32 : Key → Option Int

/-- What the calls into NVS return while one request is served; a commit is named by the
key written before it. That a key is missing is not a failure. -/
structure Io where
  openHandle : EspErr
  get : Key → EspErr
  set : Key → EspErr
  erase : Key → EspErr
  commit : Key → EspErr
  get_ne : ∀ key, get key ≠ .nvsNotFound
  erase_ne : ∀ key, erase key ≠ .nvsNotFound

abbrev NvsCall := Fallible Nvs EspErr

/-- Go on when a call returned `ESP_OK`. -/
def check (err : EspErr) : NvsCall Unit := if err = .ok then pure () else Fallible.fail err

def nvsSetStr (io : Io) (key : Key) (value : Bytes) : NvsCall Unit := do
  check (io.set key)
  Fallible.modify fun nvs => { nvs with str := Function.update nvs.str key (some value) }

def nvsSetI32 (io : Io) (key : Key) (value : Int) : NvsCall Unit := do
  check (io.set key)
  Fallible.modify fun nvs => { nvs with i32 := Function.update nvs.i32 key (some value) }

/-- `nvs_get_str_or_init`, with an empty default. -/
def nvsGetStrOrInit (io : Io) (key : Key) : NvsCall Bytes := do
  check (io.get key)
  let nvs ← Fallible.get
  match Wifi.Slots.nvsGetStr (nvs.str key) (maxLen + 1) with
  | .ok value => pure value
  | .error err =>
    if err = .nvsNotFound then do
      nvsSetStr io key []
      check (io.commit key)
      pure []
    else Fallible.fail err

/-- `nvs_get_i32_or_init`, with 1 as the default. -/
def nvsGetI32OrInit (io : Io) (key : Key) : NvsCall Int := do
  check (io.get key)
  let nvs ← Fallible.get
  match nvs.i32 key with
  | some value => pure value
  | none => do
    nvsSetI32 io key 1
    check (io.commit key)
    pure 1

/-- `lastfm_service_nvs_erase_key_if_present`. -/
def nvsEraseKeyIfPresent (io : Io) (key : Key) : NvsCall Unit := do
  check (io.erase key)
  Fallible.modify fun nvs => { nvs with str := Function.update nvs.str key none }

/-- `lastfm_nvs_state_t`. -/
structure NvsState where
  authUrl : Bytes
  token : Bytes
  sessionKey : Bytes
  username : Bytes
  scrobblingEnabled : Int
  nowPlayingEnabled : Int
deriving DecidableEq, Repr

/-- `lastfm_nvs_request_t`, but for the one that loads the state. -/
inductive Request where
  | storeAuthUrl (value : Bytes)
  | storeToken (value : Bytes)
  | storeSession (sessionKey username : Bytes)
  | storeI32 (key : Key) (value : Int)
  | clearSession
deriving DecidableEq, Repr

/-- `LASTFM_NVS_CMD_LOAD_STATE` in `lastfm_service_process_nvs_request`. -/
def loadState (io : Io) : NvsCall NvsState := do
  check io.openHandle
  let authUrl ← nvsGetStrOrInit io .authUrl
  let sessionKey ← nvsGetStrOrInit io .sessionKey
  let token ← nvsGetStrOrInit io .token
  let username ← nvsGetStrOrInit io .username
  let scrobblingEnabled ← nvsGetI32OrInit io .scrobblingEnabled
  let nowPlayingEnabled ← nvsGetI32OrInit io .nowPlayingEnabled
  pure { authUrl, token, sessionKey, username, scrobblingEnabled, nowPlayingEnabled }

/-- The other commands of `lastfm_service_process_nvs_request`, the handle being open. -/
def store (io : Io) : Request → NvsCall Unit
  | .storeAuthUrl value => do
    nvsSetStr io .authUrl value
    check (io.commit .authUrl)
  | .storeToken value => do
    nvsSetStr io .token value
    check (io.commit .token)
  | .storeSession sessionKey username => do
    nvsSetStr io .sessionKey sessionKey
    nvsSetStr io .username username
    check (io.commit .username)
  | .storeI32 key value => do
    nvsSetI32 io key value
    check (io.commit key)
  | .clearSession => do
    nvsEraseKeyIfPresent io .sessionKey
    nvsEraseKeyIfPresent io .username
    nvsEraseKeyIfPresent io .token
    check (io.commit .token)

/-- `lastfm_service_process_nvs_request`: what it leaves, and what it returns. -/
def processNvsRequest (io : Io) (request : Request) (nvs : Nvs) : Nvs × EspErr :=
  let (result, nvs) := (check io.openHandle >>= fun _ => store io request) nvs
  match result with
  | .ok () => (nvs, .ok)
  | .error err => (nvs, err)

/-! ## The state -/

/-- The globals of the account. -/
structure Ram where
  authUrl : Bytes
  token : Bytes
  sessionKey : Bytes
  username : Bytes
  hasAuth : Bool
  hasToken : Bool
  hasSession : Bool
  scrobblingEnabled : Bool
  nowPlayingEnabled : Bool
deriving DecidableEq, Repr

/-- What the globals are initialised to. -/
def Ram.init : Ram := ⟨[], [], [], [], false, false, false, true, true⟩

/-- `lastfm_service_load_persisted_state`, the state being read. -/
def Ram.load (persisted : NvsState) : Ram where
  authUrl := copyString persisted.authUrl
  token := copyString persisted.token
  sessionKey := copyString persisted.sessionKey
  username := copyString persisted.username
  hasAuth := copyString persisted.authUrl != []
  hasToken := copyString persisted.token != []
  hasSession := copyString persisted.sessionKey != []
  scrobblingEnabled := persisted.scrobblingEnabled != 0
  nowPlayingEnabled := persisted.nowPlayingEnabled != 0

/-- The calls of the service's interface that change the account. -/
inductive Call where
  | setAuthUrl (url : Bytes)
  | requestToken
  | requestAuth (username : Bytes)
  | logout
  | setScrobblingEnabled (enabled : Bool)
  | setNowPlayingEnabled (enabled : Bool)
deriving DecidableEq, Repr

/-- What a call that waits for the NVS task does when it is answered. -/
inductive Pending where
  | setAuthUrl (normalizedUrl : Bytes)
  | token
  | session (username : Bytes)
  | logout
  | scrobbling (enabled : Bool)
  | nowPlaying (enabled : Bool)
deriving DecidableEq, Repr

/-- The two methods that are asked of the server. -/
inductive Method where
  | getToken
  | getMobileSession (username : Bytes)
deriving DecidableEq, Repr

/-- `LASTFM_SERVICE_URL_GET_TOKEN_PATH` and `LASTFM_SERVICE_URL_GET_MOBILE_SESSION_PATH`. -/
def Method.path : Method → Bytes
  | .getToken => ascii "/lastfm/auth.getToken"
  | .getMobileSession _ => ascii "/lastfm/auth.getMobileSession"

/-- Where a task is: in no call, waiting for the HTTP client, waiting for the NVS task, or
answered by it. -/
inductive Pc where
  | idle (returned : Option EspErr)
  | performing (url : Bytes) (method : Method)
  | storing (request : Request) (pending : Pending)
  | served (err : EspErr) (pending : Pending)
deriving DecidableEq, Repr

/-- `hasQueue` says whether `lastfm_nvs_cmd_queue` is there. -/
structure State where
  ram : Ram
  nvs : Nvs
  hasQueue : Bool
  callers : Nat → Pc

/-- A new device, before `lastfm_service_init`. -/
def State.blank : State := ⟨.init, ⟨fun _ => none, fun _ => none⟩, false, fun _ => .idle none⟩

def State.goTo (s : State) (caller : Nat) (pc : Pc) : State :=
  { s with callers := Function.update s.callers caller pc }

theorem State.goTo_self (s : State) (caller : Nat) (pc : Pc) :
    (s.goTo caller pc).callers caller = pc := Function.update_self ..

theorem State.goTo_of_ne (s : State) {caller other : Nat} (h : other ≠ caller) (pc : Pc) :
    (s.goTo caller pc).callers other = s.callers other := Function.update_of_ne h ..

/-! ## The calls -/

/-- What decides whether a call gets to where it waits. -/
structure Env where
  online : Bool
  semaphore : Bool
  json : Bool
  client : Bool

/-- `lastfm_service_dispatch_nvs_request`, up to the wait. -/
def dispatchNvsRequest (s : State) (caller : Nat) (semaphore : Bool) (request : Request)
    (pending : Pending) : State :=
  if !s.hasQueue then s.goTo caller (.served .invalidState pending)
  else if !semaphore then s.goTo caller (.served .noMem pending)
  else s.goTo caller (.storing request pending)

/-- `snprintf` into an array of `size` bytes, and the check of what it returned. -/
def snprintf (size : Nat) (text : Bytes) : Except EspErr Bytes :=
  if text.length ≥ size then .error .invalidSize else .ok text

/-- `lastfm_service_normalize_base_url`. -/
def normalizeBaseUrl (baseUrl : Bytes) : Except EspErr Bytes :=
  if baseUrl = [] then .error .invalidArg
  else if ascii "://" <:+: baseUrl then
    if ¬ ascii "http://" <+: baseUrl ∧ ¬ ascii "https://" <+: baseUrl then .error .invalidArg
    else snprintf (maxLen + 1) baseUrl
  else snprintf (maxLen + 1) (ascii "https://" ++ baseUrl)

/-- `lastfm_service_request_token` and `lastfm_service_request_auth`, up to
`esp_http_client_perform`. -/
def request (s : State) (caller : Nat) (env : Env) (method : Method) (encodes : Bool) : State :=
  if !s.ram.hasAuth then s.goTo caller (.idle (some .invalidState))
  else if !env.online then s.goTo caller (.idle (some .invalidState))
  else if encodes && !env.json then s.goTo caller (.idle (some .noMem))
  else if !env.client then s.goTo caller (.idle (some .fail))
  else s.goTo caller (.performing ((s.ram.authUrl ++ method.path).take 255) method)

/-- A call, up to where it waits or returns. -/
def call (s : State) (caller : Nat) (env : Env) : Call → State
  | .setAuthUrl url =>
    match normalizeBaseUrl url with
    | .error err => s.goTo caller (.idle (some err))
    | .ok normalizedUrl =>
      dispatchNvsRequest s caller env.semaphore (.storeAuthUrl (copyString normalizedUrl))
        (.setAuthUrl normalizedUrl)
  | .requestToken => request s caller env .getToken false
  | .requestAuth username => request s caller env (.getMobileSession username) true
  | .logout => dispatchNvsRequest s caller env.semaphore .clearSession .logout
  | .setScrobblingEnabled enabled =>
    dispatchNvsRequest s caller env.semaphore
      (.storeI32 .scrobblingEnabled (if enabled then 1 else 0)) (.scrobbling enabled)
  | .setNowPlayingEnabled enabled =>
    dispatchNvsRequest s caller env.semaphore
      (.storeI32 .nowPlayingEnabled (if enabled then 1 else 0)) (.nowPlaying enabled)

/-- What `esp_http_client_perform` returns and reports, and the status code. -/
structure Response where
  err : EspErr
  status : Int
  events : List Event

/-- What `cJSON_Parse` finds in a text: the string `token`, and the string `key` of the
object `session`. -/
structure Json where
  token : Bytes → Option Bytes
  sessionKey : Bytes → Option Bytes

def Json.find (json : Json) : Method → Bytes → Option Bytes
  | .getToken => json.token
  | .getMobileSession _ => json.sessionKey

/-- The error of a request, that of the HTTP client or that of the buffer. -/
def performed (response : Response) (buffer : Buffer) : EspErr :=
  if response.err = .ok ∧ buffer.err ≠ .ok then buffer.err else response.err

/-- What a call makes of a response: the string asked for, or the error it returns. -/
def received (json : Json) (method : Method) (response : Response) (buffer : Buffer) :
    Except EspErr Bytes :=
  if performed response buffer ≠ .ok then .error (performed response buffer)
  else if response.status ≠ 200 then .error .fail
  else
    match buffer.data with
    | some data =>
      if buffer.length > 0 then
        match json.find method (cString data) with
        | some value => .ok value
        | none => .error .invalidResponse
      else .error .invalidResponse
    | none => .error .invalidResponse

/-- The rest of `lastfm_service_request_token` and `lastfm_service_request_auth`, up to the
wait for the NVS task. -/
def respond (s : State) (caller : Nat) (semaphore : Bool) (method : Method) :
    Except EspErr Bytes → State
  | .error err => s.goTo caller (.idle (some err))
  | .ok value =>
    match method with
    | .getToken =>
      let ram := { s.ram with token := copyString value, hasToken := true }
      dispatchNvsRequest { s with ram } caller semaphore (.storeToken (copyString ram.token)) .token
    | .getMobileSession username =>
      let ram := { s.ram with sessionKey := copyString value, hasSession := true }
      dispatchNvsRequest { s with ram } caller semaphore
        (.storeSession (copyString value) (copyString username)) (.session username)

/-- The end of a call that the NVS task has answered with this error. -/
def Pending.finish (err : EspErr) (ram : Ram) : Pending → Ram × EspErr
  | .setAuthUrl normalizedUrl =>
    if err = .ok then ({ ram with authUrl := copyString normalizedUrl, hasAuth := true }, .ok)
    else (ram, err)
  | .token => (ram, .ok)
  | .session username => ({ ram with username := copyString username }, .ok)
  | .logout =>
    if err = .ok then
      ({ ram with sessionKey := [], username := [], token := [], hasSession := false
                  hasToken := false }, .ok)
    else (ram, err)
  | .scrobbling enabled =>
    if err = .ok then ({ ram with scrobblingEnabled := enabled }, .ok) else (ram, err)
  | .nowPlaying enabled =>
    if err = .ok then ({ ram with nowPlayingEnabled := enabled }, .ok) else (ram, err)

/-- A reset of the device and `lastfm_service_init`: whether it gets the timers and the NVS
task, and whether it gets its own task. -/
def restart (s : State) (io : Io) (proxy started : Bool) : State :=
  let callers := fun _ => .idle none
  if !proxy then ⟨.init, s.nvs, false, callers⟩
  else
    let (persisted, nvs) := loadState io s.nvs
    match persisted with
    | .error _ => ⟨.init, nvs, false, callers⟩
    | .ok persisted => ⟨.load persisted, nvs, started, callers⟩

/-- What happens next: a task calls, the HTTP client comes back, the NVS task serves a
request, the task that waits for it goes on, or the device restarts. -/
inductive Action where
  | call (caller : Nat) (call : Call) (env : Env)
  | perform (caller : Nat) (response : Response) (semaphore : Bool)
  | serve (caller : Nat) (io : Io)
  | resume (caller : Nat)
  | restart (io : Io) (proxy started : Bool)

def step (json : Json) (s : State) : Action → Option State
  | .call caller c env =>
    match s.callers caller with
    | .idle _ => some (call s caller env c)
    | _ => none
  | .perform caller response semaphore =>
    match s.callers caller with
    | .performing _ method => do
      let buffer ← handleAll .init response.events
      pure (respond s caller semaphore method (received json method response buffer))
    | _ => none
  | .serve caller io =>
    match s.callers caller with
    | .storing request pending =>
      let (nvs, err) := processNvsRequest io request s.nvs
      some ({ s with nvs }.goTo caller (.served err pending))
    | _ => none
  | .resume caller =>
    match s.callers caller with
    | .served err pending =>
      let (ram, returned) := pending.finish err s.ram
      some ({ s with ram }.goTo caller (.idle (some returned)))
    | _ => none
  | .restart io proxy started => some (restart s io proxy started)

/-! ## What every state is -/

/-- A base URL that requests can be sent to. -/
structure BaseUrl (url : Bytes) : Prop where
  length : url.length ≤ maxLen
  scheme : ascii "http://" <+: url ∨ ascii "https://" <+: url

theorem BaseUrl.ne_nil {url : Bytes} (h : BaseUrl url) : url ≠ [] := by
  rintro rfl
  rcases h.scheme with hs | hs
  · exact absurd (List.prefix_nil.mp hs) (by decide)
  · exact absurd (List.prefix_nil.mp hs) (by decide)

/-- What may be stored under a key. -/
def Allowed (key : Key) (value : Bytes) : Prop :=
  value.length ≤ maxLen ∧ (key = .authUrl → value = [] ∨ BaseUrl value)

theorem allowed_nil (key : Key) : Allowed key [] := ⟨Nat.zero_le _, fun _ => .inl rfl⟩

theorem length_copyString (src : Bytes) : (copyString src).length ≤ maxLen := by
  rw [copyString, List.length_take]
  exact Nat.min_le_left ..

theorem copyString_of_le {src : Bytes} (h : src.length ≤ maxLen) : copyString src = src :=
  List.take_of_length_le h

theorem allowed_copyString {key : Key} (hkey : key ≠ .authUrl) (src : Bytes) :
    Allowed key (copyString src) := ⟨length_copyString src, fun h => absurd h hkey⟩

theorem BaseUrl.allowed {url : Bytes} (h : BaseUrl url) (key : Key) : Allowed key url :=
  ⟨h.length, fun _ => .inr h⟩

/-- `lastfm_service_normalize_base_url` makes base URLs. -/
theorem normalizeBaseUrl_spec {url normalizedUrl : Bytes}
    (h : normalizeBaseUrl url = .ok normalizedUrl) : BaseUrl normalizedUrl := by
  have hprint : ∀ {text out : Bytes}, snprintf (maxLen + 1) text = .ok out →
      out = text ∧ text.length ≤ maxLen := by
    intro text out htext
    unfold snprintf at htext
    split at htext
    · cases htext
    · next hlen =>
      cases htext
      exact ⟨rfl, by omega⟩
  unfold normalizeBaseUrl at h
  split at h
  · cases h
  · split at h
    · split at h
      · cases h
      · next hscheme =>
        obtain ⟨rfl, hlen⟩ := hprint h
        refine ⟨hlen, ?_⟩
        by_contra hneither
        exact hscheme (not_or.mp hneither)
    · obtain ⟨rfl, hlen⟩ := hprint h
      exact ⟨hlen, .inr (List.prefix_append ..)⟩

namespace Nvs

/-- Every string is one that the service may have stored. -/
def WellFormed (nvs : Nvs) : Prop := ∀ key value, nvs.str key = some value → Allowed key value

theorem WellFormed.update {nvs : Nvs} (h : nvs.WellFormed) {key : Key} {value : Option Bytes}
    (hvalue : ∀ v, value = some v → Allowed key v) :
    WellFormed { nvs with str := Function.update nvs.str key value } := by
  intro other found hfound
  by_cases hother : other = key
  · subst hother
    exact hvalue found (by simpa using hfound)
  · exact h other found (by simpa [Function.update_of_ne hother] using hfound)

end Nvs

structure Ram.WellFormed (ram : Ram) : Prop where
  authUrl : Allowed .authUrl ram.authUrl
  token : Allowed .token ram.token
  sessionKey : Allowed .sessionKey ram.sessionKey
  username : Allowed .username ram.username
  hasAuth : ram.hasAuth = true ↔ ram.authUrl ≠ []
  hasToken : ram.hasToken = false → ram.token = []
  hasSession : ram.hasSession = false → ram.sessionKey = []

def Request.WellFormed : Request → Prop
  | .storeAuthUrl value => Allowed .authUrl value
  | .storeToken value => Allowed .token value
  | .storeSession sessionKey username => Allowed .sessionKey sessionKey ∧ Allowed .username username
  | .storeI32 _ _ => True
  | .clearSession => True

def Pending.WellFormed : Pending → Prop
  | .setAuthUrl normalizedUrl => BaseUrl normalizedUrl
  | _ => True

def Pc.WellFormed : Pc → Prop
  | .idle _ => True
  | .performing url method => ∃ base, BaseUrl base ∧ url = base ++ method.path
  | .storing request pending => request.WellFormed ∧ pending.WellFormed
  | .served _ pending => pending.WellFormed

structure State.WellFormed (s : State) : Prop where
  ram : s.ram.WellFormed
  nvs : s.nvs.WellFormed
  callers : ∀ caller, (s.callers caller).WellFormed

theorem wellFormed_init : Ram.init.WellFormed where
  authUrl := allowed_nil _
  token := allowed_nil _
  sessionKey := allowed_nil _
  username := allowed_nil _
  hasAuth := by decide
  hasToken _ := rfl
  hasSession _ := rfl

theorem wellFormed_blank : State.blank.WellFormed where
  ram := wellFormed_init
  nvs _ _ h := by cases h
  callers _ := trivial

/-! ## The calls into NVS -/

section
variable (io : Io)

theorem maintains_check {I : Nvs → Prop} (err : EspErr) :
    Fallible.Maintains I (check err) fun _ => True := by
  unfold check
  split
  · exact Fallible.maintains_pure trivial
  · exact Fallible.maintains_fail

theorem maintains_nvsSetStr {key : Key} {value : Bytes} (h : Allowed key value) :
    Fallible.Maintains Nvs.WellFormed (nvsSetStr io key value) fun _ => True := by
  refine (maintains_check _).bind fun _ _ => Fallible.maintains_modify fun nvs hnvs => ?_
  refine hnvs.update fun v hv => ?_
  cases hv
  exact h

theorem maintains_nvsSetI32 (key : Key) (value : Int) :
    Fallible.Maintains Nvs.WellFormed (nvsSetI32 io key value) fun _ => True :=
  (maintains_check _).bind fun _ _ => Fallible.maintains_modify fun _ hnvs => hnvs

theorem maintains_nvsEraseKeyIfPresent (key : Key) :
    Fallible.Maintains Nvs.WellFormed (nvsEraseKeyIfPresent io key) fun _ => True := by
  refine (maintains_check _).bind fun _ _ => Fallible.maintains_modify fun nvs hnvs => ?_
  refine hnvs.update fun v hv => ?_
  cases hv

theorem nvsGetStr_ok {value : Option Bytes} {size : Nat} {found : Bytes}
    (h : Wifi.Slots.nvsGetStr value size = .ok found) : value = some found := by
  cases value with
  | none => cases h
  | some v =>
    unfold Wifi.Slots.nvsGetStr at h
    simp only at h
    split at h
    · rw [Except.ok.inj h]
    · cases h

theorem maintains_nvsGetStrOrInit (key : Key) :
    Fallible.Maintains Nvs.WellFormed (nvsGetStrOrInit io key) (Allowed key) := by
  refine (maintains_check _).bind fun _ _ => Fallible.maintains_get.bind fun nvs hnvs => ?_
  cases hget : Wifi.Slots.nvsGetStr (nvs.str key) (maxLen + 1) with
  | ok value => exact Fallible.maintains_pure (hnvs key value (nvsGetStr_ok hget))
  | error err =>
    simp only
    split
    · exact (maintains_nvsSetStr io (allowed_nil key)).bind fun _ _ =>
        (maintains_check _).bind fun _ _ => Fallible.maintains_pure (allowed_nil key)
    · exact Fallible.maintains_fail

theorem maintains_nvsGetI32OrInit (key : Key) :
    Fallible.Maintains Nvs.WellFormed (nvsGetI32OrInit io key) fun _ => True := by
  refine (maintains_check _).bind fun _ _ => Fallible.maintains_get.bind fun nvs _ => ?_
  cases nvs.i32 key with
  | some value => exact Fallible.maintains_pure trivial
  | none =>
    exact (maintains_nvsSetI32 io key 1).bind fun _ _ =>
      (maintains_check _).bind fun _ _ => Fallible.maintains_pure trivial

theorem maintains_loadState :
    Fallible.Maintains Nvs.WellFormed (loadState io) fun persisted =>
      Allowed .authUrl persisted.authUrl ∧ Allowed .token persisted.token ∧
        Allowed .sessionKey persisted.sessionKey ∧ Allowed .username persisted.username := by
  refine (maintains_check _).bind fun _ _ => ?_
  refine (maintains_nvsGetStrOrInit io _).bind fun authUrl hauthUrl => ?_
  refine (maintains_nvsGetStrOrInit io _).bind fun sessionKey hsessionKey => ?_
  refine (maintains_nvsGetStrOrInit io _).bind fun token htoken => ?_
  refine (maintains_nvsGetStrOrInit io _).bind fun username husername => ?_
  refine (maintains_nvsGetI32OrInit io _).bind fun scrobblingEnabled _ => ?_
  refine (maintains_nvsGetI32OrInit io _).bind fun nowPlayingEnabled _ => ?_
  exact Fallible.maintains_pure ⟨hauthUrl, htoken, hsessionKey, husername⟩

theorem maintains_store {request : Request} (h : request.WellFormed) :
    Fallible.Maintains Nvs.WellFormed (store io request) fun _ => True := by
  cases request with
  | storeAuthUrl value =>
    exact (maintains_nvsSetStr io h).bind fun _ _ => maintains_check _
  | storeToken value =>
    exact (maintains_nvsSetStr io h).bind fun _ _ => maintains_check _
  | storeSession sessionKey username =>
    exact (maintains_nvsSetStr io h.1).bind fun _ _ =>
      (maintains_nvsSetStr io h.2).bind fun _ _ => maintains_check _
  | storeI32 key value =>
    exact (maintains_nvsSetI32 io key value).bind fun _ _ => maintains_check _
  | clearSession =>
    exact (maintains_nvsEraseKeyIfPresent io _).bind fun _ _ =>
      (maintains_nvsEraseKeyIfPresent io _).bind fun _ _ =>
        (maintains_nvsEraseKeyIfPresent io _).bind fun _ _ => maintains_check _

end

/-! ## The steps -/

/-- What the commands keep, the NVS task keeps. -/
theorem processNvsRequest_maintains {I : Nvs → Prop} {io : Io} {request : Request} {nvs : Nvs}
    (hstore : Fallible.Maintains I (store io request) fun _ => True) (hnvs : I nvs) :
    I (processNvsRequest io request nvs).1 := by
  have hkept := ((maintains_check io.openHandle).bind fun _ _ => hstore) nvs hnvs
  unfold processNvsRequest
  split
  next result after hrun =>
    rw [hrun] at hkept
    cases result with
    | ok value => exact hkept.1
    | error err => exact hkept.1

theorem wellFormed_processNvsRequest {io : Io} {request : Request} {nvs : Nvs}
    (hrequest : request.WellFormed) (hnvs : nvs.WellFormed) :
    (processNvsRequest io request nvs).1.WellFormed :=
  processNvsRequest_maintains (maintains_store io hrequest) hnvs

theorem wellFormed_load {persisted : NvsState} (hauthUrl : Allowed .authUrl persisted.authUrl) :
    (Ram.load persisted).WellFormed where
  authUrl := by rw [Ram.load, copyString_of_le hauthUrl.1]; exact hauthUrl
  token := allowed_copyString (by decide) _
  sessionKey := allowed_copyString (by decide) _
  username := allowed_copyString (by decide) _
  hasAuth := by simp [Ram.load]
  hasToken h := by simpa [Ram.load] using h
  hasSession h := by simpa [Ram.load] using h

namespace State.WellFormed
variable {s : State} {caller : Nat}

theorem goTo (h : s.WellFormed) {pc : Pc} (hpc : pc.WellFormed) :
    (s.goTo caller pc).WellFormed where
  ram := h.ram
  nvs := h.nvs
  callers other := by
    by_cases hother : other = caller
    · rw [hother, State.goTo_self]
      exact hpc
    · rw [State.goTo_of_ne s hother]
      exact h.callers other

theorem dispatchNvsRequest (h : s.WellFormed) {semaphore : Bool} {request : Request}
    {pending : Pending} (hrequest : request.WellFormed) (hpending : pending.WellFormed) :
    (dispatchNvsRequest s caller semaphore request pending).WellFormed := by
  unfold Account.dispatchNvsRequest
  split
  · exact h.goTo hpending
  · split
    · exact h.goTo hpending
    · exact h.goTo ⟨hrequest, hpending⟩

theorem length_path (method : Method) : method.path.length ≤ 29 := by
  have htoken : Method.getToken.path.length ≤ 29 := by decide +kernel
  have hsession : (ascii "/lastfm/auth.getMobileSession").length ≤ 29 := by decide +kernel
  cases method with
  | getToken => exact htoken
  | getMobileSession username => exact hsession

/-- A request is sent to a whole URL. -/
theorem request (h : s.WellFormed) {env : Env} {method : Method} {encodes : Bool} :
    (Account.request s caller env method encodes).WellFormed := by
  unfold Account.request
  split
  · exact h.goTo trivial
  · next hauth =>
    split
    · exact h.goTo trivial
    · split
      · exact h.goTo trivial
      · split
        · exact h.goTo trivial
        · have hset : s.ram.authUrl ≠ [] := h.ram.hasAuth.mp (by simpa using hauth)
          have hbase : BaseUrl s.ram.authUrl := (h.ram.authUrl.2 rfl).resolve_left hset
          refine h.goTo ⟨s.ram.authUrl, hbase, List.take_of_length_le ?_⟩
          have hpath := length_path method
          have hurl : s.ram.authUrl.length ≤ 127 := hbase.length
          rw [List.length_append]
          omega

theorem call (h : s.WellFormed) {env : Env} (c : Call) :
    (Account.call s caller env c).WellFormed := by
  cases c with
  | setAuthUrl url =>
    cases hnormal : normalizeBaseUrl url with
    | error err =>
      simp only [Account.call, hnormal]
      exact h.goTo trivial
    | ok normalizedUrl =>
      have hbase := normalizeBaseUrl_spec hnormal
      simp only [Account.call, hnormal, copyString_of_le hbase.length]
      exact h.dispatchNvsRequest (hbase.allowed _) hbase
  | requestToken => exact h.request
  | requestAuth username => exact h.request
  | logout => exact h.dispatchNvsRequest trivial trivial
  | setScrobblingEnabled enabled => exact h.dispatchNvsRequest trivial trivial
  | setNowPlayingEnabled enabled => exact h.dispatchNvsRequest trivial trivial

theorem respond (h : s.WellFormed) {semaphore : Bool} {method : Method}
    (received : Except EspErr Bytes) :
    (Account.respond s caller semaphore method received).WellFormed := by
  cases received with
  | error err => exact h.goTo trivial
  | ok value =>
    cases method with
    | getToken =>
      have hram : Ram.WellFormed { s.ram with token := copyString value, hasToken := true } :=
        ⟨h.ram.authUrl, allowed_copyString (by decide) _, h.ram.sessionKey, h.ram.username,
          h.ram.hasAuth, fun hnone => (by cases hnone), h.ram.hasSession⟩
      have hheld : State.WellFormed
          { s with ram := { s.ram with token := copyString value, hasToken := true } } :=
        ⟨hram, h.nvs, h.callers⟩
      have hrequest : (Request.storeToken (copyString (copyString value))).WellFormed :=
        allowed_copyString (by decide) _
      exact hheld.dispatchNvsRequest hrequest trivial
    | getMobileSession username =>
      have hram : Ram.WellFormed
          { s.ram with sessionKey := copyString value, hasSession := true } :=
        ⟨h.ram.authUrl, h.ram.token, allowed_copyString (by decide) _, h.ram.username,
          h.ram.hasAuth, h.ram.hasToken, fun hnone => (by cases hnone)⟩
      have hheld : State.WellFormed
          { s with ram := { s.ram with sessionKey := copyString value, hasSession := true } } :=
        ⟨hram, h.nvs, h.callers⟩
      have hrequest :
          (Request.storeSession (copyString value) (copyString username)).WellFormed :=
        ⟨allowed_copyString (by decide) _, allowed_copyString (by decide) _⟩
      exact hheld.dispatchNvsRequest hrequest trivial

theorem restart (h : s.WellFormed) (io : Io) (proxy started : Bool) :
    (Account.restart s io proxy started).WellFormed := by
  have hload := maintains_loadState io s.nvs h.nvs
  unfold Account.restart
  split
  · exact ⟨wellFormed_init, h.nvs, fun _ => trivial⟩
  · split
    next result nvs hrun =>
      rw [hrun] at hload
      cases result with
      | error err => exact ⟨wellFormed_init, hload.1, fun _ => trivial⟩
      | ok persisted =>
        exact ⟨wellFormed_load (hload.2 persisted rfl).1, hload.1, fun _ => trivial⟩

end State.WellFormed

theorem wellFormed_finish {ram : Ram} {pending : Pending} (err : EspErr) (hram : ram.WellFormed)
    (hpending : pending.WellFormed) : (pending.finish err ram).1.WellFormed := by
  cases pending with
  | setAuthUrl normalizedUrl =>
    simp only [Pending.finish]
    split
    · refine ⟨?_, hram.token, hram.sessionKey, hram.username, ?_, hram.hasToken, hram.hasSession⟩
      · rw [copyString_of_le hpending.length]
        exact hpending.allowed _
      · rw [copyString_of_le hpending.length]
        exact ⟨fun _ => hpending.ne_nil, fun _ => rfl⟩
    · exact hram
  | token => exact hram
  | session username =>
    exact ⟨hram.authUrl, hram.token, hram.sessionKey, allowed_copyString (by decide) _,
      hram.hasAuth, hram.hasToken, hram.hasSession⟩
  | logout =>
    simp only [Pending.finish]
    split
    · exact ⟨hram.authUrl, allowed_nil _, allowed_nil _, allowed_nil _, hram.hasAuth,
        fun _ => rfl, fun _ => rfl⟩
    · exact hram
  | scrobbling enabled =>
    simp only [Pending.finish]
    split
    · exact ⟨hram.authUrl, hram.token, hram.sessionKey, hram.username, hram.hasAuth,
        hram.hasToken, hram.hasSession⟩
    · exact hram
  | nowPlaying enabled =>
    simp only [Pending.finish]
    split
    · exact ⟨hram.authUrl, hram.token, hram.sessionKey, hram.username, hram.hasAuth,
        hram.hasToken, hram.hasSession⟩
    · exact hram

/-- **What one step preserves.** -/
theorem wellFormed_step {json : Json} {s t : State} {a : Action} (h : s.WellFormed)
    (hstep : step json s a = some t) : t.WellFormed := by
  cases a with
  | call caller c env =>
    simp only [step] at hstep
    split at hstep
    · exact Option.some.inj hstep ▸ h.call c
    · cases hstep
  | perform caller response semaphore =>
    simp only [step] at hstep
    split at hstep
    · obtain ⟨buffer, -, hstep⟩ := Option.bind_eq_some_iff.mp hstep
      exact Option.some.inj hstep ▸ h.respond _
    · cases hstep
  | serve caller io =>
    simp only [step] at hstep
    split at hstep
    · next request pending hpc =>
      have hwaits := h.callers caller
      rw [hpc] at hwaits
      have hserved : State.WellFormed { s with nvs := (processNvsRequest io request s.nvs).1 } :=
        ⟨h.ram, wellFormed_processNvsRequest hwaits.1 h.nvs, h.callers⟩
      exact Option.some.inj hstep ▸ hserved.goTo hwaits.2
    · cases hstep
  | resume caller =>
    simp only [step] at hstep
    split at hstep
    · next err pending hpc =>
      have hwaits := h.callers caller
      rw [hpc] at hwaits
      have hdone : State.WellFormed { s with ram := (pending.finish err s.ram).1 } :=
        ⟨wellFormed_finish err h.ram hwaits, h.nvs, h.callers⟩
      exact Option.some.inj hstep ▸ hdone.goTo trivial
    · cases hstep
  | restart io proxy started => exact Option.some.inj hstep ▸ h.restart io proxy started

theorem wellFormed_run {json : Json} {as : List Action} {s : State}
    (h : Runs.run (step json) .blank as = some s) : s.WellFormed :=
  Runs.run_invariant (fun _ _ _ hwell _ hstep => wellFormed_step hwell hstep) wellFormed_blank
    (Runs.along_true as) h

/-! ## Flash that works -/

structure Io.Works (io : Io) : Prop where
  openHandle : io.openHandle = .ok
  get : ∀ key, io.get key = .ok
  set : ∀ key, io.set key = .ok
  erase : ∀ key, io.erase key = .ok
  commit : ∀ key, io.commit key = .ok

/-- What NVS holds, a missing entry being its default. -/
def Nvs.persisted (nvs : Nvs) : NvsState where
  authUrl := (nvs.str .authUrl).getD []
  token := (nvs.str .token).getD []
  sessionKey := (nvs.str .sessionKey).getD []
  username := (nvs.str .username).getD []
  scrobblingEnabled := (nvs.i32 .scrobblingEnabled).getD 1
  nowPlayingEnabled := (nvs.i32 .nowPlayingEnabled).getD 1

/-- The account as a restart finds it. -/
def Nvs.loaded (nvs : Nvs) : Ram := .load nvs.persisted

/-- The two agree on every entry, a missing one being its default. -/
structure Nvs.Alike (nvs nvs' : Nvs) : Prop where
  str : ∀ key, (nvs'.str key).getD [] = (nvs.str key).getD []
  i32 : ∀ key, (nvs'.i32 key).getD 1 = (nvs.i32 key).getD 1

theorem Nvs.Alike.persisted {nvs nvs' : Nvs} (h : nvs.Alike nvs') :
    nvs'.persisted = nvs.persisted := by
  rw [Nvs.persisted, Nvs.persisted]
  simp only [h.str, h.i32]

/-- The call returns this and leaves every entry as it was. -/
def Reads {α : Type} (x : NvsCall α) (nvs : Nvs) (a : α) : Prop :=
  ∃ nvs', x nvs = (.ok a, nvs') ∧ nvs.Alike nvs' ∧ nvs'.WellFormed

theorem Reads.bind {α β : Type} {x : NvsCall α} {f : α → NvsCall β} {nvs : Nvs} {a : α} {b : β}
    (hx : Reads x nvs a) (hf : ∀ nvs', nvs.Alike nvs' → nvs'.WellFormed → Reads (f a) nvs' b) :
    Reads (x >>= f) nvs b := by
  obtain ⟨nvs', hrun, halike, hwell⟩ := hx
  obtain ⟨nvs'', hrun', halike', hwell'⟩ := hf nvs' halike hwell
  refine ⟨nvs'', by rw [Fallible.bind_of_ok hrun, hrun'], ⟨?_, ?_⟩, hwell'⟩
  · exact fun key => (halike'.str key).trans (halike.str key)
  · exact fun key => (halike'.i32 key).trans (halike.i32 key)

theorem reads_pure {α : Type} {nvs : Nvs} (h : nvs.WellFormed) (a : α) : Reads (pure a) nvs a :=
  ⟨nvs, rfl, ⟨fun _ => rfl, fun _ => rfl⟩, h⟩

theorem check_ok {err : EspErr} (h : err = .ok) : check err = pure () := if_pos h

theorem reads_check {nvs : Nvs} (h : nvs.WellFormed) {err : EspErr} (herr : err = .ok) :
    Reads (check err) nvs () := by
  rw [check_ok herr]
  exact reads_pure h ()

section
variable {io : Io} {nvs : Nvs}

theorem nvsSetStr_works (hio : io.Works) (key : Key) (value : Bytes) (nvs : Nvs) :
    nvsSetStr io key value nvs =
      (.ok (), { nvs with str := Function.update nvs.str key (some value) }) := by
  rw [nvsSetStr, check_ok (hio.set key)]
  rfl

theorem nvsSetI32_works (hio : io.Works) (key : Key) (value : Int) (nvs : Nvs) :
    nvsSetI32 io key value nvs =
      (.ok (), { nvs with i32 := Function.update nvs.i32 key (some value) }) := by
  rw [nvsSetI32, check_ok (hio.set key)]
  rfl

theorem nvsEraseKeyIfPresent_works (hio : io.Works) (key : Key) (nvs : Nvs) :
    nvsEraseKeyIfPresent io key nvs =
      (.ok (), { nvs with str := Function.update nvs.str key none }) := by
  rw [nvsEraseKeyIfPresent, check_ok (hio.erase key)]
  rfl

theorem nvsGetStr_of_wellFormed (h : nvs.WellFormed) {key : Key} {value : Bytes}
    (hvalue : nvs.str key = some value) :
    Wifi.Slots.nvsGetStr (nvs.str key) (maxLen + 1) = .ok value := by
  rw [hvalue]
  exact if_pos (Nat.lt_succ_of_le (h key value hvalue).1)

theorem reads_nvsGetStrOrInit (hio : io.Works) (h : nvs.WellFormed) (key : Key) :
    Reads (nvsGetStrOrInit io key) nvs ((nvs.str key).getD []) := by
  unfold nvsGetStrOrInit
  rw [check_ok (hio.get key)]
  cases hstr : nvs.str key with
  | some value =>
    refine ⟨nvs, ?_, ⟨fun _ => rfl, fun _ => rfl⟩, h⟩
    have hget := nvsGetStr_of_wellFormed h hstr
    simp only [bind, Fallible.get, pure, hget, Option.getD_some]
  | none =>
    refine ⟨{ nvs with str := Function.update nvs.str key (some []) }, ?_, ⟨fun other => ?_,
      fun _ => rfl⟩, h.update fun v hv => by cases hv; exact allowed_nil key⟩
    · refine (Fallible.bind_of_ok rfl).trans ((Fallible.bind_of_ok rfl).trans ?_)
      simp only [hstr, Wifi.Slots.nvsGetStr]
      rw [if_pos trivial]
      refine (Fallible.bind_of_ok (nvsSetStr_works hio key [] nvs)).trans ?_
      rw [check_ok (hio.commit key)]
      rfl
    · by_cases hother : other = key
      · subst hother
        simp [hstr]
      · simp [Function.update_of_ne hother]

theorem reads_nvsGetI32OrInit (hio : io.Works) (h : nvs.WellFormed) (key : Key) :
    Reads (nvsGetI32OrInit io key) nvs ((nvs.i32 key).getD 1) := by
  unfold nvsGetI32OrInit
  rw [check_ok (hio.get key)]
  cases hi32 : nvs.i32 key with
  | some value =>
    refine ⟨nvs, ?_, ⟨fun _ => rfl, fun _ => rfl⟩, h⟩
    simp only [bind, Fallible.get, pure, hi32, Option.getD_some]
  | none =>
    refine ⟨{ nvs with i32 := Function.update nvs.i32 key (some 1) }, ?_, ⟨fun _ => rfl,
      fun other => ?_⟩, h⟩
    · have hset := nvsSetI32_works hio key 1 nvs
      simp only [bind, Fallible.get, pure, hi32, hset, check_ok (hio.commit key), Option.getD_none]
    · by_cases hother : other = key
      · subst hother
        simp [hi32]
      · simp [Function.update_of_ne hother]

/-- Loading the state reads it, whatever entries are missing. -/
theorem reads_loadState (hio : io.Works) (h : nvs.WellFormed) :
    Reads (loadState io) nvs nvs.persisted := by
  refine (reads_check h hio.openHandle).bind fun n₀ a₀ w₀ => ?_
  refine (reads_nvsGetStrOrInit hio w₀ .authUrl).bind fun n₁ a₁ w₁ => ?_
  refine (reads_nvsGetStrOrInit hio w₁ .sessionKey).bind fun n₂ a₂ w₂ => ?_
  refine (reads_nvsGetStrOrInit hio w₂ .token).bind fun n₃ a₃ w₃ => ?_
  refine (reads_nvsGetStrOrInit hio w₃ .username).bind fun n₄ a₄ w₄ => ?_
  refine (reads_nvsGetI32OrInit hio w₄ .scrobblingEnabled).bind fun n₅ a₅ w₅ => ?_
  refine (reads_nvsGetI32OrInit hio w₅ .nowPlayingEnabled).bind fun n₆ a₆ w₆ => ?_
  simp only [a₁.str, a₂.str, a₃.str, a₀.str, a₄.i32, a₃.i32, a₂.i32, a₁.i32, a₀.i32, a₅.i32]
  exact reads_pure w₆ _

end

theorem restart_works {s : State} {io : Io} (hio : io.Works) (h : s.nvs.WellFormed) :
    ∃ nvs, restart s io true true = ⟨s.nvs.loaded, nvs, true, fun _ => .idle none⟩ ∧
      nvs.loaded = s.nvs.loaded := by
  obtain ⟨nvs, hrun, halike, -⟩ := reads_loadState hio h
  refine ⟨nvs, ?_, congrArg Ram.load halike.persisted⟩
  simp only [restart, hrun]
  rfl

theorem performed_of_err {response : Response} {buffer : Buffer} (h : buffer.err ≠ .ok) :
    performed response buffer ≠ .ok := by
  unfold performed
  split
  · exact h
  · next hclient => exact fun hok => hclient ⟨hok, h⟩

/-- What a call takes from a response is what the whole response holds. -/
theorem find_of_received {json : Json} {method : Method} {response : Response} {buffer : Buffer}
    {value : Bytes} (hbuffer : handleAll .init response.events = some buffer)
    (h : received json method response buffer = .ok value) :
    json.find method (cString (bodyOf response.events)) = some value := by
  obtain ⟨held, hheld, hres⟩ := handleAll_spec response.events holds_init rfl
  obtain rfl := Option.some.inj (hheld.symm.trans hbuffer)
  unfold received at h
  split at h
  · cases h
  · next hok =>
    have hwhole : Holds held (bodyOf response.events) := by
      rcases hres with ⟨-, hwhole⟩ | ⟨hfull, -⟩
      · exact hwhole
      · exact absurd (performed_of_err (by rw [hfull]; decide)) hok
    split at h
    · cases h
    · split at h
      · next data hdata =>
        split at h
        · split at h
          · next found hfound =>
            rw [← hwhole.cString_eq hdata, hfound, Except.ok.inj h]
          · cases h
        · cases h
      · cases h

/-- **What every state is**, whatever the calls from different tasks, the server, the
allocator and the flash do, and however often the device restarts: every request goes to a
whole URL under a base URL, its response is always taken and what is taken from it is what
the whole response holds; a string is empty where its flag is not set, none is longer than
its array, and a restart reaches its end when the flash works and the tasks can be made. -/
theorem account_invariant {json : Json} {as : List Action} {s : State}
    (h : Runs.run (step json) .blank as = some s) :
    (∀ caller url method, s.callers caller = .performing url method →
        (∃ base, BaseUrl base ∧ url = base ++ method.path) ∧
          ∀ response semaphore, ∃ result,
            step json s (.perform caller response semaphore) =
                some (respond s caller semaphore method result) ∧
              ∀ value, result = .ok value →
                json.find method (cString (bodyOf response.events)) = some value) ∧
      s.ram.WellFormed ∧
      ∀ io, io.Works → ∃ t, step json s (.restart io true true) = some t ∧ t.hasQueue = true := by
  have hwell := wellFormed_run h
  refine ⟨?_, hwell.ram, ?_⟩
  · intro caller url method hpc
    have hurl := hwell.callers caller
    rw [hpc] at hurl
    refine ⟨hurl, fun response semaphore => ?_⟩
    obtain ⟨buffer, hbuffer, -⟩ := handleAll_spec response.events holds_init rfl
    refine ⟨received json method response buffer, ?_, fun value => find_of_received hbuffer⟩
    simp only [step, hpc, hbuffer, Option.bind_eq_bind, Option.bind_some, Option.pure_def]
  · intro io hio
    obtain ⟨nvs, hrestart, -⟩ := restart_works hio hwell.nvs
    exact ⟨_, congrArg some hrestart, rfl⟩

/-- Flash in which every call works. -/
def Io.working : Io :=
  ⟨.ok, fun _ => .ok, fun _ => .ok, fun _ => .ok, fun _ => .ok, fun _ => EspErr.noConfusion,
    fun _ => EspErr.noConfusion⟩

/-- A device that has started and whose base URL is being set. -/
def settingUrl : List Action :=
  [.restart .working true true, .call 0 (.setAuthUrl (ascii "host")) ⟨true, true, true, true⟩,
    .serve 0 .working, .resume 0]

/-- A server whose texts hold neither string. -/
def noJson : Json := ⟨fun _ => none, fun _ => none⟩

theorem account_invariant_settingUrl :
    ∃ s, Runs.run (step noJson) .blank settingUrl = some s ∧
      s.ram.authUrl = ascii "https://host" ∧ s.ram.WellFormed := by
  have hurl : (Runs.run (step noJson) .blank settingUrl).map (·.ram.authUrl) =
      some (ascii "https://host") := by decide +kernel
  obtain ⟨s, hs, hram⟩ := Option.map_eq_some_iff.mp hurl
  exact ⟨s, hs, hram, (account_invariant hs).2.1⟩

end Jukeboy.Lastfm.Account
