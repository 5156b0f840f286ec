import Jukeboy.Lastfm.Account

/-! # What a restart makes of the Last.fm account

While calls do not overlap and the flash works, a restart finds the account as it was. A
logout that succeeded is never undone by one, whatever fails later. -/
namespace Jukeboy.Lastfm.Account
open Jukeboy.Base Jukeboy.Lastfm.HttpResponse
open Jukeboy.CompanionApi.Tlv (Bytes ascii cString)

/-! ## Requests that are served -/

/-- What NVS holds after a request was served. -/
def Request.applied (nvs : Nvs) : Request → Nvs
  | .storeAuthUrl value => { nvs with str := Function.update nvs.str .authUrl (some value) }
  | .storeToken value => { nvs with str := Function.update nvs.str .token (some value) }
  | .storeSession sessionKey username =>
    let str := Function.update nvs.str .sessionKey (some sessionKey)
    { nvs with str := Function.update str .username (some username) }
  | .storeI32 key value => { nvs with i32 := Function.update nvs.i32 key (some value) }
  | .clearSession =>
    let str := Function.update (Function.update nvs.str .sessionKey none) .username none
    { nvs with str := Function.update str .token none }

theorem store_works {io : Io} (hio : io.Works) (request : Request) (nvs : Nvs) :
    store io request nvs = (.ok (), request.applied nvs) := by
  cases request with
  | storeAuthUrl value =>
    refine (Fallible.bind_of_ok (nvsSetStr_works hio .authUrl value nvs)).trans ?_
    rw [check_ok (hio.commit _)]
    rfl
  | storeToken value =>
    refine (Fallible.bind_of_ok (nvsSetStr_works hio .token value nvs)).trans ?_
    rw [check_ok (hio.commit _)]
    rfl
  | storeSession sessionKey username =>
    refine (Fallible.bind_of_ok (nvsSetStr_works hio .sessionKey sessionKey nvs)).trans ?_
    refine (Fallible.bind_of_ok (nvsSetStr_works hio .username username _)).trans ?_
    rw [check_ok (hio.commit _)]
    rfl
  | storeI32 key value =>
    refine (Fallible.bind_of_ok (nvsSetI32_works hio key value nvs)).trans ?_
    rw [check_ok (hio.commit _)]
    rfl
  | clearSession =>
    refine (Fallible.bind_of_ok (nvsEraseKeyIfPresent_works hio .sessionKey nvs)).trans ?_
    refine (Fallible.bind_of_ok (nvsEraseKeyIfPresent_works hio .username _)).trans ?_
    refine (Fallible.bind_of_ok (nvsEraseKeyIfPresent_works hio .token _)).trans ?_
    rw [check_ok (hio.commit _)]
    rfl

theorem processNvsRequest_works {io : Io} (hio : io.Works) (request : Request) (nvs : Nvs) :
    processNvsRequest io request nvs = (request.applied nvs, .ok) := by
  rw [processNvsRequest, check_ok hio.openHandle]
  have hrun : ((pure () : NvsCall Unit) >>= fun _ => store io request) nvs =
      (.ok (), request.applied nvs) := (Fallible.bind_of_ok rfl).trans (store_works hio request nvs)
  rw [hrun]

/-! ## One call at a time -/

def Pc.Idle : Pc → Prop
  | .idle _ => True
  | _ => False

/-- The call in flight is the only difference between the account and what a restart makes
of NVS. -/
def Pc.Settled (ram : Ram) (nvs : Nvs) : Pc → Prop
  | .idle _ => ram = nvs.loaded
  | .performing _ _ => ram = nvs.loaded
  | .storing request pending => (pending.finish .ok ram).1 = (request.applied nvs).loaded
  | .served err pending => (pending.finish err ram).1 = nvs.loaded

/-- Where a task can be before the first start. -/
def Pc.Refused : Pc → Prop
  | .idle _ => True
  | .served err _ => err ≠ .ok
  | _ => False

/-- Calls do not overlap, the flash and the allocator work, the server gives no empty
string, and every restart gets to its end. -/
def Undisturbed (json : Json) (s : State) : Action → Prop
  | .call _ _ env => (∀ other, (s.callers other).Idle) ∧ env.semaphore = true
  | .perform caller response semaphore =>
    semaphore = true ∧ ∀ url method buffer value, s.callers caller = .performing url method →
      handleAll .init response.events = some buffer →
      received json method response buffer = .ok value → value ≠ []
  | .serve _ io => io.Works
  | .resume _ => True
  | .restart io proxy started => io.Works ∧ proxy = true ∧ started = true

structure Synced (s : State) : Prop where
  alone : ∃ caller, (∀ other, other ≠ caller → (s.callers other).Idle) ∧
    (s.callers caller).Settled s.ram s.nvs
  queue : s.hasQueue = true ∨ s.ram.hasAuth = false ∧ ∀ caller, (s.callers caller).Refused

theorem Pc.Idle.settled {pc : Pc} {ram : Ram} {nvs : Nvs} (h : pc.Idle)
    (hsettled : pc.Settled ram nvs) : ram = nvs.loaded := by
  cases pc with
  | idle returned => exact hsettled
  | performing url method => exact h.elim
  | storing request pending => exact h.elim
  | served err pending => exact h.elim

/-- Where nothing is in flight the account is what a restart finds. -/
theorem Synced.ram_eq {s : State} (h : Synced s) (hidle : ∀ caller, (s.callers caller).Idle) :
    s.ram = s.nvs.loaded := by
  obtain ⟨caller, -, hsettled⟩ := h.alone
  exact (hidle caller).settled hsettled

/-- A task that is not idle is the one in flight. -/
theorem Synced.alone_of_not_idle {s : State} (h : Synced s) (caller : Nat)
    (hbusy : ¬ (s.callers caller).Idle) :
    (∀ other, other ≠ caller → (s.callers other).Idle) ∧
      (s.callers caller).Settled s.ram s.nvs := by
  obtain ⟨only, hothers, hsettled⟩ := h.alone
  have hsame : caller = only := by
    by_contra hother
    exact hbusy (hothers caller hother)
  rw [hsame]
  exact ⟨hothers, hsettled⟩

section
variable {s : State} {caller : Nat}

theorem synced_goTo {pc : Pc} (hothers : ∀ other, other ≠ caller → (s.callers other).Idle)
    (hsettled : pc.Settled s.ram s.nvs)
    (hqueue : s.hasQueue = true ∨ s.ram.hasAuth = false ∧ pc.Refused) :
    Synced (s.goTo caller pc) where
  alone := by
    refine ⟨caller, fun other hother => ?_, ?_⟩
    · rw [State.goTo_of_ne s hother]
      exact hothers other hother
    · rw [State.goTo_self]
      exact hsettled
  queue := by
    refine hqueue.imp id fun ⟨hauth, hpc⟩ => ⟨hauth, fun other => ?_⟩
    by_cases hother : other = caller
    · rw [hother, State.goTo_self]
      exact hpc
    · rw [State.goTo_of_ne s hother]
      have hidle := hothers other hother
      cases hcaller : s.callers other with
      | idle returned => exact trivial
      | performing url method => exact (hcaller ▸ hidle : Pc.Idle (.performing url method)).elim
      | storing request pending => exact (hcaller ▸ hidle : Pc.Idle (.storing request pending)).elim
      | served err pending => exact (hcaller ▸ hidle : Pc.Idle (.served err pending)).elim

/-- A request that is dispatched makes NVS what the call makes the account. -/
theorem synced_dispatch {request : Request} {pending : Pending}
    (hothers : ∀ other, other ≠ caller → (s.callers other).Idle)
    (hstored : (pending.finish .ok s.ram).1 = (request.applied s.nvs).loaded)
    (hqueue : s.hasQueue = true ∨
      s.ram.hasAuth = false ∧ (pending.finish .invalidState s.ram).1 = s.nvs.loaded) :
    Synced (dispatchNvsRequest s caller true request pending) := by
  unfold dispatchNvsRequest
  cases hhas : s.hasQueue with
  | true => exact synced_goTo hothers hstored (.inl hhas)
  | false =>
    obtain ⟨hauth, hrefused⟩ := hqueue.resolve_left (by rw [hhas]; decide)
    exact synced_goTo hothers hrefused (.inr ⟨hauth, EspErr.noConfusion⟩)

end

theorem copyString_copyString (src : Bytes) : copyString (copyString src) = copyString src :=
  copyString_of_le (length_copyString src)

theorem copyString_ne_nil {src : Bytes} (h : src ≠ []) : copyString src ≠ [] := by
  intro hnil
  have hlen : (copyString src).length = 0 := by rw [hnil, List.length_nil]
  rw [copyString, List.length_take] at hlen
  have hpos := List.length_pos_iff.mpr h
  have : maxLen = 127 := rfl
  omega

/-! ## What each request makes of NVS -/

section
variable (nvs : Nvs)

theorem loaded_storeAuthUrl {url : Bytes} (h : url ≠ []) :
    ((Request.storeAuthUrl (copyString url)).applied nvs).loaded =
      { nvs.loaded with authUrl := copyString url, hasAuth := true } := by
  simp [Request.applied, Nvs.loaded, Nvs.persisted, Ram.load, Function.update,
    copyString_copyString, copyString_ne_nil h]

theorem loaded_storeToken {token : Bytes} (h : token ≠ []) :
    ((Request.storeToken (copyString (copyString token))).applied nvs).loaded =
      { nvs.loaded with token := copyString token, hasToken := true } := by
  simp [Request.applied, Nvs.loaded, Nvs.persisted, Ram.load, Function.update,
    copyString_copyString, copyString_ne_nil h]

theorem loaded_storeSession {sessionKey : Bytes} (h : sessionKey ≠ []) (username : Bytes) :
    ((Request.storeSession (copyString sessionKey) (copyString username)).applied nvs).loaded =
      { nvs.loaded with
        sessionKey := copyString sessionKey, hasSession := true
        username := copyString username } := by
  simp [Request.applied, Nvs.loaded, Nvs.persisted, Ram.load, Function.update,
    copyString_copyString, copyString_ne_nil h]

theorem loaded_clearSession :
    (Request.clearSession.applied nvs).loaded =
      { nvs.loaded with
        sessionKey := [], username := [], token := [], hasSession := false
        hasToken := false } := by
  simp [Request.applied, Nvs.loaded, Nvs.persisted, Ram.load, Function.update, copyString]

theorem loaded_scrobbling (enabled : Bool) :
    ((Request.storeI32 .scrobblingEnabled (if enabled then 1 else 0)).applied nvs).loaded =
      { nvs.loaded with scrobblingEnabled := enabled } := by
  cases enabled <;> simp [Request.applied, Nvs.loaded, Nvs.persisted, Ram.load, Function.update]

theorem loaded_nowPlaying (enabled : Bool) :
    ((Request.storeI32 .nowPlayingEnabled (if enabled then 1 else 0)).applied nvs).loaded =
      { nvs.loaded with nowPlayingEnabled := enabled } := by
  cases enabled <;> simp [Request.applied, Nvs.loaded, Nvs.persisted, Ram.load, Function.update]

end

/-! ## The steps of an undisturbed run -/

section
variable {s : State} {caller : Nat}

theorem synced_call (h : Synced s) (hidle : ∀ other, (s.callers other).Idle) {env : Env}
    (hsemaphore : env.semaphore = true) (c : Call) : Synced (call s caller env c) := by
  have hram := h.ram_eq hidle
  have hothers : ∀ other, other ≠ caller → (s.callers other).Idle := fun other _ => hidle other
  have hqueue : s.hasQueue = true ∨ s.ram.hasAuth = false := h.queue.imp id And.left
  have hrequest : ∀ method encodes, Synced (request s caller env method encodes) := by
    intro method encodes
    have hreturns : ∀ err, Synced (s.goTo caller (.idle (some err))) := fun err =>
      synced_goTo hothers hram (hqueue.imp id fun hauth => ⟨hauth, trivial⟩)
    unfold request
    split
    · exact hreturns _
    · next hauth =>
      split
      · exact hreturns _
      · split
        · exact hreturns _
        · split
          · exact hreturns _
          · refine synced_goTo hothers hram (.inl (hqueue.resolve_right fun hnone => hauth ?_))
            rw [hnone]
            rfl
  have hdispatch : ∀ request pending,
      (pending.finish .ok s.ram).1 = (request.applied s.nvs).loaded →
      (pending.finish .invalidState s.ram).1 = s.ram →
      Synced (dispatchNvsRequest s caller env.semaphore request pending) := by
    intro request pending hstored hrefused
    rw [hsemaphore]
    exact synced_dispatch hothers hstored (hqueue.imp id fun hauth => ⟨hauth, hrefused.trans hram⟩)
  cases c with
  | setAuthUrl url =>
    cases hnormal : normalizeBaseUrl url with
    | error err =>
      simp only [call, hnormal]
      exact synced_goTo hothers hram (hqueue.imp id fun hauth => ⟨hauth, trivial⟩)
    | ok normalizedUrl =>
      simp only [call, hnormal]
      refine hdispatch _ _ ?_ rfl
      rw [loaded_storeAuthUrl s.nvs (normalizeBaseUrl_spec hnormal).ne_nil, ← hram]
      rfl
  | requestToken => exact hrequest _ _
  | requestAuth username => exact hrequest _ _
  | logout =>
    refine hdispatch _ _ ?_ rfl
    rw [loaded_clearSession, ← hram]
    rfl
  | setScrobblingEnabled enabled =>
    refine hdispatch _ _ ?_ rfl
    rw [loaded_scrobbling, ← hram]
    rfl
  | setNowPlayingEnabled enabled =>
    refine hdispatch _ _ ?_ rfl
    rw [loaded_nowPlaying, ← hram]
    rfl

theorem synced_respond (hothers : ∀ other, other ≠ caller → (s.callers other).Idle)
    (hram : s.ram = s.nvs.loaded) (hqueue : s.hasQueue = true) (method : Method)
    {received : Except EspErr Bytes} (hnonempty : ∀ value, received = .ok value → value ≠ []) :
    Synced (respond s caller true method received) := by
  cases received with
  | error err => exact synced_goTo hothers hram (.inl hqueue)
  | ok value =>
    have hvalue := hnonempty value rfl
    cases method with
    | getToken =>
      refine synced_dispatch (s := { s with ram := _ }) hothers ?_ (.inl hqueue)
      rw [loaded_storeToken s.nvs hvalue, ← hram]
      rfl
    | getMobileSession username =>
      refine synced_dispatch (s := { s with ram := _ }) hothers ?_ (.inl hqueue)
      rw [loaded_storeSession s.nvs hvalue, ← hram]
      rfl

/-- **What one undisturbed step preserves.** -/
theorem synced_step {json : Json} {s t : State} {a : Action} (hwell : s.WellFormed)
    (h : Synced s) (hcond : Undisturbed json s a) (hstep : step json s a = some t) :
    Synced t := by
  cases a with
  | call caller c env =>
    simp only [step] at hstep
    split at hstep
    · exact Option.some.inj hstep ▸ synced_call h hcond.1 hcond.2 c
    · cases hstep
  | perform caller response semaphore =>
    obtain ⟨rfl, hnonempty⟩ := hcond
    simp only [step] at hstep
    split at hstep
    · next url method hpc =>
      obtain ⟨buffer, hbuffer, hstep⟩ := Option.bind_eq_some_iff.mp hstep
      obtain ⟨hothers, hram⟩ := h.alone_of_not_idle caller (by rw [hpc]; exact id)
      rw [hpc] at hram
      have hqueue : s.hasQueue = true := h.queue.resolve_right fun hnone => by
        have hrefused := hnone.2 caller
        rw [hpc] at hrefused
        exact hrefused
      exact Option.some.inj hstep ▸ synced_respond hothers hram hqueue method
        (hnonempty url method buffer · hpc hbuffer)
    · cases hstep
  | serve caller io =>
    simp only [step] at hstep
    split at hstep
    · next request pending hpc =>
      obtain ⟨hothers, hsettled⟩ := h.alone_of_not_idle caller (by rw [hpc]; exact id)
      rw [hpc] at hsettled
      have hqueue : s.hasQueue = true := h.queue.resolve_right fun hnone => by
        have hrefused := hnone.2 caller
        rw [hpc] at hrefused
        exact hrefused
      rw [processNvsRequest_works hcond] at hstep
      exact Option.some.inj hstep ▸ synced_goTo (s := { s with nvs := _ }) hothers hsettled
        (.inl hqueue)
    · cases hstep
  | resume caller =>
    simp only [step] at hstep
    split at hstep
    · next err pending hpc =>
      obtain ⟨hothers, hsettled⟩ := h.alone_of_not_idle caller (by rw [hpc]; exact id)
      rw [hpc] at hsettled
      refine Option.some.inj hstep ▸ synced_goTo (s := { s with ram := _ }) hothers hsettled ?_
      refine h.queue.imp id fun hnone => ⟨?_, trivial⟩
      have herr := hnone.2 caller
      rw [hpc] at herr
      cases pending with
      | token => exact hnone.1
      | session username => exact hnone.1
      | setAuthUrl url => simpa only [Pending.finish, if_neg herr] using hnone.1
      | logout => simpa only [Pending.finish, if_neg herr] using hnone.1
      | scrobbling enabled => simpa only [Pending.finish, if_neg herr] using hnone.1
      | nowPlaying enabled => simpa only [Pending.finish, if_neg herr] using hnone.1
    · cases hstep
  | restart io proxy started =>
    obtain ⟨hio, rfl, rfl⟩ := hcond
    obtain ⟨nvs, hrestart, hloaded⟩ := restart_works hio hwell.nvs
    obtain rfl := Option.some.inj hstep
    rw [hrestart]
    exact ⟨⟨0, fun _ _ => trivial, hloaded.symm⟩, .inl rfl⟩

end

theorem synced_blank : Synced .blank :=
  ⟨⟨0, fun _ _ => trivial, rfl⟩, .inr ⟨rfl, fun _ => trivial⟩⟩

/-- **A restart changes nothing**: after every run in which calls do not overlap, the flash
works and the server gives no empty string, a restart at a moment when no call is in flight
leaves the base URL, the token, the session, the username and both switches as they were.
The run itself may have restarts anywhere, in the middle of a call too. -/
theorem restart_restores {json : Json} {as : List Action} {s : State} {io : Io}
    (hrun : Runs.run (step json) .blank as = some s)
    (hcond : Runs.Along (step json) (Undisturbed json) .blank as)
    (hidle : ∀ caller, (s.callers caller).Idle) (hio : io.Works) :
    ∃ t, step json s (.restart io true true) = some t ∧ t.ram = s.ram := by
  have hboth : s.WellFormed ∧ Synced s :=
    Runs.run_invariant (I := fun s => s.WellFormed ∧ Synced s)
      (fun _ _ _ h hC hstep => ⟨wellFormed_step h.1 hstep, synced_step h.1 h.2 hC hstep⟩)
      ⟨wellFormed_blank, synced_blank⟩ hcond hrun
  obtain ⟨nvs, hrestart, -⟩ := restart_works hio hboth.1.nvs
  exact ⟨_, congrArg some hrestart, (hboth.2.ram_eq hidle).symm⟩

theorem works_working : Io.working.Works :=
  ⟨rfl, fun _ => rfl, fun _ => rfl, fun _ => rfl, fun _ => rfl⟩

theorem restart_restores_settingUrl :
    ∃ s t, Runs.run (step noJson) .blank settingUrl = some s ∧
      step noJson s (.restart .working true true) = some t ∧ t.ram = s.ram ∧
      t.ram.authUrl = ascii "https://host" := by
  have hurl : (Runs.run (step noJson) .blank settingUrl).map (·.ram.authUrl) =
      some (ascii "https://host") := by decide +kernel
  obtain ⟨s, hs, hram⟩ := Option.map_eq_some_iff.mp hurl
  have hcond : Runs.Along (step noJson) (Undisturbed noJson) .blank settingUrl := by
    refine ⟨⟨works_working, rfl, rfl⟩, fun s₁ h₁ => ⟨⟨fun other => ?_, rfl⟩, fun s₂ h₂ =>
      ⟨works_working, fun s₃ h₃ => ⟨trivial, fun s₄ h₄ => trivial⟩⟩⟩⟩
    cases h₁
    exact trivial
  have hidle : ∀ caller, (s.callers caller).Idle := by
    intro caller
    cases hs
    cases caller with
    | zero => exact trivial
    | succ n => exact trivial
  obtain ⟨t, ht, hsame⟩ := restart_restores hs hcond hidle works_working
  exact ⟨s, t, hs, ht, hsame, hsame ▸ hram⟩

/-! ## Logged out -/

/-- NVS holds no token, no session and no username. -/
def Nvs.LoggedOut (nvs : Nvs) : Prop :=
  ∀ key ∈ [Key.token, .sessionKey, .username], (nvs.str key).getD [] = []

structure Ram.LoggedOut (ram : Ram) : Prop where
  token : ram.token = []
  sessionKey : ram.sessionKey = []
  username : ram.username = []
  hasToken : ram.hasToken = false
  hasSession : ram.hasSession = false

/-- A task on its way to store a token or a session, or to take up its username. -/
def Pc.Grants : Pc → Prop
  | .storing (.storeToken _) _ => True
  | .storing (.storeSession _ _) _ => True
  | .storing _ (.session _) => True
  | .served _ (.session _) => True
  | _ => False

/-- The server gives no token and no session. -/
def NothingGranted (json : Json) (s : State) : Action → Prop
  | .perform caller response _ => ∀ url method buffer value,
      s.callers caller = .performing url method →
      handleAll .init response.events = some buffer →
      received json method response buffer ≠ .ok value
  | _ => True

/-- The logout has reached NVS, and reaches the account when it returns to the task that
waits for it, if one still does. -/
structure Leaving (waiting : Option Nat) (s : State) : Prop where
  nvs : s.nvs.LoggedOut
  callers : ∀ caller, ¬ (s.callers caller).Grants
  ram : s.ram.LoggedOut ∨ ∃ caller, waiting = some caller ∧ s.callers caller = .served .ok .logout

/-- The call of the task returns, or the device restarts. -/
def Action.Ends (caller : Nat) : Action → Prop
  | .resume other => other = caller
  | .restart _ _ _ => True
  | _ => False

/-! ## The calls into NVS while logged out -/

theorem Nvs.LoggedOut.update {nvs : Nvs} (h : nvs.LoggedOut) {key : Key} {value : Option Bytes}
    (hvalue : key ∈ [Key.token, .sessionKey, .username] → value.getD [] = []) :
    Nvs.LoggedOut { nvs with str := Function.update nvs.str key value } := by
  intro other hother
  by_cases hsame : other = key
  · subst hsame
    simpa only [Function.update_self] using hvalue hother
  · simpa only [Function.update_of_ne hsame] using h other hother

section
variable (io : Io)

theorem keepsOut_nvsSetStr {key : Key} {value : Bytes}
    (h : key ∈ [Key.token, .sessionKey, .username] → value = []) :
    Fallible.Maintains Nvs.LoggedOut (nvsSetStr io key value) fun _ => True :=
  (maintains_check _).bind fun _ _ => Fallible.maintains_modify fun _ hnvs => hnvs.update h

theorem keepsOut_nvsSetI32 (key : Key) (value : Int) :
    Fallible.Maintains Nvs.LoggedOut (nvsSetI32 io key value) fun _ => True :=
  (maintains_check _).bind fun _ _ => Fallible.maintains_modify fun _ hnvs => hnvs

theorem keepsOut_nvsEraseKeyIfPresent (key : Key) :
    Fallible.Maintains Nvs.LoggedOut (nvsEraseKeyIfPresent io key) fun _ => True :=
  (maintains_check _).bind fun _ _ =>
    Fallible.maintains_modify fun _ hnvs => hnvs.update fun _ => rfl

theorem keepsOut_nvsGetStrOrInit (key : Key) :
    Fallible.Maintains Nvs.LoggedOut (nvsGetStrOrInit io key) fun value =>
      key ∈ [Key.token, .sessionKey, .username] → value = [] := by
  refine (maintains_check _).bind fun _ _ => Fallible.maintains_get.bind fun nvs hnvs => ?_
  cases hget : Wifi.Slots.nvsGetStr (nvs.str key) (maxLen + 1) with
  | ok value =>
    refine Fallible.maintains_pure fun hkey => ?_
    have hnil := hnvs key hkey
    rwa [nvsGetStr_ok hget] at hnil
  | error err =>
    simp only
    split
    · exact (keepsOut_nvsSetStr io fun _ => rfl).bind fun _ _ =>
        (maintains_check _).bind fun _ _ => Fallible.maintains_pure fun _ => rfl
    · exact Fallible.maintains_fail

theorem keepsOut_nvsGetI32OrInit (key : Key) :
    Fallible.Maintains Nvs.LoggedOut (nvsGetI32OrInit io key) fun _ => True := by
  refine (maintains_check _).bind fun _ _ => Fallible.maintains_get.bind fun nvs _ => ?_
  cases nvs.i32 key with
  | some value => exact Fallible.maintains_pure trivial
  | none =>
    exact (keepsOut_nvsSetI32 io key 1).bind fun _ _ =>
      (maintains_check _).bind fun _ _ => Fallible.maintains_pure trivial

theorem keepsOut_loadState :
    Fallible.Maintains Nvs.LoggedOut (loadState io) fun persisted =>
      persisted.token = [] ∧ persisted.sessionKey = [] ∧ persisted.username = [] := by
  refine (maintains_check _).bind fun _ _ => ?_
  refine (keepsOut_nvsGetStrOrInit io .authUrl).bind fun authUrl _ => ?_
  refine (keepsOut_nvsGetStrOrInit io .sessionKey).bind fun sessionKey hsessionKey => ?_
  refine (keepsOut_nvsGetStrOrInit io .token).bind fun token htoken => ?_
  refine (keepsOut_nvsGetStrOrInit io .username).bind fun username husername => ?_
  refine (keepsOut_nvsGetI32OrInit io .scrobblingEnabled).bind fun scrobblingEnabled _ => ?_
  refine (keepsOut_nvsGetI32OrInit io .nowPlayingEnabled).bind fun nowPlayingEnabled _ => ?_
  exact Fallible.maintains_pure
    ⟨htoken (by decide), hsessionKey (by decide), husername (by decide)⟩

theorem keepsOut_store {request : Request} {pending : Pending}
    (h : ¬ (Pc.storing request pending).Grants) :
    Fallible.Maintains Nvs.LoggedOut (store io request) fun _ => True := by
  cases request with
  | storeAuthUrl value =>
    exact (keepsOut_nvsSetStr io fun hkey => absurd hkey (by decide)).bind fun _ _ =>
      maintains_check _
  | storeToken value => exact absurd trivial h
  | storeSession sessionKey username => exact absurd trivial h
  | storeI32 key value =>
    exact (keepsOut_nvsSetI32 io key value).bind fun _ _ => maintains_check _
  | clearSession =>
    exact (keepsOut_nvsEraseKeyIfPresent io _).bind fun _ _ =>
      (keepsOut_nvsEraseKeyIfPresent io _).bind fun _ _ =>
        (keepsOut_nvsEraseKeyIfPresent io _).bind fun _ _ => maintains_check _

end

theorem loggedOut_processNvsRequest {io : Io} {request : Request} {pending : Pending} {nvs : Nvs}
    (h : ¬ (Pc.storing request pending).Grants) (hnvs : nvs.LoggedOut) :
    (processNvsRequest io request nvs).1.LoggedOut :=
  processNvsRequest_maintains (keepsOut_store io h) hnvs

/-- A chain that returned without an error got past its checks. -/
theorem check_bind_ok {α : Type} {err : EspErr} {f : Unit → NvsCall α} {nvs nvs' : Nvs} {a : α}
    (h : (check err >>= f) nvs = (.ok a, nvs')) : err = .ok ∧ f () nvs = (.ok a, nvs') := by
  unfold check at h
  split at h
  · next herr => exact ⟨herr, h⟩
  · cases h

theorem nvsEraseKeyIfPresent_bind_ok {α : Type} {io : Io} {key : Key} {f : Unit → NvsCall α}
    {nvs nvs' : Nvs} {a : α} (h : (nvsEraseKeyIfPresent io key >>= f) nvs = (.ok a, nvs')) :
    f () { nvs with str := Function.update nvs.str key none } = (.ok a, nvs') := by
  by_cases herase : io.erase key = .ok
  · have hrun : nvsEraseKeyIfPresent io key nvs =
        (.ok (), { nvs with str := Function.update nvs.str key none }) := by
      rw [nvsEraseKeyIfPresent, check_ok herase]
      rfl
    rwa [Fallible.bind_of_ok hrun] at h
  · have hrun : nvsEraseKeyIfPresent io key nvs = (.error (io.erase key), nvs) := by
      rw [nvsEraseKeyIfPresent, check, if_neg herase]
      rfl
    rw [Fallible.bind_of_error hrun] at h
    cases h

/-- No call fails with `ESP_OK`. -/
def Honest {α : Type} (x : NvsCall α) : Prop := ∀ nvs, (x nvs).1 ≠ .error .ok

theorem honest_check (err : EspErr) : Honest (check err) := by
  intro nvs h
  unfold check at h
  split at h
  · cases h
  · next herr => exact herr (Except.error.inj h)

theorem honest_modify (f : Nvs → Nvs) : Honest (Fallible.modify f) := by
  intro nvs h
  cases h

theorem Honest.bind {α β : Type} {x : NvsCall α} {f : α → NvsCall β} (hx : Honest x)
    (hf : ∀ a, Honest (f a)) : Honest (x >>= f) := by
  intro nvs
  rcases hr : x nvs with ⟨r, nvs'⟩
  cases r with
  | ok a =>
    rw [Fallible.bind_of_ok hr]
    exact hf a nvs'
  | error e =>
    rw [Fallible.bind_of_error hr]
    intro h
    refine hx nvs ?_
    rw [hr, Except.error.inj h]

theorem honest_nvsEraseKeyIfPresent (io : Io) (key : Key) :
    Honest (nvsEraseKeyIfPresent io key) :=
  (honest_check _).bind fun _ => honest_modify _

theorem honest_clearSession (io : Io) :
    Honest (check io.openHandle >>= fun _ => store io .clearSession) :=
  (honest_check _).bind fun _ => (honest_nvsEraseKeyIfPresent io _).bind fun _ =>
    (honest_nvsEraseKeyIfPresent io _).bind fun _ =>
      (honest_nvsEraseKeyIfPresent io _).bind fun _ => honest_check _

/-- A clear that succeeded has erased all three keys. -/
theorem clearSession_ok {io : Io} {nvs : Nvs}
    (h : (processNvsRequest io .clearSession nvs).2 = .ok) :
    (processNvsRequest io .clearSession nvs).1.LoggedOut := by
  have hhonest := honest_clearSession io nvs
  unfold processNvsRequest at h ⊢
  generalize hrun : (check io.openHandle >>= fun _ => store io .clearSession) nvs = run
    at h hhonest ⊢
  obtain ⟨result, after⟩ := run
  cases result with
  | error err => exact absurd (congrArg Except.error h) hhonest
  | ok value =>
    have herased := nvsEraseKeyIfPresent_bind_ok (nvsEraseKeyIfPresent_bind_ok
      (nvsEraseKeyIfPresent_bind_ok (check_bind_ok hrun).2))
    have hafter : after = Request.clearSession.applied nvs := by
      unfold check at herased
      split at herased
      · exact (Prod.mk.inj herased).2.symm
      · cases herased
    rw [hafter]
    intro key hkey
    simp only [List.mem_cons, List.not_mem_nil, or_false] at hkey
    rcases hkey with rfl | rfl | rfl
    · rfl
    · rfl
    · rfl

/-! ## A logout is final -/

theorem loggedOut_init : Ram.init.LoggedOut := ⟨rfl, rfl, rfl, rfl, rfl⟩

section
variable {waiting : Option Nat} {s : State} {caller : Nat}

theorem Leaving.goTo {pc : Pc} (h : Leaving waiting s) (hpc : ¬ pc.Grants)
    (hwaits : s.callers caller ≠ .served .ok .logout) : Leaving waiting (s.goTo caller pc) where
  nvs := h.nvs
  callers other := by
    by_cases hother : other = caller
    · rw [hother, State.goTo_self]
      exact hpc
    · rw [State.goTo_of_ne s hother]
      exact h.callers other
  ram := by
    refine h.ram.imp id fun ⟨other, hwaiting, hserved⟩ => ⟨other, hwaiting, ?_⟩
    have hother : other ≠ caller := by
      rintro rfl
      exact hwaits hserved
    rw [State.goTo_of_ne s hother]
    exact hserved

theorem Leaving.dispatch {semaphore : Bool} {request : Request} {pending : Pending}
    (h : Leaving waiting s) (hwaits : s.callers caller ≠ .served .ok .logout)
    (hstoring : ¬ (Pc.storing request pending).Grants)
    (hserved : ∀ err, ¬ (Pc.served err pending).Grants) :
    Leaving waiting (dispatchNvsRequest s caller semaphore request pending) := by
  unfold dispatchNvsRequest
  split
  · exact h.goTo (hserved _) hwaits
  · split
    · exact h.goTo (hserved _) hwaits
    · exact h.goTo hstoring hwaits

theorem Leaving.call {env : Env} (h : Leaving waiting s)
    (hwaits : s.callers caller ≠ .served .ok .logout) (c : Call) :
    Leaving waiting (call s caller env c) := by
  have hrequest : ∀ method encodes, Leaving waiting (request s caller env method encodes) := by
    intro method encodes
    unfold request
    split
    · exact h.goTo id hwaits
    · split
      · exact h.goTo id hwaits
      · split
        · exact h.goTo id hwaits
        · split
          · exact h.goTo id hwaits
          · exact h.goTo id hwaits
  cases c with
  | setAuthUrl url =>
    cases hnormal : normalizeBaseUrl url with
    | error err =>
      simp only [Account.call, hnormal]
      exact h.goTo id hwaits
    | ok normalizedUrl =>
      simp only [Account.call, hnormal]
      exact h.dispatch hwaits id fun _ => id
  | requestToken => exact hrequest _ _
  | requestAuth username => exact hrequest _ _
  | logout => exact h.dispatch hwaits id fun _ => id
  | setScrobblingEnabled enabled => exact h.dispatch hwaits id fun _ => id
  | setNowPlayingEnabled enabled => exact h.dispatch hwaits id fun _ => id

theorem Leaving.restart (h : Leaving waiting s) (io : Io) (proxy started : Bool) :
    Leaving waiting (restart s io proxy started) := by
  have hload := keepsOut_loadState io s.nvs h.nvs
  unfold Account.restart
  split
  · exact ⟨h.nvs, fun _ => id, .inl loggedOut_init⟩
  · split
    next result nvs hrun =>
      rw [hrun] at hload
      cases result with
      | error err => exact ⟨hload.1, fun _ => id, .inl loggedOut_init⟩
      | ok persisted =>
        obtain ⟨htoken, hsessionKey, husername⟩ := hload.2 persisted rfl
        refine ⟨hload.1, fun _ => id, .inl ?_⟩
        simp only [Ram.load, htoken, hsessionKey, husername]
        exact ⟨rfl, rfl, rfl, rfl, rfl⟩

theorem loggedOut_finish {ram : Ram} {err : EspErr} {pending : Pending}
    (h : ¬ (Pc.served err pending).Grants) (hram : ram.LoggedOut) :
    (pending.finish err ram).1.LoggedOut := by
  cases pending with
  | session username => exact absurd trivial h
  | token => exact hram
  | setAuthUrl url =>
    simp only [Pending.finish]
    split
    · exact ⟨hram.token, hram.sessionKey, hram.username, hram.hasToken, hram.hasSession⟩
    · exact hram
  | logout =>
    simp only [Pending.finish]
    split
    · exact ⟨rfl, rfl, rfl, rfl, rfl⟩
    · exact hram
  | scrobbling enabled =>
    simp only [Pending.finish]
    split
    · exact ⟨hram.token, hram.sessionKey, hram.username, hram.hasToken, hram.hasSession⟩
    · exact hram
  | nowPlaying enabled =>
    simp only [Pending.finish]
    split
    · exact ⟨hram.token, hram.sessionKey, hram.username, hram.hasToken, hram.hasSession⟩
    · exact hram

/-- **What one step preserves** when the server gives nothing. -/
theorem leaving_step {json : Json} {t : State} {a : Action} (h : Leaving waiting s)
    (hcond : NothingGranted json s a) (hstep : step json s a = some t) : Leaving waiting t := by
  cases a with
  | call caller c env =>
    simp only [step] at hstep
    split at hstep
    · next returned hpc =>
      exact Option.some.inj hstep ▸ h.call (by rw [hpc]; exact Pc.noConfusion) c
    · cases hstep
  | perform caller response semaphore =>
    simp only [step] at hstep
    split at hstep
    · next url method hpc =>
      obtain ⟨buffer, hbuffer, hstep⟩ := Option.bind_eq_some_iff.mp hstep
      have hnone := fun value => hcond url method buffer value hpc hbuffer
      cases hreceived : received json method response buffer with
      | ok value => exact absurd hreceived (hnone value)
      | error err =>
        rw [hreceived] at hstep
        exact Option.some.inj hstep ▸ h.goTo id (by rw [hpc]; exact Pc.noConfusion)
    · cases hstep
  | serve caller io =>
    simp only [step] at hstep
    split at hstep
    · next request pending hpc =>
      have hgrants := h.callers caller
      rw [hpc] at hgrants
      have hserved : ∀ err, ¬ (Pc.served err pending).Grants := by
        intro err hsession
        cases pending with
        | session username =>
          refine hgrants ?_
          cases request <;> exact trivial
        | setAuthUrl url => exact hsession
        | token => exact hsession
        | logout => exact hsession
        | scrobbling enabled => exact hsession
        | nowPlaying enabled => exact hsession
      have hkept : Leaving waiting { s with nvs := (processNvsRequest io request s.nvs).1 } :=
        ⟨loggedOut_processNvsRequest hgrants h.nvs, h.callers, h.ram⟩
      exact Option.some.inj hstep ▸ hkept.goTo (hserved _) (by rw [hpc]; exact Pc.noConfusion)
    · cases hstep
  | resume caller =>
    simp only [step] at hstep
    split at hstep
    · next err pending hpc =>
      have hgrants := h.callers caller
      rw [hpc] at hgrants
      obtain rfl := Option.some.inj hstep
      have hidle : ∀ other, ¬ (({ s with ram := (pending.finish err s.ram).1 }.goTo caller
          (.idle (some (pending.finish err s.ram).2))).callers other).Grants := by
        intro other
        by_cases hother : other = caller
        · rw [hother, State.goTo_self]
          exact id
        · rw [State.goTo_of_ne _ hother]
          exact h.callers other
      refine ⟨h.nvs, hidle, ?_⟩
      rcases h.ram with hram | ⟨other, hwaiting, hserved⟩
      · exact .inl (loggedOut_finish hgrants hram)
      · by_cases hother : other = caller
        · -- The logout itself returns.
          subst hother
          rw [hpc] at hserved
          cases hserved
          exact .inl ⟨rfl, rfl, rfl, rfl, rfl⟩
        · refine .inr ⟨other, hwaiting, ?_⟩
          rw [State.goTo_of_ne _ hother]
          exact hserved
    · cases hstep
  | restart io proxy started => exact Option.some.inj hstep ▸ h.restart io proxy started

/-- A call that has ended is not one that waits. -/
theorem callers_ends {json : Json} {t : State} {a : Action} (hends : a.Ends caller)
    (hstep : step json s a = some t) : ∃ returned, t.callers caller = .idle returned := by
  cases a with
  | call other c env => exact hends.elim
  | perform other response semaphore => exact hends.elim
  | serve other io => exact hends.elim
  | resume other =>
    obtain rfl : other = caller := hends
    simp only [step] at hstep
    split at hstep
    · exact ⟨_, Option.some.inj hstep ▸ State.goTo_self ..⟩
    · cases hstep
  | restart io proxy started =>
    refine ⟨none, Option.some.inj hstep ▸ ?_⟩
    unfold Account.restart
    split
    · rfl
    · split
      split
      · rfl
      · rfl

/-- When the logout returns, or the device restarts, it has reached the account. -/
theorem leaving_ends {json : Json} {t : State} {a : Action} (h : Leaving (some caller) s)
    (hends : a.Ends caller) (hcond : NothingGranted json s a)
    (hstep : step json s a = some t) : Leaving none t := by
  have hkept := leaving_step h hcond hstep
  refine ⟨hkept.nvs, hkept.callers, .inl (hkept.ram.resolve_right ?_)⟩
  rintro ⟨other, hwaiting, hserved⟩
  obtain rfl := Option.some.inj hwaiting
  obtain ⟨returned, hidle⟩ := callers_ends hends hstep
  rw [hidle] at hserved
  cases hserved

theorem leaving_run {json : Json} {t : State} {as : List Action} (h : Leaving waiting s)
    (hcond : Runs.Along (step json) (NothingGranted json) s as)
    (hrun : Runs.run (step json) s as = some t) : Leaving waiting t :=
  Runs.run_invariant (fun _ _ _ h hC hstep => leaving_step h hC hstep) h hcond hrun

end

/-- **A logout is final**: once the NVS task has served a logout without an error, while no
other task was about to store a token or a session, then whatever calls, failures and
restarts follow, as long as the server gives no new token or session NVS holds none, and
from when that logout has returned, or the device has restarted, neither does the account. -/
theorem logout_final {json : Json} {s t u : State} {caller : Nat} {io : Io} {as : List Action}
    (hlogout : s.callers caller = .storing .clearSession .logout)
    (hothers : ∀ other, ¬ (s.callers other).Grants)
    (hserve : step json s (.serve caller io) = some t)
    (hok : t.callers caller = .served .ok .logout)
    (hrun : Runs.run (step json) t as = some u)
    (hcond : Runs.Along (step json) (NothingGranted json) t as) :
    u.nvs.LoggedOut ∧ ((∃ a ∈ as, a.Ends caller) → u.ram.LoggedOut) := by
  have hstart : Leaving (some caller) t := by
    simp only [step, hlogout] at hserve
    obtain rfl := Option.some.inj hserve
    rw [State.goTo_self] at hok
    have herr : (processNvsRequest io .clearSession s.nvs).2 = .ok := (Pc.served.inj hok).1
    refine ⟨clearSession_ok herr, fun other => ?_, .inr ⟨caller, rfl, ?_⟩⟩
    · by_cases hother : other = caller
      · rw [hother, State.goTo_self]
        exact id
      · rw [State.goTo_of_ne _ hother]
        exact hothers other
    · rw [State.goTo_self]
      exact hok
  refine ⟨(leaving_run hstart hcond hrun).nvs, ?_⟩
  rintro ⟨a, hmem, hends⟩
  -- The run up to the end of the call, and what comes after it.
  obtain ⟨before, after, rfl⟩ := List.append_of_mem hmem
  rw [Runs.run_append] at hrun
  obtain ⟨v, hbefore, hrun⟩ := Option.bind_eq_some_iff.mp hrun
  rw [Runs.run_cons] at hrun
  obtain ⟨w, hstep, hafter⟩ := Option.bind_eq_some_iff.mp hrun
  obtain ⟨hcondBefore, hcondRest⟩ := Runs.along_append.mp hcond
  obtain ⟨hgranted, hcondAfter⟩ := hcondRest v hbefore
  have hended := leaving_ends (leaving_run hstart hcondBefore hbefore) hends hgranted hstep
  have hend := leaving_run hended (hcondAfter w hstep) hafter
  refine hend.ram.resolve_right ?_
  rintro ⟨other, hwaiting, -⟩
  cases hwaiting

/-- A device that is logged in and on its way to log out. -/
def loggingOut : State where
  ram := { Ram.init with sessionKey := [107], hasSession := true }
  nvs := ⟨fun key => if key = .sessionKey then some [107] else none, fun _ => none⟩
  hasQueue := true
  callers caller := if caller = 0 then .storing .clearSession .logout else .idle none

/-- Another task logs out as well; its call has not returned when the first one has. -/
theorem logout_final_loggingOut :
    ∃ t u, step noJson loggingOut (.serve 0 .working) = some t ∧
      Runs.run (step noJson) t [.call 1 .logout ⟨true, true, true, true⟩, .serve 1 .working, .resume 0] =
        some u ∧
      u.nvs.LoggedOut ∧ u.ram.LoggedOut := by
  obtain ⟨t, ht⟩ := Option.isSome_iff_exists.mp
    (show (step noJson loggingOut (.serve 0 .working)).isSome = true from rfl)
  have hok : t.callers 0 = .served .ok .logout := by
    cases ht
    rfl
  obtain ⟨u, hu⟩ := Option.isSome_iff_exists.mp
    (show (Runs.run (step noJson) t
        [.call 1 .logout ⟨true, true, true, true⟩, .serve 1 .working, .resume 0]).isSome = true by
      cases ht
      rfl)
  have hothers : ∀ other, ¬ (loggingOut.callers other).Grants := by
    intro other
    cases other with
    | zero => exact id
    | succ n => exact id
  have hcond : Runs.Along (step noJson) (NothingGranted noJson) t
      [.call 1 .logout ⟨true, true, true, true⟩, .serve 1 .working, .resume 0] :=
    ⟨trivial, fun _ _ => ⟨trivial, fun _ _ => ⟨trivial, fun _ _ => trivial⟩⟩⟩
  obtain ⟨hnvs, hram⟩ := logout_final rfl hothers ht hok hu hcond
  exact ⟨t, u, ht, hu, hnvs, hram ⟨.resume 0, by simp, rfl⟩⟩

end Jukeboy.Lastfm.Account
