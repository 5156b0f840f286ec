import Jukeboy.Wifi.Handlers

/-! # A scan and the connection state

The state variable that says whether the link is up also says that a scan is
under way. Between a scan and its end the variable comes back to `connected` only
by an address; a reconnect message in between finds the link down. -/
namespace Jukeboy.Wifi.ScanState

open Jukeboy.Base Jukeboy.Base.Runs
open Jukeboy.Wifi.Service
open Jukeboy.Wifi.Slots (ServiceState)

variable {s t : State} {x : Step}

/-! ## What comes between a scan and its end -/

/-- Neither a connect command, a disconnect, nor the end of the scan. -/
def between : Step → Bool
  | .handle _ (.connectSlot _) | .handle _ .disconnect | .handle _ (.evtDisconnected _)
  | .handle _ .evtScanDone => false
  | _ => true

/-- `CMD_RECONNECT_TIMER` or `CMD_RECONNECT_NOW`. -/
def isReconnect : Step → Bool
  | .handle _ .reconnectTimer | .handle _ .reconnectNow => true
  | _ => false

/-- What a scan must not lose of the connection in `s`, when it ends in `t`. -/
structure Kept (s t : State) : Prop where
  state : t.getState = .connected
  internet : t.hasInternet = s.hasInternet
  slot : t.getActiveSlot = s.getActiveSlot
  calls : t.calls = s.calls
  later : ∀ more, more.all isReconnect = true → (run t more).calls = t.calls

/-- Whether the link counts as up, as scans and addresses set it. -/
def rejoined : Bool → Step → Bool
  | _, .handle _ .scan => false
  | _, .handle _ (.evtGotIp _) => true
  | up, _ => up

/-- The flags of the DNS lookup, as addresses and answers set them. -/
def answered : Bool × Bool → Step → Bool × Bool
  | flags, .handle env (.evtGotIp _) => tested env flags
  | _, .handle _ .evtConnectivityOk => (false, true)
  | _, .handle _ .evtConnectivityFailed => (false, false)
  | flags, _ => flags

/-- A reconnect message that finds the link down reaches no `esp_wifi_connect`, and
the service has no slot for the link that it could lose. -/
def Spared (env : Env) (now : Bool) (s : State) : Prop :=
  acts now s = true →
    (buildReconnectOrder env s).any (reaches env s) = false ∧ s.currentSlot = invalidSlot

def Undisturbing (s : State) : Step → Prop
  | .handle env .reconnectTimer => Spared env false s
  | .handle env .reconnectNow => Spared env true s
  | _ => True

instance (env : Env) (now : Bool) (s : State) : Decidable (Spared env now s) :=
  inferInstanceAs (Decidable (_ → _))

instance : ∀ (s : State) (x : Step), Decidable (Undisturbing s x)
  | s, .handle env .reconnectTimer => inferInstanceAs (Decidable (Spared env false s))
  | s, .handle env .reconnectNow => inferInstanceAs (Decidable (Spared env true s))
  | _, .handle _ (.connectSlot _) | _, .handle _ .disconnect | _, .handle _ .scan
  | _, .handle _ (.setAutoreconnect _) | _, .handle _ (.evtDisconnected _)
  | _, .handle _ .evtScanDone | _, .handle _ (.evtGotIp _) | _, .handle _ .evtConnectivityOk
  | _, .handle _ .evtConnectivityFailed | _, .save .. => .isTrue trivial

/-- The address comes again after the last scan, the reconnect messages do no harm,
and the flag of the connectivity test ends as it was. -/
structure Undisturbed (s : State) (span : List Step) : Prop where
  rejoined : span.foldl ScanState.rejoined false = true
  spared : Along next Undisturbing { s with state := .scanning } span
  answered :
    (span.foldl ScanState.answered (s.dnsLookupActive, s.connectivityOk)).2 = s.connectivityOk

/-! ## One step between a scan and its end -/

/-- What a step between a scan and its end leaves that makes no driver call. -/
structure Quiet (x : Step) (s t : State) : Prop where
  state : t.state ≠ .connecting
  up : (t.state == .connected) = rejoined (s.state == .connected) x
  ip : s.haveIpInfo = true → t.haveIpInfo = true
  flags : (t.dnsLookupActive, t.connectivityOk) =
    answered (s.dnsLookupActive, s.connectivityOk) x
  slot : t.currentSlot = s.currentSlot ∨ t.currentSlot = invalidSlot
  spared : t.currentSlot = s.currentSlot → Undisturbing s x

theorem quiet_reconnect {env : Env} {now : Bool} (hstate : s.state ≠ .connecting)
    (hx : rejoined (s.state == .connected) x = (s.state == .connected))
    (hflags : answered (s.dnsLookupActive, s.connectivityOk) x =
      (s.dnsLookupActive, s.connectivityOk))
    (hspared : Undisturbing s x = Spared env now s)
    (hcalls : (processReconnect env now s).calls = s.calls) :
    Quiet x s (processReconnect env now s) := by
  rcases processReconnect_cases env now s with ⟨hidle, heq⟩ | ⟨hacts, h⟩
  · rw [heq]
    refine ⟨hstate, hx.symm, id, hflags.symm, .inl rfl, fun _ => ?_⟩
    rw [hspared]
    exact fun hacts => by cases hidle.symm.trans hacts
  · obtain ⟨made, hmade, hiff⟩ := h.calls
    have hnil : made = [] :=
      List.map_eq_nil_iff.mp (List.append_right_eq_self.mp (hmade.symm.trans hcalls))
    have hreaches := hiff.mp hnil
    obtain ⟨hdown, hknown, hslot, -⟩ := h.fails (works_none hreaches)
    have hup : (s.state == .connected) = false := by
      unfold acts State.linked at hacts
      cases hs : s.state == .connected with
      | false => rfl
      | true => simp [hs] at hacts
    simp only [known, Prod.mk.injEq] at hknown
    obtain ⟨hip, hactive, hok⟩ := hknown
    refine ⟨by rw [hdown]; exact fun h => (by cases h), by rw [hx, hup, hdown]; rfl,
      fun h => hip.trans h, ?_, .inr hslot, fun hsame => ?_⟩
    · rw [hflags, hactive, hok]
    · rw [hspared]
      exact fun _ => ⟨hreaches, hsame.symm.trans hslot⟩

theorem quiet_step (hx : between x = true) (hstate : s.state ≠ .connecting)
    (hcalls : (step s x).calls = s.calls) : Quiet x s (step s x) := by
  cases x with
  | save => exact ⟨hstate, rfl, id, rfl, .inl rfl, fun _ => trivial⟩
  | handle env msg =>
    change Quiet _ s (processCmd env msg s)
    cases msg with
    | connectSlot | disconnect | evtDisconnected | evtScanDone => cases hx
    | scan => exact ⟨fun h => (by cases h), rfl, id, rfl, .inl rfl, fun _ => trivial⟩
    | evtConnectivityOk => exact ⟨hstate, rfl, id, rfl, .inl rfl, fun _ => trivial⟩
    | evtConnectivityFailed => exact ⟨hstate, rfl, id, rfl, .inl rfl, fun _ => trivial⟩
    | setAutoreconnect enable =>
      obtain ⟨nvs, posted, heq⟩ := processSetAutoreconnect_eq env enable s
      rw [processCmd, heq]
      exact ⟨hstate, rfl, id, rfl, .inl rfl, fun _ => trivial⟩
    | reconnectTimer => exact quiet_reconnect hstate rfl rfl rfl hcalls
    | reconnectNow => exact quiet_reconnect hstate rfl rfl rfl hcalls
    | evtGotIp info =>
      have h := processGotIp_joins env info s
      refine ⟨by rw [processCmd, h.state]; exact fun h => (by cases h),
        by rw [processCmd, h.state]; rfl, fun _ => h.ip.1, h.flags, .inl h.slot, fun _ => trivial⟩

/-- A step that disturbs nothing makes no driver call and keeps the slot. -/
theorem undisturbing_step (hx : between x = true) (h : Undisturbing s x) :
    (step s x).calls = s.calls ∧ (step s x).currentSlot = s.currentSlot := by
  have hreconnect : ∀ (env : Env) (now : Bool), Spared env now s →
      (processReconnect env now s).calls = s.calls ∧
        (processReconnect env now s).currentSlot = s.currentSlot := by
    intro env now hspared
    rcases processReconnect_cases env now s with ⟨-, heq⟩ | ⟨hacts, h⟩
    · rw [heq]
      exact ⟨rfl, rfl⟩
    · obtain ⟨hreaches, hslot⟩ := hspared hacts
      obtain ⟨made, hmade, hiff⟩ := h.calls
      have hlost := (h.fails (works_none hreaches)).2.2.1
      rw [hmade, hiff.mpr hreaches, List.map_nil, List.append_nil, hlost, hslot]
      exact ⟨rfl, rfl⟩
  cases x with
  | save => exact ⟨rfl, rfl⟩
  | handle env msg =>
    change (processCmd env msg s).calls = s.calls ∧
      (processCmd env msg s).currentSlot = s.currentSlot
    cases msg with
    | connectSlot | disconnect | evtDisconnected | evtScanDone => cases hx
    | scan | evtConnectivityOk | evtConnectivityFailed => exact ⟨rfl, rfl⟩
    | setAutoreconnect enable =>
      obtain ⟨nvs, posted, heq⟩ := processSetAutoreconnect_eq env enable s
      rw [processCmd, heq]
      exact ⟨rfl, rfl⟩
    | reconnectTimer => exact hreconnect env false h
    | reconnectNow => exact hreconnect env true h
    | evtGotIp info =>
      exact ⟨(processGotIp_joins env info s).calls, (processGotIp_joins env info s).slot⟩

/-! ## The whole span -/

/-- What a span leaves that makes no driver call. -/
structure QuietSpan (span : List Step) (s t : State) : Prop where
  up : (t.state == .connected) = span.foldl rejoined (s.state == .connected)
  ip : s.haveIpInfo = true → t.haveIpInfo = true
  flags : (t.dnsLookupActive, t.connectivityOk) =
    span.foldl answered (s.dnsLookupActive, s.connectivityOk)
  slot : t.currentSlot = s.currentSlot ∨ t.currentSlot = invalidSlot
  spared : t.currentSlot = s.currentSlot → Along next Undisturbing s span

theorem quiet_run {span : List Step} (hspan : span.all between = true)
    (hstate : s.state ≠ .connecting) (hcalls : (run s span).calls = s.calls) :
    QuietSpan span s (run s span) := by
  induction span generalizing s with
  | nil => exact ⟨rfl, id, rfl, .inl rfl, fun _ => trivial⟩
  | cons x span ih =>
    rw [List.all_cons, Bool.and_eq_true] at hspan
    -- a driver call made by the first step would never be taken back
    have hfirst : (step s x).calls = s.calls :=
      ((step_calls s x).eq_of_length_le
        (hcalls ▸ (run_calls (step s x) span).length_le)).symm
    have hx := quiet_step hspan.1 hstate hfirst
    have hrest := ih hspan.2 hx.state (hcalls.trans hfirst.symm)
    change QuietSpan (x :: span) s (run (step s x) span)
    refine ⟨by rw [hrest.up, hx.up]; rfl, fun h => hrest.ip (hx.ip h),
      by rw [hrest.flags, hx.flags]; rfl, ?_, fun hsame => ?_⟩
    · rcases hrest.slot with h | h
      · rw [h]
        exact hx.slot
      · exact .inr h
    · -- a slot lost by the first step would not come back
      have hkept : (step s x).currentSlot = s.currentSlot := by
        rcases hx.slot with h | h
        · exact h
        · rcases hrest.slot with h' | h'
          · exact h'.symm.trans hsame
          · rw [h, ← h', hsame]
      refine ⟨hx.spared hkept, fun u hu => ?_⟩
      obtain rfl : step s x = u := Option.some.inj hu
      exact hrest.spared (hsame.trans hkept.symm)

theorem undisturbing_run {span : List Step} (hspan : span.all between = true)
    (h : Along next Undisturbing s span) :
    (run s span).calls = s.calls ∧ (run s span).currentSlot = s.currentSlot := by
  induction span generalizing s with
  | nil => exact ⟨rfl, rfl⟩
  | cons x span ih =>
    rw [List.all_cons, Bool.and_eq_true] at hspan
    obtain ⟨hcalls, hslot⟩ := undisturbing_step hspan.1 h.1
    obtain ⟨hcalls', hslot'⟩ := ih hspan.2 (h.2 (step s x) rfl)
    exact ⟨hcalls'.trans hcalls, hslot'.trans hslot⟩

/-! ## The link once it is up -/

/-- Neither a connect command, a disconnect nor a scan. -/
def leavesUp : Step → Bool
  | .handle _ (.connectSlot _) | .handle _ .disconnect | .handle _ (.evtDisconnected _)
  | .handle _ .scan => false
  | _ => true

theorem acts_connected (hup : s.state = .connected) (now : Bool) : acts now s = false := by
  unfold acts State.linked
  rw [hup]
  rfl

theorem up_step (hx : leavesUp x = true) (hup : s.state = .connected) (hip : s.haveIpInfo = true) :
    (step s x).state = .connected ∧ (step s x).haveIpInfo = true := by
  cases x with
  | save => exact ⟨hup, hip⟩
  | handle env msg =>
    change (processCmd env msg s).state = .connected ∧ (processCmd env msg s).haveIpInfo = true
    cases msg with
    | connectSlot | disconnect | evtDisconnected | scan => cases hx
    | evtConnectivityOk | evtConnectivityFailed => exact ⟨hup, hip⟩
    | setAutoreconnect enable =>
      obtain ⟨nvs, posted, heq⟩ := processSetAutoreconnect_eq env enable s
      rw [processCmd, heq]
      exact ⟨hup, hip⟩
    | reconnectTimer | reconnectNow =>
      rw [processCmd, processReconnect_idle (acts_connected hup _)]
      exact ⟨hup, hip⟩
    | evtScanDone =>
      obtain ⟨results, posted, heq⟩ := processScanDone_eq env s
      have hscanning : s.state ≠ .scanning := by rw [hup]; intro h; cases h
      rw [processCmd, heq, if_neg hscanning]
      exact ⟨hup, hip⟩
    | evtGotIp info =>
      exact ⟨(processGotIp_joins env info s).state, (processGotIp_joins env info s).ip.1⟩

theorem up_run {steps : List Step} (hsteps : steps.all leavesUp = true)
    (hup : s.state = .connected) (hip : s.haveIpInfo = true) :
    (run s steps).state = .connected ∧ (run s steps).haveIpInfo = true := by
  induction steps generalizing s with
  | nil => exact ⟨hup, hip⟩
  | cons x steps ih =>
    rw [List.all_cons, Bool.and_eq_true] at hsteps
    obtain ⟨hup', hip'⟩ := up_step hsteps.1 hup hip
    exact ih hsteps.2 hup' hip'

/-- A reconnect message leaves a link that is up as it is. -/
theorem reconnect_run {more : List Step} (hmore : more.all isReconnect = true)
    (hup : s.state = .connected) : run s more = s := by
  induction more generalizing s with
  | nil => rfl
  | cons x more ih =>
    rw [List.all_cons, Bool.and_eq_true] at hmore
    have hx : step s x = s := by
      cases x with
      | save => cases hmore.1
      | handle env msg =>
        cases msg with
        | reconnectTimer => exact processReconnect_idle (acts_connected hup false)
        | reconnectNow => exact processReconnect_idle (acts_connected hup true)
        | _ => cases hmore.1
    change run (step s x) more = s
    rw [hx]
    exact ih hmore.2 hup

/-! ## What a scan leaves unchanged -/

/-- What the end of a scan leaves. -/
theorem scan_done (env : Env) (s : State) :
    (processScanDone env s).calls = s.calls ∧
      ((processScanDone env s).state = .connected ↔ s.state = .connected) ∧
        (s.state = .connected → (processScanDone env s).getActiveSlot = s.currentSlot ∧
          (processScanDone env s).hasInternet = (s.connectivityOk && s.haveIpInfo)) := by
  obtain ⟨results, posted, heq⟩ := processScanDone_eq env s
  have hstate : (processScanDone env s).state = .connected ↔ s.state = .connected := by
    rw [heq]
    dsimp only
    split
    · next h => exact ⟨fun h => (by cases h), fun hup => by cases h.symm.trans hup⟩
    · exact Iff.rfl
  refine ⟨by rw [heq], hstate, fun hup => ⟨?_, ?_⟩⟩
  · have hcurrent : (processScanDone env s).currentSlot = s.currentSlot := by rw [heq]
    exact (if_pos (.inr (hstate.mpr hup))).trans hcurrent
  · have hok : (processScanDone env s).connectivityOk = s.connectivityOk := by rw [heq]
    have hip : (processScanDone env s).haveIpInfo = s.haveIpInfo := by rw [heq]
    unfold State.hasInternet
    rw [hok, hip, hstate.mpr hup]
    simp

/-- **Scans and the connection.** A scan of a link that is up ends with the
connection state it began with exactly when the address comes again after the last
scan, the reconnect messages in between find nothing to connect to, and the
answers of the DNS lookup leave the flag as it was. A scan requested while
connecting does not hide the address. -/
theorem scan_keeps_connection (s : State) (env : Env) (span : List Step) :
    (s.state = .connected → s.haveIpInfo = true → span.all between = true → ∀ env',
      (Kept s (run s (.handle env .scan :: (span ++ [.handle env' .evtScanDone]))) ↔
        Undisturbed s span)) ∧
    (s.state = .connecting → ∀ env' info after, after.all leavesUp = true →
      (run s (.handle env .scan :: (span ++ .handle env' (.evtGotIp info) :: after))).getState =
          .connected ∧
        (run s (.handle env .scan :: (span ++ .handle env' (.evtGotIp info) :: after))).haveIpInfo =
          true) := by
  constructor
  · intro hup hip hspan env'
    have hrun : run s (.handle env .scan :: (span ++ [.handle env' .evtScanDone])) =
        processScanDone env' (run { s with state := .scanning } span) :=
      run_append { s with state := .scanning } span [.handle env' .evtScanDone]
    have hactive : s.getActiveSlot = s.currentSlot := if_pos (.inr hup)
    have hinternet : s.hasInternet = s.connectivityOk := by
      unfold State.hasInternet
      rw [hup, hip]
      simp
    rw [hrun]
    obtain ⟨hcalls, hstate, hseen⟩ := scan_done env' (run { s with state := .scanning } span)
    have hquiet := quiet_run (s := { s with state := .scanning }) hspan (fun h => by cases h)
    generalize hu : run { s with state := .scanning } span = u at hcalls hstate hseen hquiet ⊢
    constructor
    · intro h
      obtain ⟨hfirst, hip', hflags, -, hspared⟩ := hquiet (hcalls.symm.trans h.calls)
      have hconnected : u.state = .connected := hstate.mp h.state
      obtain ⟨hslot, hnet⟩ := hseen hconnected
      refine ⟨by rw [hconnected] at hfirst; exact hfirst.symm,
        hspared (hslot.symm.trans (h.slot.trans hactive)), ?_⟩
      have hok := hnet.symm.trans (h.internet.trans hinternet)
      rw [hip' hip, Bool.and_true] at hok
      exact (congrArg (·.2) hflags).symm.trans hok
    · intro h
      obtain ⟨hmade, hslot⟩ := undisturbing_run hspan h.spared
      rw [hu] at hmade hslot
      obtain ⟨hfirst, hip', hflags, -, -⟩ := hquiet hmade
      have hconnected : u.state = .connected := by
        have hjoined := hfirst.trans h.rejoined
        exact of_decide_eq_true hjoined
      obtain ⟨hslot', hnet⟩ := hseen hconnected
      refine ⟨hstate.mpr hconnected, ?_, hslot'.trans (hslot.trans hactive.symm),
        hcalls.trans hmade, fun more hmore => ?_⟩
      · rw [hnet, hip' hip, Bool.and_true, hinternet]
        exact (congrArg (·.2) hflags).trans h.answered
      · rw [reconnect_run hmore (hstate.mpr hconnected)]
  · intro _ env' info after hafter
    have hrun : run s (.handle env .scan :: (span ++ .handle env' (.evtGotIp info) :: after)) =
        run (processGotIp env' info (run { s with state := .scanning } span)) after :=
      run_append { s with state := .scanning } span (.handle env' (.evtGotIp info) :: after)
    rw [hrun]
    have h := processGotIp_joins env' info (run { s with state := .scanning } span)
    exact up_run hafter h.state h.ip.1

/-- A device whose address is given again while it scans, and answered for again; and
one that scans while it connects. -/
theorem scan_keeps_connection_renewed :
    Kept online (run online (.handle .fine .scan ::
      ([.handle .fine (.evtGotIp ⟨1, 2, 3⟩), .handle .fine .reconnectTimer,
        .handle .fine .evtConnectivityOk] ++ [.handle .fine .evtScanDone]))) ∧
    (run (init .home .fine) (.handle .fine .scan :: ([.handle .fine .reconnectNow] ++
      .handle .fine (.evtGotIp ⟨1, 2, 3⟩) :: [.handle .fine .evtScanDone]))).getState =
        .connected :=
  ⟨((scan_keeps_connection online .fine _).1 (by decide +kernel) (by decide +kernel)
      (by decide +kernel) .fine).mpr ⟨by decide +kernel, by decide +kernel, by decide +kernel⟩,
    ((scan_keeps_connection (init .home .fine) .fine _).2 (by decide +kernel) .fine ⟨1, 2, 3⟩ _
      (by decide +kernel)).1⟩

/-- A scan of a link that is up, and nothing else: the service calls itself
disconnected, without an active slot and without internet, and the next reconnect
message connects again over the link. -/
theorem scan_loses_connection :
    let t := run online [.handle .fine .scan, .handle .fine .evtScanDone]
    (online.state = .connected ∧ online.haveIpInfo = true ∧ online.hasInternet = true ∧
      online.getActiveSlot = 0) ∧
    (t.state = .disconnected ∧ t.hasInternet = false ∧ t.getActiveSlot = invalidSlot ∧
      (run t [.handle .fine .reconnectTimer]).calls = t.calls ++ [.connect 0]) ∧
    ¬ Kept online t := by
  refine ⟨by decide +kernel, by decide +kernel, fun h => ?_⟩
  exact absurd h.state (by decide +kernel)

end Jukeboy.Wifi.ScanState
