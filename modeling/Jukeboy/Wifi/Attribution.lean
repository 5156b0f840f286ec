import Jukeboy.Wifi.Handlers

/-! # Which link a fact is about

The driver's events and the answers of the DNS lookup carry no number of the
attempt they are about, and are queued behind the commands. Here each carries its
origin beside the message, and the service is watched: which connection its last
address belongs to, and whether a lookup begun since then succeeded. -/
namespace Jukeboy.Wifi.Attribution

open Jukeboy.Base Jukeboy.Base.Runs Jukeboy.CompanionApi.Tlv
open Jukeboy.CompanionApi.ServiceHandlers (wifiSlotCount)
open Jukeboy.Wifi.Service
open Jukeboy.Wifi.Slots (ServiceState)

/-! ## The service, watched -/

/-- How many addresses were processed; the lookups under way, each by the number of
addresses processed when it began; the number of the current connection's last
address; whether a lookup begun since then succeeded. -/
structure System where
  service : State
  addresses : Nat
  lookups : List Nat
  since : Option Nat
  verified : Bool

/-- A message is handled, or a slot is saved. The origin of an address is the number
of the `esp_wifi_connect` call whose link got it, that of an answer the lookup. -/
inductive Action where
  | handle (env : Env) (msg : Msg) (origin : Nat)
  | save (env : Slots.Env) (index : UInt8) (ssid password : Bytes)

namespace System

variable (s : System)

/-- Addresses are of links that were asked for, answers of lookups under way. -/
def Possible (origin : Nat) : Msg → Prop
  | .evtGotIp _ => origin < (connects s.service).length
  | .evtConnectivityOk | .evtConnectivityFailed => origin ∈ s.lookups
  | _ => True

instance (origin : Nat) : ∀ msg, Decidable (s.Possible origin msg)
  | .evtGotIp _ => inferInstanceAs (Decidable (_ < _))
  | .evtConnectivityOk | .evtConnectivityFailed => inferInstanceAs (Decidable (_ ∈ _))
  | .connectSlot _ | .disconnect | .scan | .setAutoreconnect _ | .reconnectTimer | .reconnectNow
  | .evtDisconnected _ | .evtScanDone => .isTrue trivial

/-- The address is of the latest connection attempt. -/
def current (origin : Nat) : Bool := origin + 1 == (connects s.service).length

/-- The lookup began at or after the current connection's last address. -/
def fresh (origin : Nat) : Bool := s.since.any (· ≤ origin)

/-- An address: the lookup it starts, if none is under way, is begun after it. -/
def noteAddress (env : Env) (origin : Nat) : System :=
  let number := s.addresses + 1
  let starts := !s.service.dnsLookupActive
  let since := if s.current origin then some number else s.since
  { s with
    addresses := number
    lookups := if starts && env.dns == .inProgress then number :: s.lookups else s.lookups
    since := since
    verified := !s.current origin && s.verified ||
      starts && env.dns == .ok && since.isSome }

/-- The current connection has ended, or another one is attempted. -/
def noteEnd (ended : Bool) : System :=
  if ended then { s with since := none, verified := false } else s

/-- What is seen of a message, when `after` is the service it leaves. -/
def note (env : Env) (msg : Msg) (origin : Nat) (after : State) : System :=
  match msg with
  | .evtGotIp _ => s.noteAddress env origin
  | .evtConnectivityOk =>
    { s with lookups := s.lookups.erase origin, verified := s.verified || s.fresh origin }
  | .evtConnectivityFailed => { s with lookups := s.lookups.erase origin }
  | .disconnect => s.noteEnd true
  | .evtDisconnected reason => s.noteEnd (decide (¬ expected reason s.service))
  | _ => s.noteEnd (connects after != connects s.service)

end System

def step (s : System) : Action → Option System
  | .handle env msg origin =>
    if s.Possible origin msg then
      let after := processCmd env msg s.service
      some { s.note env msg origin after with service := after }
    else none
  | .save env index ssid password =>
    some { s with service := saveSlot env index ssid password s.service }

/-- The service once `wifi_service_init` has returned. -/
def boot (nvs : Nvs) (env : Env) : System := ⟨init nvs env, 0, [], none, false⟩

/-! ## What is claimed, and when it holds -/

/-- The last successful slot and its copy in NVS stay, or an address sets them to
the slot of the attempt it comes from. -/
def Credited (s : System) (a : Action) (t : System) : Prop :=
  t.service.lastSuccessfulSlot = s.service.lastSuccessfulSlot ∧
      t.service.nvsLastSlot = s.service.nvsLastSlot ∨
    ∃ env info origin index, a = .handle env (.evtGotIp info) origin ∧
      (connects s.service)[origin]? = some index ∧
      t.service.lastSuccessfulSlot = (index.toNat : Int) ∧
      (t.service.nvsLastSlot = s.service.nvsLastSlot ∨
        t.service.nvsLastSlot = some (index.toNat : Int))

/-- No event is late enough to be taken for another link's: an address that finds a
slot set is of an attempt with the latest attempt's slot; a name resolved at once is
resolved for a connection that has its address; and an answer that finds the service
connected is to a lookup begun since the connection's last address, or changes
nothing. -/
def Timely (s : System) : Action → Prop
  | .handle env (.evtGotIp _) origin =>
    (hasSlot s.service → (connects s.service)[origin]? = (connects s.service).getLast?) ∧
      (s.service.dnsLookupActive = false → env.dns = .ok →
        s.current origin = true ∨ s.since.isSome = true)
  | .handle _ .evtConnectivityOk origin =>
    s.service.state = .connected → s.fresh origin = true ∨ s.verified = true
  | _ => True

instance (s : System) : ∀ a, Decidable (Timely s a)
  | .handle _ (.evtGotIp _) _ => inferInstanceAs (Decidable ((_ → _) ∧ (_ → _ → _ ∨ _)))
  | .handle _ .evtConnectivityOk _ => inferInstanceAs (Decidable (_ → _ ∨ _))
  | .handle _ (.connectSlot _) _ | .handle _ .disconnect _ | .handle _ .scan _
  | .handle _ (.setAutoreconnect _) _ | .handle _ .reconnectTimer _ | .handle _ .reconnectNow _
  | .handle _ (.evtDisconnected _) _ | .handle _ .evtScanDone _
  | .handle _ .evtConnectivityFailed _ | .save .. => .isTrue trivial

/-! ## The invariant -/

/-- The slot the service has for the link is the latest attempt's. -/
def Slotted (s : State) : Prop :=
  s.currentSlot = invalidSlot ∨
    ∃ index, s.currentSlot = (index.toNat : Int) ∧ (connects s).getLast? = some index

structure Sound (s : System) : Prop where
  slotted : Slotted s.service
  pending : s.service.dnsLookupActive = true → s.service.connectivityOk = false
  verified : s.service.state = .connected → s.service.connectivityOk = true → s.verified = true

/-! ## Messages without an origin -/

variable {s t : System} {u v : State} {env : Env} {msg : Msg}

/-- Neither an address nor an answer. -/
def plain : Msg → Bool
  | .evtGotIp _ | .evtConnectivityOk | .evtConnectivityFailed => false
  | _ => true

/-- The message ends the connection. -/
def ends (msg : Msg) (u v : State) : Bool :=
  match msg with
  | .disconnect => true
  | .evtDisconnected reason => decide (¬ expected reason u)
  | _ => connects v != connects u

/-- What a message without an origin leaves: a link that counts as up afterwards is
the one that was up before. -/
structure Plain (msg : Msg) (u v : State) : Prop where
  last : v.lastSuccessfulSlot = u.lastSuccessfulSlot
  nvsLast : v.nvsLastSlot = u.nvsLastSlot
  slotted : Slotted u → Slotted v
  pending : (u.dnsLookupActive = true → u.connectivityOk = false) →
    v.dnsLookupActive = true → v.connectivityOk = false
  up : v.state = .connected →
    u.state = .connected ∧ v.connectivityOk = u.connectivityOk ∧ ends msg u v = false

theorem slotted_congr (hslot : v.currentSlot = u.currentSlot) (hcalls : v.calls = u.calls)
    (h : Slotted u) : Slotted v := by
  unfold Slotted connects at h ⊢
  rw [hslot, hcalls]
  exact h

/-- A link that was attempted, or that could not be, is not up. -/
theorem plain_of_attempt (hkept : kept v = kept u) (hslotted : Slotted v)
    (hpending : (u.dnsLookupActive = true → u.connectivityOk = false) →
      v.dnsLookupActive = true → v.connectivityOk = false)
    (hdown : v.state = .connecting ∨ v.state = .disconnected) : Plain msg u v := by
  refine ⟨congrArg (·.2.1) hkept, congrArg (·.2.2.1) hkept, fun _ => hslotted, hpending,
    fun hup => ?_⟩
  rcases hdown with h | h
  · cases h.symm.trans hup
  · cases h.symm.trans hup

theorem plain_of_same (hlast : v.lastSuccessfulSlot = u.lastSuccessfulSlot)
    (hnvs : v.nvsLastSlot = u.nvsLastSlot) (hslot : v.currentSlot = u.currentSlot)
    (hcalls : v.calls = u.calls) (hknown : known v = known u)
    (hstate : v.state = .connected → u.state = .connected)
    (hends : connects v = connects u → ends msg u v = false) : Plain msg u v := by
  simp only [known, Prod.mk.injEq] at hknown
  obtain ⟨-, hactive, hok⟩ := hknown
  refine ⟨hlast, hnvs, slotted_congr hslot hcalls, fun h hv => ?_,
    fun hup => ⟨hstate hup, hok, hends ?_⟩⟩
  · rw [hok]
    exact h (hactive ▸ hv)
  · unfold connects
    rw [hcalls]

theorem pending_of_known (hknown : known v = known u)
    (h : u.dnsLookupActive = true → u.connectivityOk = false) (hv : v.dnsLookupActive = true) :
    v.connectivityOk = false := by
  simp only [known, Prod.mk.injEq] at hknown
  rw [hknown.2.2]
  exact h (hknown.2.1 ▸ hv)

theorem pending_of_reset (hknown : known v = (false, false, false)) :
    v.dnsLookupActive = true → v.connectivityOk = false := by
  simp only [known, Prod.mk.injEq] at hknown
  exact fun _ => hknown.2.2

theorem plain_reconnect (env : Env) (now : Bool) (u : State)
    (hends : connects (processReconnect env now u) = connects u →
      ends msg u (processReconnect env now u) = false) :
    Plain msg u (processReconnect env now u) := by
  rcases processReconnect_cases env now u with ⟨-, heq⟩ | ⟨-, h⟩
  · rw [heq] at hends ⊢
    exact plain_of_same rfl rfl rfl rfl rfl id hends
  · cases hworks : (buildReconnectOrder env u).any (works env u) with
    | true =>
      obtain ⟨hconnecting, hknown, index, hslot, hlast⟩ := h.succeeds hworks
      exact plain_of_attempt h.kept (.inr ⟨index, hslot, connects_getLast hlast⟩)
        (fun _ => pending_of_reset hknown) (.inl hconnecting)
    | false =>
      obtain ⟨hdown, hknown, hslot, -⟩ := h.fails hworks
      exact plain_of_attempt h.kept (.inl hslot) (pending_of_known hknown) (.inr hdown)

theorem plain_message (env : Env) (u : State) (hmsg : plain msg = true) :
    Plain msg u (processCmd env msg u) := by
  have hsame : ∀ v : State, connects v = connects u → (connects v != connects u) = false :=
    fun v h => by rw [h, bne_self_eq_false]
  cases msg with
  | evtGotIp | evtConnectivityOk | evtConnectivityFailed => cases hmsg
  | connectSlot index =>
    change Plain _ u (processConnectSlot env index u)
    cases hworks : works env u index with
    | true =>
      obtain ⟨found, heq⟩ := processConnectSlot_works hworks
      rw [heq]
      exact plain_of_attempt rfl (.inr ⟨index, rfl, connects_getLast List.getLast?_concat⟩)
        (fun _ => pending_of_reset rfl) (.inl rfl)
    | false =>
      obtain ⟨hkept, hdown, hslot, hknown, -⟩ := processConnectSlot_fails hworks
      exact plain_of_attempt hkept (.inl hslot) (pending_of_known hknown) (.inr hdown)
  | disconnect =>
    change Plain _ u (processDisconnect u)
    unfold processDisconnect
    dsimp only
    split
    · exact plain_of_attempt rfl (.inl rfl) (fun _ => pending_of_reset rfl) (.inr rfl)
    · exact plain_of_attempt rfl (.inl rfl) (fun _ => pending_of_reset rfl) (.inr rfl)
  | scan => exact plain_of_same rfl rfl rfl rfl rfl (fun h => by cases h) (hsame _)
  | setAutoreconnect enable =>
    obtain ⟨nvs, posted, heq⟩ := processSetAutoreconnect_eq env enable u
    rw [processCmd, heq]
    exact plain_of_same rfl rfl rfl rfl rfl id (hsame _)
  | reconnectTimer => exact plain_reconnect env false u (hsame _)
  | reconnectNow => exact plain_reconnect env true u (hsame _)
  | evtScanDone =>
    obtain ⟨results, posted, heq⟩ := processScanDone_eq env u
    rw [processCmd, heq]
    refine plain_of_same rfl rfl rfl rfl rfl (fun h => ?_) (hsame _)
    dsimp only at h
    split at h
    · cases h
    · exact h
  | evtDisconnected reason =>
    by_cases hexpected : expected reason u
    · obtain ⟨posted, heq⟩ := processDisconnected_expected env hexpected
      rw [processCmd, heq]
      refine plain_of_same rfl rfl rfl rfl rfl id fun _ => ?_
      exact decide_eq_false (not_not.mpr hexpected)
    · have h := processDisconnected_unexpected env hexpected
      cases hworks : (slotsLeft u).any (works env u) with
      | true =>
        obtain ⟨hconnecting, index, hslot, hlast⟩ := h.succeeds hworks
        exact plain_of_attempt h.kept (.inr ⟨index, hslot, connects_getLast hlast⟩)
          (fun _ => pending_of_reset h.known) (.inl hconnecting)
      | false =>
        obtain ⟨hdown, hslot, -⟩ := h.fails hworks
        exact plain_of_attempt h.kept (.inl hslot) (fun _ => pending_of_reset h.known) (.inr hdown)

/-! ## One step -/

theorem note_plain {origin : Nat} {after : State} (hmsg : plain msg = true) :
    s.note env msg origin after = s.noteEnd (ends msg s.service after) := by
  cases msg with
  | evtGotIp | evtConnectivityOk | evtConnectivityFailed => cases hmsg
  | _ => rfl

theorem sound_plain {origin : Nat} (hs : Sound s) (hmsg : plain msg = true) :
    let after := processCmd env msg s.service
    Sound { s.note env msg origin after with service := after } := by
  have h := plain_message env s.service hmsg
  dsimp only
  rw [note_plain hmsg]
  refine ⟨h.slotted hs.slotted, h.pending hs.pending, fun hup hok => ?_⟩
  obtain ⟨hbefore, hsame, hends⟩ := h.up hup
  change (s.noteEnd _).verified = true
  rw [hends]
  exact hs.verified hbefore (hsame ▸ hok)

theorem tested_pending {flags : Bool × Bool} (h : flags.1 = true → flags.2 = false)
    (hactive : (tested env flags).1 = true) : (tested env flags).2 = false := by
  unfold tested at hactive ⊢
  split
  · next hbefore => exact h hbefore
  · next hbefore =>
    rw [if_neg hbefore] at hactive
    cases hdns : env.dns with
    | ok => rw [hdns] at hactive; cases hactive
    | inProgress | failed => rfl

/-- The connectivity test succeeds at once only for a lookup it starts. -/
theorem tested_ok {flags : Bool × Bool} (h : flags.1 = true → flags.2 = false)
    (hok : (tested env flags).2 = true) : flags.1 = false ∧ env.dns = .ok := by
  unfold tested at hok
  split at hok
  · next hbefore => exact absurd ((h hbefore).symm.trans hok) (fun h => by cases h)
  · next hbefore =>
    refine ⟨Bool.eq_false_iff.mpr hbefore, ?_⟩
    cases hdns : env.dns with
    | ok => rfl
    | inProgress | failed => rw [hdns] at hok; cases hok

/-- An address: the slot the service has is the one of the attempt it is of. -/
theorem step_address {info : IpInfo} {origin : Nat} (hs : Sound s)
    (ha : Timely s (.handle env (.evtGotIp info) origin)) :
    let after := processGotIp env info s.service
    let t : System := { s.noteAddress env origin with service := after }
    Sound t ∧ Credited s (.handle env (.evtGotIp info) origin) t := by
  have h := processGotIp_joins env info s.service
  obtain ⟨horigin, hresolved⟩ := ha
  dsimp only
  generalize processGotIp env info s.service = after at h ⊢
  have hactive : after.dnsLookupActive =
      (tested env (s.service.dnsLookupActive, s.service.connectivityOk)).1 := congrArg (·.1) h.flags
  have hok : after.connectivityOk =
      (tested env (s.service.dnsLookupActive, s.service.connectivityOk)).2 := congrArg (·.2) h.flags
  refine ⟨⟨slotted_congr h.slot h.calls hs.slotted, fun hv => ?_, fun _ hv => ?_⟩, ?_⟩
  · exact hok.trans (tested_pending hs.pending (hactive.symm.trans hv))
  · obtain ⟨hstarts, hdns⟩ := tested_ok hs.pending (hok.symm.trans hv)
    have hfree : s.service.dnsLookupActive = false := hstarts
    have hsince := hresolved hfree hdns
    change (!s.current origin && s.verified || !s.service.dnsLookupActive && env.dns == .ok &&
      (if s.current origin then some (s.addresses + 1) else s.since).isSome) = true
    rw [hfree, hdns]
    cases hcurrent : s.current origin with
    | true => rfl
    | false =>
      have hknown : s.since.isSome = true := hsince.resolve_left
        (by rw [hcurrent]; intro h; cases h)
      simp [hknown]
  · by_cases hslot : hasSlot s.service
    · rcases hs.slotted with hinvalid | ⟨index, hindex, hlast⟩
      · unfold hasSlot at hslot
        rw [hinvalid] at hslot
        exact absurd hslot.1 (by decide)
      · refine .inr ⟨env, info, origin, index, rfl, (horigin hslot).trans hlast, ?_, ?_⟩
        · rw [h.last, if_pos hslot, hindex]
        · exact h.nvsLast.imp_right fun hset => hset.2.trans (congrArg some hindex)
    · exact .inl ⟨h.last.trans (if_neg hslot), h.nvsLast.resolve_right fun hset => hslot hset.1⟩

/-- **One step**: what is timely is credited to the link it is about. -/
theorem step_sound {a : Action} (hs : Sound s) (ha : Timely s a) (h : step s a = some t) :
    Sound t ∧ Credited s a t := by
  cases a with
  | save =>
    obtain rfl := Option.some.inj h
    exact ⟨⟨hs.slotted, hs.pending, hs.verified⟩, .inl ⟨rfl, rfl⟩⟩
  | handle env msg origin =>
    dsimp only [step] at h
    split at h
    swap
    · cases h
    obtain rfl := Option.some.inj h
    cases hmsg : plain msg with
    | true =>
      have hplain := plain_message env s.service hmsg
      exact ⟨sound_plain hs hmsg, .inl ⟨hplain.last, hplain.nvsLast⟩⟩
    | false =>
      cases msg with
      | evtGotIp info => exact step_address hs ha
      | evtConnectivityOk =>
        refine ⟨⟨hs.slotted, fun h => (by cases h), fun hup _ => ?_⟩, .inl ⟨rfl, rfl⟩⟩
        change (s.verified || s.fresh origin) = true
        rw [Bool.or_comm, Bool.or_eq_true]
        exact ha hup
      | evtConnectivityFailed => exact ⟨⟨hs.slotted, fun h => (by cases h), fun _ h => by cases h⟩,
          .inl ⟨rfl, rfl⟩⟩
      | _ => cases hmsg

/-! ## Every run -/

theorem sound_boot (nvs : Nvs) (env : Env) : Sound (boot nvs env) := by
  have htries := startReconnectSequence_tries env (s := started nvs) rfl
  unfold boot init
  split
  · cases hworks : (buildReconnectOrder env (started nvs)).any (works env (started nvs)) with
    | true =>
      obtain ⟨-, hconnecting, hknown, index, hslot, hlast⟩ := htries.succeeds hworks
      exact ⟨.inr ⟨index, hslot, connects_getLast hlast⟩, pending_of_reset hknown,
        fun hup => by cases hconnecting.symm.trans hup⟩
    | false =>
      obtain ⟨-, hidle, hknown, hslot, -⟩ := htries.fails hworks
      exact ⟨.inl hslot, pending_of_reset hknown, fun hup => by cases hidle.symm.trans hup⟩
  · exact ⟨.inl rfl, fun h => (by cases h), fun h => by cases h⟩

/-- **Facts and links.** In a run whose events are timely, the last successful slot
and its copy in NVS are only set by an address of an attempt with that slot, and the
service has internet only after a lookup, begun since the current connection's last
address, succeeded. -/
theorem facts_attributed (nvs : Nvs) (env : Env) (as : List Action)
    (has : Along step Timely (boot nvs env) as) :
    Along step (fun s a => ∀ t, step s a = some t → Credited s a t) (boot nvs env) as ∧
      ∀ pre t, pre <+: as → run step (boot nvs env) pre = some t →
        t.service.hasInternet = true → t.verified = true := by
  refine ⟨along_of_invariant (fun s a t hs ha h => (step_sound hs ha h).1)
    (fun s a hs ha t h => (step_sound hs ha h).2) (sound_boot nvs env) has, ?_⟩
  rintro pre t ⟨post, rfl⟩ hrun hnet
  have ht := run_invariant (fun s a t hs ha h => (step_sound hs ha h).1) (sound_boot nvs env)
    (along_append.mp has).1 hrun
  unfold State.hasInternet at hnet
  rw [Bool.and_eq_true, Bool.and_eq_true, beq_iff_eq] at hnet
  exact ht.verified hnet.1.2 hnet.1.1

/-- A device that connects, loses the link, connects again, and is answered in time. -/
def timelyRun : List Action :=
  [.handle .fine (.evtGotIp ⟨1, 2, 3⟩) 0, .handle .fine .evtConnectivityOk 1,
    .handle .fine (.evtDisconnected 1) 0, .handle .fine .reconnectTimer 0,
    .handle .fine (.evtGotIp ⟨4, 5, 6⟩) 1, .handle .fine .evtConnectivityOk 2]

theorem facts_attributed_timely :
    Along step (fun s a => ∀ t, step s a = some t → Credited s a t) (boot .home .fine) timelyRun ∧
      ∀ pre t, pre <+: timelyRun → run step (boot .home .fine) pre = some t →
        t.service.hasInternet = true → t.verified = true :=
  facts_attributed .home .fine timelyRun (by decide +kernel)

/-- The user connects to a second slot while the first link's address is queued. -/
def lateAddress : List Action :=
  [.save (Env.fine.slot 1) 1 [105] [113], .handle .fine (.connectSlot 1) 0,
    .handle .fine (.evtGotIp ⟨1, 2, 3⟩) 0]

/-- The user connects to a second slot while the first link's lookup is under way;
its answer is processed after the second link's address. -/
def lateAnswer : List Action :=
  [.handle .fine (.evtGotIp ⟨1, 2, 3⟩) 0, .save (Env.fine.slot 1) 1 [105] [113],
    .handle .fine (.connectSlot 1) 0, .handle .fine (.evtGotIp ⟨4, 5, 6⟩) 1,
    .handle .fine .evtConnectivityOk 1]

/-- The first link's address makes the second slot the last successful one; the
answer to the first link's lookup gives the second link internet. -/
theorem facts_misattributed :
    ¬ Along step (fun s a => ∀ t, step s a = some t → Credited s a t) (boot .home .fine)
        lateAddress ∧
      ∃ t, run step (boot .home .fine) lateAnswer = some t ∧ t.service.hasInternet = true ∧
        t.verified = false := by
  constructor
  · intro h
    have hbefore : ((run step (boot .home .fine) (lateAddress.take 2)).map fun s =>
        ((connects s.service)[0]?, s.service.lastSuccessfulSlot)) = some (some 0, 0) := by
      decide +kernel
    have hafter : ((run step (boot .home .fine) lateAddress).map fun t =>
        t.service.lastSuccessfulSlot) = some 1 := by decide +kernel
    obtain ⟨s, hs, hfacts⟩ := Option.map_eq_some_iff.mp hbefore
    obtain ⟨t, ht, hlast⟩ := Option.map_eq_some_iff.mp hafter
    obtain ⟨hslot, hfirst⟩ := Prod.mk.inj hfacts
    have hstep : step s (.handle .fine (.evtGotIp ⟨1, 2, 3⟩) 0) = some t := by
      have happend := run_append step (boot .home .fine) (lateAddress.take 2)
        [.handle .fine (.evtGotIp ⟨1, 2, 3⟩) 0]
      rw [hs, Option.bind_some, run_cons] at happend
      have hall := happend.symm.trans ht
      obtain ⟨u, hu, hend⟩ := Option.bind_eq_some_iff.mp hall
      exact hu.trans hend
    rcases along_iff.mp h (lateAddress.take 2) _ [] s rfl hs t hstep with
      ⟨hsame, -⟩ | ⟨env, info, origin, index, heq, hindex, hset, -⟩
    · exact absurd (hlast.symm.trans (hsame.trans hfirst)) (by decide)
    · obtain ⟨-, -, rfl⟩ := Action.handle.inj heq
      obtain rfl := Option.some.inj (hslot.symm.trans hindex)
      exact absurd (hlast.symm.trans hset) (by decide)
  · have h : ((run step (boot .home .fine) lateAnswer).map fun t =>
        (t.service.hasInternet, t.verified)) = some (true, false) := by decide +kernel
    obtain ⟨t, hrun, hfacts⟩ := Option.map_eq_some_iff.mp h
    exact ⟨t, hrun, Prod.mk.inj hfacts⟩

end Jukeboy.Wifi.Attribution
