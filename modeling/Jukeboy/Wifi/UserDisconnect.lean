import Jukeboy.Wifi.Handlers

/-! # A disconnect the user asked for

The command stops the timer and the reconnect sequence, but not what is queued
behind it: a tick of the timer, or the address of the link that goes down. -/
namespace Jukeboy.Wifi.UserDisconnect

open Jukeboy.Base Jukeboy.Base.Runs
open Jukeboy.Wifi.Service
open Jukeboy.Wifi.Slots (ServiceState)

variable {s t : State} {x : Step}

/-- `CMD_CONNECT_SLOT`, `CMD_RECONNECT_NOW` or `CMD_SET_AUTORECONNECT` with true. -/
def resumes : Step → Bool
  | .handle _ (.connectSlot _) | .handle _ .reconnectNow | .handle _ (.setAutoreconnect true) => true
  | _ => false

/-- At every point of the steps the link is down and no connection was attempted. -/
def StaysDown (s : State) (steps : List Step) : Prop :=
  ∀ pre, pre <+: steps → (run s pre).linked = false ∧ connects (run s pre) = connects s

/-- Neither an address nor, while auto-reconnect is on, a tick of the timer that
finds a slot to connect with. -/
def Harmless (s : State) : Step → Prop
  | .handle _ (.evtGotIp _) => False
  | .handle env .reconnectTimer =>
    s.autoreconnect = true → (buildReconnectOrder env s).any (reaches env s) = false
  | _ => True

instance : ∀ (s : State) (x : Step), Decidable (Harmless s x)
  | _, .handle _ (.evtGotIp _) => .isFalse id
  | s, .handle env .reconnectTimer =>
    inferInstanceAs (Decidable (s.autoreconnect = true →
      (buildReconnectOrder env s).any (reaches env s) = false))
  | _, .handle _ (.connectSlot _) | _, .handle _ .disconnect | _, .handle _ .scan
  | _, .handle _ (.setAutoreconnect _) | _, .handle _ .reconnectNow
  | _, .handle _ (.evtDisconnected _) | _, .handle _ .evtScanDone
  | _, .handle _ .evtConnectivityOk | _, .handle _ .evtConnectivityFailed
  | _, .save .. => .isTrue trivial

/-- The link is down, with no slots left to try. -/
structure Down (s : State) : Prop where
  linked : s.linked = false
  sequence : s.reconnectSequenceActive = false

theorem down_processDisconnect (s : State) : Down (processDisconnect s) := by
  unfold processDisconnect
  dsimp only
  split
  · exact ⟨rfl, rfl⟩
  · exact ⟨rfl, rfl⟩

theorem Down.slotsLeft (h : Down s) : slotsLeft s = [] := by
  unfold Service.slotsLeft
  rw [h.sequence]
  rfl

theorem linked_of_disconnected (h : s.state = .disconnected) : s.linked = false := by
  unfold State.linked
  rw [h]
  rfl

/-! ## One step -/

/-- What a harmless step keeps. -/
theorem harmless_step (hx : resumes x = false) (h : Down s) (hharmless : Harmless s x) :
    Down (step s x) ∧ connects (step s x) = connects s := by
  cases x with
  | save => exact ⟨⟨h.linked, h.sequence⟩, rfl⟩
  | handle env msg =>
    change Down (processCmd env msg s) ∧ connects (processCmd env msg s) = connects s
    cases msg with
    | connectSlot | reconnectNow => cases hx
    | evtGotIp => exact hharmless.elim
    | scan => exact ⟨⟨rfl, h.sequence⟩, rfl⟩
    | evtConnectivityOk | evtConnectivityFailed => exact ⟨⟨h.linked, h.sequence⟩, rfl⟩
    | disconnect =>
      refine ⟨down_processDisconnect s, ?_⟩
      unfold processCmd processDisconnect
      have hlinked : { s.clearReconnectSequence with timerRunning := false }.linked = false :=
        h.linked
      dsimp only
      rw [hlinked]
      rfl
    | setAutoreconnect enable =>
      obtain ⟨nvs, posted, heq⟩ := processSetAutoreconnect_eq env enable s
      rw [processCmd, heq]
      exact ⟨⟨h.linked, h.sequence⟩, rfl⟩
    | evtScanDone =>
      obtain ⟨results, posted, heq⟩ := processScanDone_eq env s
      rw [processCmd, heq]
      by_cases hscanning : s.state = .scanning
      · rw [if_pos hscanning]
        exact ⟨⟨rfl, h.sequence⟩, rfl⟩
      · rw [if_neg hscanning]
        exact ⟨⟨h.linked, h.sequence⟩, rfl⟩
    | reconnectTimer =>
      rcases processReconnect_cases env false s with ⟨-, heq⟩ | ⟨hacts, hdone⟩
      · rw [processCmd, heq]
        exact ⟨h, rfl⟩
      · have hauto : s.autoreconnect = true := by
          unfold acts at hacts
          simpa using (Bool.and_eq_true_iff.mp hacts).2
        have hreaches := hharmless hauto
        obtain ⟨hdown, -, -, hover, -⟩ := hdone.fails (works_none hreaches)
        obtain ⟨made, hmade, hiff⟩ := hdone.calls
        refine ⟨⟨linked_of_disconnected hdown, hover⟩, ?_⟩
        rw [processCmd, connects_append hmade, hiff.mpr hreaches, List.append_nil]
    | evtDisconnected reason =>
      by_cases hexpected : expected reason s
      · obtain ⟨posted, heq⟩ := processDisconnected_expected env hexpected
        rw [processCmd, heq]
        exact ⟨⟨h.linked, h.sequence⟩, rfl⟩
      · have hdrops := processDisconnected_unexpected env hexpected
        have hnone : ∀ p : UInt8 → Bool, (slotsLeft s).any p = false := fun p => by
          rw [h.slotsLeft]
          rfl
        obtain ⟨hdown, -, hover, -⟩ := hdrops.fails (hnone _)
        obtain ⟨made, hmade, hiff⟩ := hdrops.calls
        refine ⟨⟨linked_of_disconnected hdown, hover⟩, ?_⟩
        rw [processCmd, connects_append hmade, hiff.mpr (hnone _), List.append_nil]

/-- A step that is not harmless brings the link up or attempts a connection. -/
theorem not_harmless_step (h : s.linked = false) (hharmful : ¬ Harmless s x) :
    ¬ ((step s x).linked = false ∧ connects (step s x) = connects s) := by
  rintro ⟨hlinked, hsame⟩
  cases x with
  | save => exact hharmful trivial
  | handle env msg =>
    cases msg with
    | evtGotIp info =>
      have hup := (processGotIp_joins env info s).state
      change (processGotIp env info s).linked = false at hlinked
      unfold State.linked at hlinked
      rw [hup] at hlinked
      cases hlinked
    | reconnectTimer =>
      refine hharmful fun hauto => ?_
      have hacts : acts false s = true := by
        unfold acts
        rw [h, hauto]
        rfl
      obtain ⟨made, hmade, hiff⟩ := (processReconnect_acts env hacts).calls
      exact hiff.mp (List.append_right_eq_self.mp ((connects_append hmade).symm.trans hsame))
    | _ => exact hharmful trivial

/-! ## Staying down after a disconnect -/

theorem staysDown_cons {steps : List Step} :
    StaysDown s (x :: steps) ↔ s.linked = false ∧
      connects (step s x) = connects s ∧ StaysDown (step s x) steps := by
  constructor
  · intro h
    have hfirst := h [x] (List.prefix_append [x] steps)
    refine ⟨(h [] List.nil_prefix).1, hfirst.2, fun pre hpre => ?_⟩
    have hx := h (x :: pre) ((List.prefix_cons_inj x).mpr hpre)
    exact ⟨hx.1, hx.2.trans hfirst.2.symm⟩
  · rintro ⟨hlinked, hsame, h⟩ pre hpre
    cases pre with
    | nil => exact ⟨hlinked, rfl⟩
    | cons y pre =>
      obtain ⟨rfl, hrest⟩ := List.cons_prefix_cons.mp hpre
      obtain ⟨hdown, hconnects⟩ := h pre hrest
      exact ⟨hdown, hconnects.trans hsame⟩

theorem staysDown_iff {steps : List Step} (hsteps : steps.any resumes = false) (h : Down s) :
    StaysDown s steps ↔ Along next Harmless s steps := by
  induction steps generalizing s with
  | nil =>
    refine ⟨fun _ => trivial, fun _ pre hpre => ?_⟩
    rw [List.prefix_nil.mp hpre]
    exact ⟨h.linked, rfl⟩
  | cons x steps ih =>
    rw [List.any_cons, Bool.or_eq_false_iff] at hsteps
    rw [staysDown_cons]
    constructor
    · rintro ⟨-, hsame, hrest⟩
      have hx : Harmless s x := by
        by_contra hharmful
        exact not_harmless_step h.linked hharmful ⟨(hrest [] List.nil_prefix).1, hsame⟩
      refine ⟨hx, fun u hu => ?_⟩
      obtain rfl : step s x = u := Option.some.inj hu
      exact (ih hsteps.2 (harmless_step hsteps.1 h hx).1).mp hrest
    · rintro ⟨hx, hrest⟩
      obtain ⟨hdown, hsame⟩ := harmless_step hsteps.1 h hx
      exact ⟨h.linked, hsame, (ih hsteps.2 hdown).mpr (hrest _ rfl)⟩

/-- **The user's disconnect.** Until the user or the setting asks for a connection
again, the service stays down without an attempt exactly when no address is
processed and no tick of the timer finds auto-reconnect on and a slot to connect
with, whatever else is queued and whatever reason the driver reports. -/
theorem user_disconnect_sticky (s : State) (steps : List Step)
    (hsteps : steps.any resumes = false) :
    StaysDown (processDisconnect s) steps ↔ Along next Harmless (processDisconnect s) steps :=
  staysDown_iff hsteps (down_processDisconnect s)

/-- The driver reports the disconnect, and auto-reconnect is switched off before
the tick. -/
theorem user_disconnect_sticky_quiet :
    StaysDown (processDisconnect online)
      [.handle .fine (.evtDisconnected reasonAssocLeave), .handle .fine .evtScanDone,
        .handle .fine (.evtDisconnected 1), .handle .fine (.setAutoreconnect false),
        .handle .fine .reconnectTimer] :=
  (user_disconnect_sticky online _ (by decide +kernel)).mpr (by decide +kernel)

/-- The timer runs after a lost link; its tick is queued behind the user's
disconnect, and connects again. The address of a link that was coming up when the
user disconnected brings the service up. -/
theorem user_disconnect_undone :
    let lost := run online [.handle .fine (.evtDisconnected 1)]
    (lost.timerRunning = true ∧
      ¬ StaysDown (processDisconnect lost) [.handle .fine .reconnectTimer]) ∧
    (init .home .fine).state = .connecting ∧
      ¬ StaysDown (processDisconnect (init .home .fine)) [.handle .fine (.evtGotIp ⟨1, 2, 3⟩)] := by
  refine ⟨⟨by decide +kernel, fun h => ?_⟩, by decide +kernel, fun h => ?_⟩
  · exact absurd (h _ List.prefix_rfl).1 (by decide +kernel)
  · exact absurd (h _ List.prefix_rfl).1 (by decide +kernel)

end Jukeboy.Wifi.UserDisconnect
