import Jukeboy.Base.RecentRing
import Jukeboy.Base.Ticks

/-! # The rate limit of the Last.fm requests

The service task keeps the ticks of its last requests in a ring and delays a request
until the oldest of them is a window ago. A time is a number of ticks that never wraps;
the ring holds what the tick counter shows of it. -/
namespace Jukeboy.Lastfm.RateLimit
open Jukeboy.Base Jukeboy.Base.RecentRing Jukeboy.Base.Ticks

/-- `LASTFM_SERVICE_SCROBBLE_RATE_LIMIT_REQUESTS`. -/
abbrev rateLimitRequests : Nat := 3

/-- `pdMS_TO_TICKS(LASTFM_SERVICE_SCROBBLE_RATE_LIMIT_WINDOW_MS)` at 100 ticks a second. -/
abbrev windowTicks : UInt32 := 1000

/-- `lastfm_scrobble_request_ticks`, `_count` and `_next_index`. -/
abbrev Requests : Type := Ring UInt32 rateLimitRequests

def noRequests : Requests := ⟨fun _ => 0, 0, 0⟩

/-- What `lastfm_service_wait_for_request_rate_limit` hands to `vTaskDelay`, 0 when it
does not call it. -/
def waitForRequestRateLimit (r : Requests) (now : UInt32) : UInt32 :=
  if r.count < rateLimitRequests then 0
  else
    let elapsedTicks := now - r.slots r.next
    if elapsedTicks ≥ windowTicks then 0
    else
      let waitTicks := windowTicks - elapsedTicks
      if waitTicks = 0 then 1 else waitTicks

/-- `lastfm_service_record_request`. -/
def recordRequest (r : Requests) (now : UInt32) : Requests := r.push now

/-! ## The service task -/

/-- A request the task takes up, with what the checks in front of the rate limit find. -/
inductive Request where
  | nowPlaying (enabled valid equal active online resolves : Bool)
  | scrobble (enabled resolves online : Bool)
deriving DecidableEq, Repr

/-- Whether the request gets to the rate limit. -/
def Request.passes : Request → Bool
  | .nowPlaying enabled valid equal active online resolves =>
    enabled && valid && equal && !active && online && resolves
  | .scrobble enabled resolves online => enabled && resolves && online

/-- A request, the ticks that pass before it gets to the rate limit, and the ticks a delay
takes longer than asked for or that pass up to the record. -/
structure Arrival where
  request : Request
  idle : Nat
  late : Nat

/-- `log` are the times of all requests recorded, the newest first. -/
structure Service where
  requests : Requests
  time : Nat
  log : List Nat

def boot (start : Nat) : Service := ⟨noRequests, start, []⟩

namespace Service

/-- For how long a request that gets to the rate limit at this time is delayed. -/
def delay (s : Service) (now : Nat) : Nat := (waitForRequestRateLimit s.requests (tick now)).toNat

/-- `lastfm_service_process_now_playing_track` and `lastfm_service_process_scrobble_payload`,
up to the record. -/
def process (s : Service) (a : Arrival) : Service :=
  let now := s.time + a.idle
  if !a.request.passes then { s with time := now + a.late }
  else
    let time := now + s.delay now + a.late
    { requests := recordRequest s.requests (tick time), time, log := time :: s.log }

def processAll (s : Service) (arrivals : List Arrival) : Service := arrivals.foldl process s

end Service

/-! ## The window -/

/-- Any `rateLimitRequests + 1` consecutive requests take at least a window. -/
def Spaced (log : List Nat) : Prop :=
  ∀ i first last, log[i + rateLimitRequests]? = some first → log[i]? = some last →
    first + windowTicks.toNat ≤ last

/-- The requests recorded within the window that ends now. -/
def recent (log : List Nat) (now : Nat) : List Nat :=
  log.filter fun time => now < time + windowTicks.toNat

structure Inv (s : Service) : Prop where
  ring : s.requests.Holds (s.log.map tick)
  order : s.log.Pairwise (· ≥ ·)
  past : ∀ time ∈ s.log, time ≤ s.time
  spaced : Spaced s.log

theorem boot_inv (start : Nat) : Inv (boot start) where
  ring := Ring.holds_nil _ (by decide)
  order := .nil
  past := by
    intro _ h
    cases h
  spaced := by
    intro _ _ _ h
    cases h

variable {s : Service}

/-- The ring is full when there is a third last request, and its next slot shows the time
of that request. -/
theorem Inv.oldest (h : Inv s) :
    (s.requests.count < rateLimitRequests ∧ s.log[rateLimitRequests - 1]? = none) ∨
      ∃ first, rateLimitRequests ≤ s.requests.count ∧
        s.log[rateLimitRequests - 1]? = some first ∧
        s.requests.slots s.requests.next = tick first := by
  by_cases hfull : s.requests.count < rateLimitRequests
  · exact .inl ⟨hfull, by simpa using h.ring.lt_iff.mp hfull⟩
  · have hold := h.ring.oldest (Nat.le_of_not_lt hfull)
    rw [List.getElem?_map, Option.map_eq_some_iff] at hold
    obtain ⟨first, hfirst, htick⟩ := hold
    exact .inr ⟨first, Nat.le_of_not_lt hfull, hfirst, htick.symm⟩

/-- **A delay** is what is missing of the window since the third last request, counted
modulo the tick counter. -/
theorem Inv.delay_eq (h : Inv s) {now : Nat} (hnow : s.time ≤ now) :
    s.delay now = match s.log[rateLimitRequests - 1]? with
      | none => 0
      | some first => windowTicks.toNat - (now - first) % 2 ^ 32 := by
  obtain ⟨hcount, hnone⟩ | ⟨first, hcount, hfirst, hslot⟩ := h.oldest
  · rw [hnone, Service.delay, waitForRequestRateLimit, if_pos hcount]
    rfl
  · have hle : first ≤ now := Nat.le_trans (h.past first (List.mem_of_getElem? hfirst)) hnow
    have helapsed := toNat_tick_sub_mod hle
    rw [hfirst, Service.delay, waitForRequestRateLimit, if_neg (Nat.not_lt.mpr hcount), hslot]
    dsimp only
    rw [← helapsed]
    generalize tick now - tick first = elapsedTicks
    by_cases hpast : elapsedTicks ≥ windowTicks
    · rw [if_pos hpast]
      exact (Nat.sub_eq_zero_of_le (UInt32.le_iff_toNat_le.mp hpast)).symm
    · have hlt := UInt32.lt_iff_toNat_lt.mp (UInt32.not_le.mp hpast)
      have hwait := UInt32.toNat_sub_of_le _ _ (UInt32.le_of_lt (UInt32.not_le.mp hpast))
      have hne : windowTicks - elapsedTicks ≠ 0 := by
        intro hzero
        rw [hzero, UInt32.toNat_zero] at hwait
        omega
      rw [if_neg hpast, if_neg hne, hwait]

theorem Inv.delay_pos_iff (h : Inv s) {now : Nat} (hnow : s.time ≤ now) :
    0 < s.delay now ↔ ∃ first, s.log[rateLimitRequests - 1]? = some first ∧
      (now - first) % 2 ^ 32 < windowTicks.toNat := by
  rw [h.delay_eq hnow]
  cases s.log[rateLimitRequests - 1]? with
  | none => simp
  | some first => simp only [Option.some.injEq, exists_eq_left', Nat.sub_pos_iff_lt]

/-- A record keeps the invariant when its time is past the delay. -/
theorem Inv.record (h : Inv s) {now time : Nat} (hnow : s.time ≤ now)
    (htime : now + s.delay now ≤ time) :
    Inv ⟨recordRequest s.requests (tick time), time, time :: s.log⟩ where
  ring := h.ring.push (tick time)
  order := List.pairwise_cons.mpr ⟨fun t ht => by have := h.past t ht; omega, h.order⟩
  past t ht := by
    rcases List.mem_cons.mp ht with rfl | ht
    · exact Nat.le_refl _
    · have := h.past t ht
      dsimp only
      omega
  spaced i first last hfirst hlast := by
    cases i with
    | zero =>
      cases hlast
      have hdelay := h.delay_eq hnow
      change s.log[rateLimitRequests - 1]? = some first at hfirst
      have hle := h.past first (List.mem_of_getElem? hfirst)
      have hmod := Nat.mod_le (now - first) (2 ^ 32)
      rw [hfirst] at hdelay
      have hwindow : windowTicks.toNat ≤ (now - first) % 2 ^ 32 + s.delay now :=
        Nat.sub_le_iff_le_add'.mp (Nat.le_of_eq hdelay.symm)
      omega
    | succ i => exact h.spaced i first last hfirst hlast

theorem Inv.process (h : Inv s) (a : Arrival) : Inv (s.process a) := by
  unfold Service.process
  dsimp only
  split
  · exact ⟨h.ring, h.order, fun t ht => by have := h.past t ht; dsimp only; omega, h.spaced⟩
  · exact h.record (Nat.le_add_right ..) (Nat.le_add_right ..)

theorem Inv.processAll (h : Inv s) (arrivals : List Arrival) : Inv (s.processAll arrivals) := by
  induction arrivals generalizing s with
  | nil => exact h
  | cons a arrivals ih => exact ih (h.process a)

/-- The third last request is a window ago when fewer requests were recorded within it. -/
theorem le_of_recent {log : List Nat} {now first : Nat} (horder : log.Pairwise (· ≥ ·))
    (hfew : (recent log now).length < rateLimitRequests)
    (hfirst : log[rateLimitRequests - 1]? = some first) : first + windowTicks.toNat ≤ now := by
  by_contra hlate
  have htake : recent (log.take rateLimitRequests) now = log.take rateLimitRequests := by
    refine List.filter_eq_self.mpr fun time htime => ?_
    obtain ⟨i, hi, rfl⟩ := List.mem_take_iff_getElem.mp htime
    obtain ⟨hlen, rfl⟩ := List.getElem?_eq_some_iff.mp hfirst
    have hge : log[rateLimitRequests - 1] ≤ log[i] := by
      rcases Nat.lt_or_ge i (rateLimitRequests - 1) with hlt | hge
      · exact List.pairwise_iff_getElem.mp horder i _ _ hlen hlt
      · obtain rfl : i = rateLimitRequests - 1 := by omega
        exact Nat.le_refl _
    exact decide_eq_true (by omega)
  have hsub := ((List.take_sublist rateLimitRequests log).filter
    (fun time => now < time + windowTicks.toNat)).length_le
  change (recent _ _).length ≤ (recent _ _).length at hsub
  obtain ⟨hlen, -⟩ := List.getElem?_eq_some_iff.mp hfirst
  rw [htake, List.length_take] at hsub
  omega

/-- When a request that gets to the rate limit at this time is delayed. -/
structure DelayedWhen (s : Service) (now : Nat) : Prop where
  /-- Exactly when the third last request lies, modulo the tick counter, within the window. -/
  exact : 0 < s.delay now ↔ ∃ first, s.log[rateLimitRequests - 1]? = some first ∧
    (now - first) % 2 ^ 32 < windowTicks.toNat
  /-- Never with fewer requests within the window, until the counter comes round again. -/
  few : (recent s.log now).length < rateLimitRequests →
    (∀ first, s.log[rateLimitRequests - 1]? = some first → now < first + 2 ^ 32) → s.delay now = 0

/-- **The rate limit.** -/
theorem requests_rate_limited (start : Nat) (arrivals : List Arrival) (idle : Nat) :
    Spaced ((boot start).processAll arrivals).log ∧
      DelayedWhen ((boot start).processAll arrivals)
        (((boot start).processAll arrivals).time + idle) := by
  have h := (boot_inv start).processAll arrivals
  generalize (boot start).processAll arrivals = s at h
  have hiff := h.delay_pos_iff (Nat.le_add_right _ idle)
  refine ⟨h.spaced, hiff, ?_⟩
  intro hfew hnear
  by_contra hdelayed
  obtain ⟨first, hfirst, hmod⟩ := hiff.mp (Nat.pos_of_ne_zero hdelayed)
  have hago := le_of_recent h.order hfew hfirst
  have hnow := hnear first hfirst
  rw [Nat.mod_eq_of_lt (by omega)] at hmod
  omega

/-- Three scrobbles when the device starts. -/
def burst : List Arrival := List.replicate 3 ⟨.scrobble true true true, 0, 0⟩

/-- A fourth one when the counter has come round: no request was recorded within the
window, and it is delayed for almost all of it. -/
theorem delayed_after_wrap :
    (recent ((boot 0).processAll burst).log (2 ^ 32 + 5)).length < rateLimitRequests ∧
      ((boot 0).processAll burst).time + (2 ^ 32 + 5) = 2 ^ 32 + 5 ∧
      ((boot 0).processAll burst).delay (2 ^ 32 + 5) = 995 := by
  decide +kernel

end Jukeboy.Lastfm.RateLimit
