import Mathlib.Data.Int.ConditionallyCompleteOrder
import Mathlib.Data.List.MinMax
import Mathlib.Order.ConditionallyCompleteLattice.Basic
import Mathlib.Tactic.Common
import Jukeboy.Base.BoundedTable
import Jukeboy.Base.Runs

/-! # Pairing with the best sink of a discovery

The Bluetooth task handles the commands and what the stack reports one at a time. A
report and a change of state carry here the number of the discovery they are of: the
stack may still deliver those of a discovery that was cancelled. -/
namespace Jukeboy.Bluetooth.Discovery

open Jukeboy.Base.BoundedTable Jukeboy.Base.Runs

/-! ## Reports -/

/-- `esp_bd_addr_t`. -/
abbrev BdAddr := Vector UInt8 6

/-- `bluetooth_service_discovery_result_t`, without the name, which is only shown. -/
structure DiscoveryResult where
  valid : Bool
  bda : BdAddr
  rssi : Int
  cod : Nat
deriving DecidableEq, Repr

/-- `esp_bt_gap_dev_prop_t`. -/
inductive DevProp where
  | cod (value : Nat)
  | rssi (value : Int)
  | other
deriving DecidableEq, Repr

/-- One property of a report. -/
def setProp (result : DiscoveryResult) : DevProp → DiscoveryResult
  | .cod cod => { result with cod }
  | .rssi rssi => { result with rssi }
  | .other => result

section

variable (isA2dpSinkCandidate : Nat → Bool)

/-- The `ESP_BT_GAP_DISC_RES_EVT` branch of `bt_svc_gap_bt_cb`. -/
def discRes (bda : BdAddr) (props : List DevProp) : Option DiscoveryResult :=
  let result := props.foldl setProp { valid := false, bda, rssi := -128, cod := 0 }
  if isA2dpSinkCandidate result.cod then some { result with valid := true } else none

end

/-! ## The task -/

/-- `BT_SVC_MAX_DISCOVERED_DEVICES`. -/
def maxDiscoveredDevices : Nat := 16

/-- `bt_svc_store_discovery_result`. -/
def storeDiscoveryResult (result : DiscoveryResult) (discovered : List DiscoveryResult) :
    List DiscoveryResult :=
  put DiscoveryResult.bda maxDiscoveredDevices { result with valid := true } discovered

/-- The loop of `bt_svc_select_and_connect_best_sink`. -/
def bestSink (discovered : List DiscoveryResult) : Option DiscoveryResult :=
  discovered.foldl (fun best result =>
    if !result.valid then best
    else match best with
      | none => some result
      | some held => if held.rssi < result.rssi then some result else some held) none

/-- The calls into the stack, and the event that a discovery is done. -/
inductive Call where
  | cancelDiscovery
  | startDiscovery
  | discoveryDone
  | sourceConnect (bda : BdAddr)
deriving DecidableEq, Repr

/-- The task's variables, and what they are to be compared with: how many discoveries
were started, which one the last accepted PAIR_BEST started, the candidates the stack
reported of it, and the ones of them that found room in the queue. -/
structure State where
  pairRequestPending : Bool
  discoveryRunning : Bool
  a2dpConnected : Bool
  discovered : List DiscoveryResult
  discoveries : Nat
  own : Nat
  reported : List DiscoveryResult
  delivered : List DiscoveryResult
deriving DecidableEq, Repr

def init : State where
  pairRequestPending := false
  discoveryRunning := false
  a2dpConnected := false
  discovered := []
  discoveries := 0
  own := 0
  reported := []
  delivered := []

inductive Op where
  | pairBest
  | startDiscovery
  | report (discovery : Nat) (bda : BdAddr) (props : List DevProp) (queued : Bool)
  | discoveryState (discovery : Nat) (started : Bool)
  | a2dpConnected
  | a2dpDisconnected
deriving DecidableEq, Repr

/-- The table is emptied and a discovery started, after one that runs is cancelled. -/
def startOver (pairRequestPending : Bool) (s : State) : State × List Call :=
  ({ s with pairRequestPending, discovered := [], discoveries := s.discoveries + 1 },
    (if s.discoveryRunning then [.cancelDiscovery] else []) ++ [.startDiscovery])

/-- `bt_svc_select_and_connect_best_sink`. -/
def selectAndConnectBestSink (discovered : List DiscoveryResult) : List Call :=
  match bestSink discovered with
  | none => [.discoveryDone]
  | some best => [.discoveryDone, .sourceConnect best.bda]

/-- A candidate is reported: it is noted, and stored when there was room in the queue. -/
def noteReport (discovery : Nat) (result : DiscoveryResult) (queued : Bool) (s : State) : State :=
  let ofOwn := discovery = s.own
  { s with
    discovered := if queued then storeDiscoveryResult result s.discovered else s.discovered
    reported := if ofOwn then s.reported ++ [result] else s.reported
    delivered := if ofOwn ∧ queued then s.delivered ++ [result] else s.delivered }

section

variable (isA2dpSinkCandidate : Nat → Bool)

/-- `bt_svc_gap_bt_cb` and `bt_svc_process_msg`. -/
def step (s : State) : Op → State × List Call
  | .pairBest =>
    if s.a2dpConnected then (s, [])
    else
      let (s, calls) := startOver true s
      ({ s with own := s.discoveries, reported := [], delivered := [] }, calls)
  | .startDiscovery => startOver false s
  | .report discovery bda props queued =>
    match discRes isA2dpSinkCandidate bda props with
    | none => (s, [])
    | some result => (noteReport discovery result queued s, [])
  | .discoveryState _ true => ({ s with discoveryRunning := true }, [])
  | .discoveryState _ false =>
    let s := { s with discoveryRunning := false }
    if s.pairRequestPending then
      ({ s with pairRequestPending := false }, selectAndConnectBestSink s.discovered)
    else (s, [])
  | .a2dpConnected => ({ s with a2dpConnected := true }, [])
  | .a2dpDisconnected => ({ s with a2dpConnected := false }, [])

def next (s : State) (op : Op) : Option State := some (step isA2dpSinkCandidate s op).1

/-! ## What PAIR_BEST is for -/

/-- An accepted PAIR_BEST starts a discovery of its own and waits for the end of it, unless
START_DISCOVERY or another PAIR_BEST takes its place. The selection comes then and only then,
and its device is the one with the strongest entry of the view; without a device the view is
empty. -/
structure Best (view : State → BdAddr → Option DiscoveryResult) (s : State) (op : Op) : Prop where
  accepts : op = .pairBest → s.a2dpConnected = false →
    .startDiscovery ∈ (step isA2dpSinkCandidate s op).2 ∧
      (step isA2dpSinkCandidate s op).1.pairRequestPending = true ∧
      (step isA2dpSinkCandidate s op).1.own = s.discoveries + 1
  waits : s.pairRequestPending = true → op ≠ .discoveryState s.own false → op ≠ .startDiscovery →
    (op = .pairBest → s.a2dpConnected = true) →
      (step isA2dpSinkCandidate s op).1.pairRequestPending = true ∧
        (step isA2dpSinkCandidate s op).1.own = s.own
  selects : s.pairRequestPending = true → op = .discoveryState s.own false →
    .discoveryDone ∈ (step isA2dpSinkCandidate s op).2
  own : .discoveryDone ∈ (step isA2dpSinkCandidate s op).2 → op = .discoveryState s.own false
  strongest : ∀ bda, .sourceConnect bda ∈ (step isA2dpSinkCandidate s op).2 →
    ∃ best, view s bda = some best ∧ ∀ other result, view s other = some result →
      result.rssi ≤ best.rssi
  none : .discoveryDone ∈ (step isA2dpSinkCandidate s op).2 →
    (∀ bda, .sourceConnect bda ∉ (step isA2dpSinkCandidate s op).2) → ∀ bda, view s bda = none

/-- The latest report of a device. -/
def latestReported (s : State) (bda : BdAddr) : Option DiscoveryResult :=
  latest DiscoveryResult.bda s.reported bda

/-- The latest report of one of the devices that came first, as far as the queue had
room. -/
def latestKept (s : State) (bda : BdAddr) : Option DiscoveryResult :=
  kept DiscoveryResult.bda maxDiscoveredDevices s.delivered bda

/-- While a PAIR_BEST waits, what the task takes is of its own discovery. -/
def Undisturbed (s : State) (op : Op) : Prop :=
  s.pairRequestPending = true →
    match op with
    | .report discovery bda props queued =>
      queued = true → (discRes isA2dpSinkCandidate bda props).isSome = true → discovery = s.own
    | .discoveryState discovery started => started = false → discovery = s.own
    | _ => True

end

/-! ## The selection -/

variable {isA2dpSinkCandidate : Nat → Bool} {s : State} {op : Op}
  {bda : BdAddr} {discovered : List DiscoveryResult} {result best : DiscoveryResult}

/-- The loop takes the first of the strongest entries. -/
theorem bestSink_eq (h : ∀ result ∈ discovered, result.valid = true) :
    bestSink discovered = discovered.argmax DiscoveryResult.rssi := by
  refine List.foldl_ext _ _ none fun best result hmem => ?_
  rw [h result hmem, Bool.not_true, if_neg Bool.false_ne_true]
  cases best with
  | none => rfl
  | some held => rfl

theorem discRes_valid {props : List DevProp}
    (h : discRes isA2dpSinkCandidate bda props = some result) : result.valid = true := by
  unfold discRes at h
  dsimp only at h
  split at h
  · rw [← Option.some.inj h]
  · cases h

/-- What the task knows while a PAIR_BEST waits. -/
structure Tracks (delivered discovered : List DiscoveryResult) : Prop where
  valid : ∀ result ∈ discovered, result.valid = true
  holds : Holds DiscoveryResult.bda maxDiscoveredDevices delivered discovered

variable {delivered : List DiscoveryResult}

theorem tracks_nil : Tracks [] [] where
  valid := by
    intro _ h
    cases h
  holds := holds_nil

theorem tracks_store (hresult : result.valid = true) (h : Tracks delivered discovered) :
    Tracks (delivered ++ [result]) (storeDiscoveryResult result discovered) := by
  have hsame : { result with valid := true } = result := by
    rw [← hresult]
  rw [storeDiscoveryResult, hsame]
  constructor
  · intro e he
    obtain rfl | he := mem_put he
    · exact hresult
    · exact h.valid e he
  · exact holds_put h.holds result

/-- What an operation does to the table while a PAIR_BEST waits afterwards. -/
theorem step_cases {t : State} (hstep : next isA2dpSinkCandidate s op = some t)
    (hpending : t.pairRequestPending = true) :
    (t.delivered = [] ∧ t.discovered = []) ∨
    (s.pairRequestPending = true ∧ t.delivered = s.delivered ∧ t.discovered = s.discovered) ∨
    (s.pairRequestPending = true ∧ ∃ discovery bda props result,
      op = .report discovery bda props true ∧
      discRes isA2dpSinkCandidate bda props = some result ∧
      t = noteReport discovery result true s) := by
  rw [next, Option.some.injEq] at hstep
  subst hstep
  cases op with
  | pairBest =>
    simp only [step] at hpending ⊢
    by_cases hconnected : s.a2dpConnected = true
    · rw [if_pos hconnected] at hpending ⊢
      exact .inr (.inl ⟨hpending, rfl, rfl⟩)
    · rw [if_neg hconnected]
      exact .inl ⟨rfl, rfl⟩
  | startDiscovery => cases hpending
  | report discovery bda props queued =>
    simp only [step] at hpending ⊢
    cases hres : discRes isA2dpSinkCandidate bda props with
    | none =>
      rw [hres] at hpending
      exact .inr (.inl ⟨hpending, rfl, rfl⟩)
    | some result =>
      rw [hres] at hpending
      cases queued with
      | false => exact .inr (.inl ⟨hpending, if_neg fun h => Bool.false_ne_true h.2, rfl⟩)
      | true => exact .inr (.inr ⟨hpending, discovery, bda, props, result, rfl, hres, rfl⟩)
  | discoveryState discovery started =>
    cases started with
    | true => exact .inr (.inl ⟨hpending, rfl, rfl⟩)
    | false =>
      simp only [step] at hpending
      split at hpending
      · cases hpending
      · next hidle => exact absurd hpending hidle
  | a2dpConnected => exact .inr (.inl ⟨hpending, rfl, rfl⟩)
  | a2dpDisconnected => exact .inr (.inl ⟨hpending, rfl, rfl⟩)

theorem step_tracks (hI : s.pairRequestPending = true → Tracks s.delivered s.discovered)
    (hC : Undisturbed isA2dpSinkCandidate s op) {t : State}
    (hstep : next isA2dpSinkCandidate s op = some t) (hpending : t.pairRequestPending = true) :
    Tracks t.delivered t.discovered := by
  obtain ⟨hdelivered, hdiscovered⟩ | ⟨hwaits, hdelivered, hdiscovered⟩ |
    ⟨hwaits, discovery, bda, props, result, rfl, hres, rfl⟩ := step_cases hstep hpending
  · rw [hdelivered, hdiscovered]
    exact tracks_nil
  · rw [hdelivered, hdiscovered]
    exact hI hwaits
  · have hown : discovery = s.own := hC hwaits rfl (by rw [hres]; rfl)
    have hdelivered : (noteReport discovery result true s).delivered = s.delivered ++ [result] :=
      if_pos ⟨hown, rfl⟩
    rw [hdelivered]
    exact tracks_store (discRes_valid hres) (hI hwaits)

/-- A selection is made when a discovery ends, out of the table there is then. -/
theorem selects {call : Call} (hcall : call ∈ (step isA2dpSinkCandidate s op).2)
    (hselects : call = .discoveryDone ∨ ∃ bda, call = .sourceConnect bda) :
    s.pairRequestPending = true ∧ (∃ discovery, op = .discoveryState discovery false) ∧
      (step isA2dpSinkCandidate s op).2 = selectAndConnectBestSink s.discovered := by
  have hother : call ≠ .cancelDiscovery ∧ call ≠ .startDiscovery := by
    obtain rfl | ⟨bda, rfl⟩ := hselects
    · exact ⟨fun h => (by cases h), fun h => by cases h⟩
    · exact ⟨fun h => (by cases h), fun h => by cases h⟩
  have hstart : ∀ (pending : Bool) (t : State), call ∉ (startOver pending t).2 := by
    intro pending t hmem
    obtain hmem | hmem := List.mem_append.mp hmem
    · split at hmem
      · exact hother.1 (List.mem_singleton.mp hmem)
      · cases hmem
    · exact hother.2 (List.mem_singleton.mp hmem)
  cases op with
  | pairBest =>
    simp only [step] at hcall
    split at hcall
    · cases hcall
    · exact absurd hcall (hstart true s)
  | startDiscovery => exact absurd hcall (hstart false s)
  | report discovery bda props queued =>
    simp only [step] at hcall
    split at hcall
    · cases hcall
    · cases hcall
  | discoveryState discovery started =>
    cases started with
    | true => cases hcall
    | false =>
      simp only [step] at hcall ⊢
      by_cases hpending : s.pairRequestPending = true
      · rw [if_pos hpending]
        exact ⟨hpending, ⟨discovery, rfl⟩, rfl⟩
      · rw [if_neg hpending] at hcall
        cases hcall
  | a2dpConnected => cases hcall
  | a2dpDisconnected => cases hcall

/-- The device of a selection is the strongest of the entries kept. -/
theorem strongest_kept (h : Tracks s.delivered s.discovered)
    (hbest : bestSink s.discovered = some best) :
    latestKept s best.bda = some best ∧ ∀ other result, latestKept s other = some result →
      result.rssi ≤ best.rssi := by
  rw [bestSink_eq h.valid] at hbest
  have hview : ∀ bda, latestKept s bda = s.discovered.find? fun e => e.bda = bda := fun bda =>
    (h.holds.latest bda).symm
  obtain ⟨hin, hlatest⟩ := h.holds.latest_mem (List.argmax_mem hbest)
  refine ⟨(if_pos hin).trans hlatest, fun other result hresult => ?_⟩
  rw [hview] at hresult
  exact List.le_of_mem_argmax (List.mem_of_find?_eq_some hresult) hbest

theorem none_kept (h : Tracks s.delivered s.discovered) (hbest : bestSink s.discovered = none)
    (bda : BdAddr) : latestKept s bda = none := by
  rw [bestSink_eq h.valid, List.argmax_eq_none] at hbest
  have hview := h.holds.latest bda
  rw [hbest] at hview
  exact hview.symm

/-- An accepted PAIR_BEST waits until the end of its discovery. -/
theorem step_waits (hC : Undisturbed isA2dpSinkCandidate s op)
    (hpending : s.pairRequestPending = true) (hend : op ≠ .discoveryState s.own false)
    (hstart : op ≠ .startDiscovery) (hpair : op = .pairBest → s.a2dpConnected = true) :
    (step isA2dpSinkCandidate s op).1.pairRequestPending = true ∧
      (step isA2dpSinkCandidate s op).1.own = s.own := by
  cases op with
  | pairBest =>
    simp only [step]
    rw [if_pos (hpair rfl)]
    exact ⟨hpending, rfl⟩
  | startDiscovery => exact absurd rfl hstart
  | report discovery bda props queued =>
    simp only [step]
    split
    · exact ⟨hpending, rfl⟩
    · exact ⟨hpending, rfl⟩
  | discoveryState discovery started =>
    cases started with
    | true => exact ⟨hpending, rfl⟩
    | false => exact absurd (by rw [hC hpending rfl]) hend
  | a2dpConnected => exact ⟨hpending, rfl⟩
  | a2dpDisconnected => exact ⟨hpending, rfl⟩

/-- The end of a discovery brings the selection. -/
theorem step_selects (hpending : s.pairRequestPending = true) (discovery : Nat) :
    .discoveryDone ∈ (step isA2dpSinkCandidate s (.discoveryState discovery false)).2 := by
  simp only [step]
  rw [if_pos hpending, selectAndConnectBestSink]
  split
  · exact List.mem_singleton_self _
  · exact List.mem_cons_self

theorem step_best (hI : s.pairRequestPending = true → Tracks s.delivered s.discovered)
    (hC : Undisturbed isA2dpSinkCandidate s op) :
    Best isA2dpSinkCandidate latestKept s op := by
  constructor
  · rintro rfl hconnected
    simp only [step]
    rw [if_neg (by simp [hconnected])]
    exact ⟨List.mem_append_right _ (List.mem_singleton_self _), rfl, rfl⟩
  · exact step_waits hC
  · rintro hpending rfl
    exact step_selects hpending s.own
  · intro hdone
    obtain ⟨hpending, ⟨discovery, rfl⟩, -⟩ := selects hdone (.inl rfl)
    rw [hC hpending rfl]
  · intro bda hconnect
    obtain ⟨hpending, -, hcalls⟩ := selects hconnect (.inr ⟨bda, rfl⟩)
    rw [hcalls, selectAndConnectBestSink] at hconnect
    cases hbest : bestSink s.discovered with
    | none => simp [hbest] at hconnect
    | some best =>
      have hbda : bda = best.bda := by simpa [hbest] using hconnect
      rw [hbda]
      exact ⟨best, strongest_kept (hI hpending) hbest⟩
  · intro hdone hnone bda
    obtain ⟨hpending, -, hcalls⟩ := selects hdone (.inl rfl)
    cases hbest : bestSink s.discovered with
    | none => exact none_kept (hI hpending) hbest bda
    | some best =>
      rw [hcalls, selectAndConnectBestSink, hbest] at hnone
      exact absurd (List.mem_cons_of_mem _ (List.mem_singleton_self _)) (hnone best.bda)

/-- **The best sink.** Where the task takes nothing of another discovery while a PAIR_BEST
waits, every accepted PAIR_BEST selects at the end of its own discovery, and connects to
the strongest of the devices that found room. -/
theorem best_sink (isA2dpSinkCandidate : Nat → Bool) (ops : List Op)
    (h : Along (next isA2dpSinkCandidate) (Undisturbed isA2dpSinkCandidate) init ops) :
    Along (next isA2dpSinkCandidate) (Best isA2dpSinkCandidate latestKept) init ops := by
  refine along_of_invariant
    (I := fun s => s.pairRequestPending = true → Tracks s.delivered s.discovered)
    (fun s op t hI hC hstep => step_tracks hI hC hstep) (fun s op hI hC => step_best hI hC)
      (fun h => by cases h) h

/-! ## Runs -/

/-- A class of device that is valid and of the audio and video kind. -/
def audioVideo (cod : Nat) : Bool := cod % 4 = 0 ∧ cod / 256 % 32 = 4

/-- A headset is reported. -/
def headset (discovery : Nat) (device : UInt8) (rssi : Int) : Op :=
  .report discovery (Vector.replicate 6 device) [.cod 0x240404, .rssi rssi] true

/-- Two headsets are found; the second comes closer. -/
def twoHeadsets : List Op :=
  [.pairBest, .discoveryState 1 true, headset 1 0 (-70), headset 1 1 (-80), headset 1 1 (-50),
    .discoveryState 1 false]

theorem best_sink_twoHeadsets :
    Along (next audioVideo) (Best audioVideo latestKept) init twoHeadsets := by
  refine best_sink audioVideo twoHeadsets ?_
  refine ⟨fun h => (by cases h), fun _ h1 => ⟨fun _ h => (by cases h), fun _ h2 => ⟨?_,
    fun _ h3 => ⟨?_, fun _ h4 => ⟨?_,
    fun _ h5 => ⟨?_, fun _ _ => trivial⟩⟩⟩⟩⟩⟩
  · cases h1; cases h2
    exact fun _ _ _ => rfl
  · cases h1; cases h2; cases h3
    exact fun _ _ _ => rfl
  · cases h1; cases h2; cases h3; cases h4
    exact fun _ _ _ => rfl
  · cases h1; cases h2; cases h3; cases h4; cases h5
    exact fun _ _ => rfl

/-- A discovery runs when PAIR_BEST cancels it, and its end comes. -/
def cancelled : List Op :=
  [.startDiscovery, .discoveryState 1 true, .pairBest, .discoveryState 1 false]

/-- Sixteen headsets far away are found, then one close by. -/
def crowd : List Op :=
  .pairBest :: .discoveryState 1 true ::
    (List.range 16).map (fun i => headset 1 (UInt8.ofNat i) (-90)) ++
    [headset 1 16 (-40), .discoveryState 1 false]

theorem not_best : ¬ Along (next audioVideo) (Best audioVideo latestReported) init cancelled ∧
    ¬ Along (next audioVideo) (Best audioVideo latestReported) init crowd := by
  constructor
  · intro h
    have hown := ((((h.2 _ rfl).2 _ rfl).2 _ rfl).1).own (by decide +kernel)
    revert hown
    decide +kernel
  · intro h
    let t := (crowd.take 19).foldl (fun s op => (step audioVideo s op).1) init
    have hlast := along_iff.mp h (crowd.take 19) (.discoveryState 1 false) [] t rfl
      (by decide +kernel)
    obtain ⟨best, hbest, hall⟩ := hlast.strongest (Vector.replicate 6 0) (by decide +kernel)
    have hnear := hall (Vector.replicate 6 16)
      { valid := true, bda := Vector.replicate 6 16, rssi := -40, cod := 0x240404 }
      (by decide +kernel)
    have hfar : latestReported t (Vector.replicate 6 0) =
        some { valid := true, bda := Vector.replicate 6 0, rssi := -90, cod := 0x240404 } := by
      decide +kernel
    rw [hfar, Option.some.injEq] at hbest
    rw [← hbest] at hnear
    exact absurd hnear (by decide)

end Jukeboy.Bluetooth.Discovery
