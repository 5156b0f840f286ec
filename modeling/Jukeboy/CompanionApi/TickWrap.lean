import Jukeboy.Base.Ticks
import Jukeboy.CompanionApi.PairingSequence

/-! # Pairing and heartbeats when the tick counter wraps

The loop of `companion_api_task` in time: it waits at its queue until the next heartbeat
is due, handles a message, and checks its timers. The deadlines are compared as plain
numbers, so the timing holds where the tick counter does not wrap between a deadline and
its check. -/
namespace Jukeboy.CompanionApi.TickWrap

open Jukeboy.Base Jukeboy.Base.Runs Jukeboy.Base.Ticks Jukeboy.CompanionApi.Tlv
open Jukeboy.CompanionApi.RequestHandlers Jukeboy.CompanionApi.Task
open Jukeboy.CompanionApi.TrustedStore
open Jukeboy.CompanionApi.RxBuffer (Request RxEvent handleRxChunk)
open Jukeboy.CompanionApi.PairingSequence

/-! ## The task in time -/

/-- The world as it is seen at a time. -/
def worldAt (w : World) (time : Nat) : World :=
  { w with inputs := { w.inputs with now := tick time } }

/-- A turn at the queue: when the tick is read, when the queue returns and with what, and
when the things a message makes the task do see the world. -/
structure Receipt where
  top : Nat
  received : Nat
  message : Option Msg
  env : Nat → World
  times : Nat → Nat
  done : Nat
  top_le : top ≤ received
  received_le : ∀ k, received ≤ times k
  times_le : ∀ k, times k ≤ done
  /-- Without a message nothing takes time. -/
  idle : message = none → done = received

inductive Action where
  | receive (r : Receipt)
  /-- The timers are checked right after the handling. -/
  | check (env : Nat → World)

/-- Where the loop is; after the queue has returned, when the tick was read and it did. -/
inductive Phase where
  | top
  | handled (top received : Nat)
deriving DecidableEq, Repr

/-- The task, the time, when the last heartbeat was started or the task was, and when the
latest accepted PAIR_BEGIN was handled. -/
structure System where
  task : State
  phase : Phase
  time : Nat
  last : Nat
  began : Option Nat

/-- How long `companion_api_task` waits at its queue. -/
def waitTicks (nextHeartbeat now : UInt32) : UInt32 :=
  if nextHeartbeat > now then nextHeartbeat - now else 0

/-- `xQueueReceive` gives a message while it waits, or nothing when the wait is over. -/
def Receipt.Possible (s : System) (r : Receipt) : Prop :=
  let wait := (waitTicks s.task.nextHeartbeat (tick r.top)).toNat
  s.phase = .top ∧ s.time ≤ r.top ∧ r.received ≤ r.top + wait ∧
    (r.message = none → r.received = r.top + wait)

instance (s : System) (r : Receipt) : Decidable (r.Possible s) := inferInstanceAs (Decidable (_ ∧ _))

def Receipt.handle (hmac : Hmac) (r : Receipt) (s : State) : State :=
  match r.message with
  | none => s
  | some m => processMsg hmac (fun k => worldAt (r.env k) (r.times k)) m s

/-- When the latest accepted PAIR_BEGIN was handled, after the things done for a chunk. -/
def beganEvents (times : Nat → Nat) : Nat → List RxEvent → Option Nat → Option Nat
  | _, [], began => began
  | k, .request r :: events, began =>
    beganEvents times (k + 1) events (if (begins r).isSome then some (times k) else began)
  | k, _ :: events, began => beganEvents times (k + 1) events began

def Receipt.began (s : State) (r : Receipt) (began : Option Nat) : Option Nat :=
  match r.message with
  | some (.rxChunk _ bytes) => beganEvents r.times 0 (handleRxChunk s.rxBuffer bytes).1 began
  | _ => began

/-- The check starts a heartbeat. -/
def System.Beats (s : System) : Prop := tick s.time ≥ s.task.nextHeartbeat

instance (s : System) : Decidable s.Beats := inferInstanceAs (Decidable (_ ≤ _))

/-- The task behind the check. -/
def System.checked (s : System) (env : Nat → World) : State :=
  timerTurn (fun k => worldAt (env k) s.time) s.task

def next (hmac : Hmac) (s : System) : Action → Option System
  | .receive r =>
    if r.Possible s then
      some
        { s with
          task := r.handle hmac s.task, phase := .handled r.top r.received, time := r.done
          began := r.began s.task s.began }
    else none
  | .check env =>
    match s.phase with
    | .top => none
    | .handled _ _ =>
      some
        { s with
          task := s.checked env, phase := .top, last := if s.Beats then s.time else s.last }

/-- The task is started. -/
def init (store : Store) (count : UInt8) (start : Nat) : System :=
  ⟨initState store count (tick start), .top, start, start, none⟩

/-! ## What the timing is for -/

/-- The button is the next one of a pending pairing. -/
def RightButton (p : Pairing) (button : UInt8) : Prop :=
  p.pending = true ∧ p.progress < 4 ∧ button = p.sequence.getD p.progress.toNat 0

instance (p : Pairing) (button : UInt8) : Decidable (RightButton p button) :=
  inferInstanceAs (Decidable (_ ∧ _))

/-- The press counts: the pairing goes on by one button, or is completed. -/
def Accepted (s : Session) (o : Outcome) : Prop :=
  o.session.pairing.progress = s.pairing.progress + 1 ∨
    .pairCompleted ∈ o.effects

def pairingTimeout : Nat := pairingTimeoutTicks.toNat

/-- A right button at `pressed` is accepted exactly while fewer than the timeout's ticks
have passed. -/
def AcceptsInTime (s : System) (r : Receipt) : Prop :=
  ∀ button began, r.message = some (.hidButton button) →
    RightButton s.task.session.pairing button → s.began = some began →
    r.times 0 < began + 2 ^ 31 →
      (Accepted s.task.session (applyPairingButton (worldAt (r.env 0) (r.times 0)).inputs button
          s.task.session) ↔ r.times 0 < began + pairingTimeout)

/-- A check with a heartbeat ends a pending pairing exactly when the timeout's ticks have
passed. -/
def ExpiresInTime (s : System) (env : Nat → World) : Prop :=
  ∀ began, s.task.session.pairing.pending = true → s.began = some began →
    s.time < began + 2 ^ 31 →
      ((s.checked env).session.pairing.pending = false ↔ began + pairingTimeout ≤ s.time)

/-- One interval after the last heartbeat, or the start of the task. -/
def System.due (s : System) : Nat := s.last + heartbeatTicks.toNat

/-- The message was received at `received`: a heartbeat is started no earlier than it is
due, and no later than that by more than the handling takes. -/
structure Checks (s : System) (received : Nat) (env : Nat → World) : Prop where
  expires : s.Beats → ExpiresInTime s env
  no_earlier : s.Beats → s.due ≤ s.time
  no_later : s.Beats → s.time ≤ s.due + (s.time - received)
  none_missed : ¬ s.Beats → s.time < s.due

/-- What the timing is for, in one action. -/
def InTime (s : System) : Action → Prop
  | .receive r => r.Possible s → AcceptsInTime s r
  | .check env => ∀ top received, s.phase = .handled top received → Checks s received env

/-- The counter does not wrap between a time and the end of a pairing that began at
`began`, and the time is not that end. -/
def Apart (time began : Nat) : Prop :=
  period time = period (began + pairingTimeout) ∧ time ≠ began + pairingTimeout

/-- A right button and the end of its pairing are apart; the task is back at its queue when
the next heartbeat is due, the counter does not wrap between that and the check, and the
check of a heartbeat and the end of a pending pairing are apart. -/
def Condition (s : System) : Action → Prop
  | .receive r => r.Possible s → ∀ button began, r.message = some (.hidButton button) →
      RightButton s.task.session.pairing button → s.began = some began →
      r.times 0 < began + 2 ^ 31 → Apart (r.times 0) began
  | .check _ => ∀ top received, s.phase = .handled top received →
      top ≤ s.due ∧ period s.time = period s.due ∧
        (s.due ≤ s.time → ∀ began, s.task.session.pairing.pending = true →
          s.began = some began → s.time < began + 2 ^ 31 → Apart s.time began)

/-- The handling took less than half of what the counter can show. -/
def Short (s : System) : Action → Prop
  | .receive _ => True
  | .check _ => ∀ top received, s.phase = .handled top received → s.time < received + 2 ^ 31

/-! ## What a message does -/

variable {hmac : Hmac} {began : Option Nat} {time : Nat} {p p' : Pairing}

/-- The deadline of a pending pairing is the end of the one that began. -/
def Dated (began : Option Nat) (time : Nat) (p : Pairing) : Prop :=
  p.pending = true → ∃ b, began = some b ∧ b ≤ time ∧ p.deadline = tick (b + pairingTimeout)

/-- A pairing that stays pending keeps its deadline. -/
def Stays (p p' : Pairing) : Prop :=
  p'.pending = true → p.pending = true ∧ p'.deadline = p.deadline

theorem Stays.refl (p : Pairing) : Stays p p := fun h => ⟨h, rfl⟩

theorem stays_clear (p : Pairing) : Stays p {} := by
  intro h
  cases h

theorem Dated.stays (h : Dated began time p) (hp : Stays p p') : Dated began time p' := by
  intro hpending
  obtain ⟨hbefore, hdeadline⟩ := hp hpending
  rw [hdeadline]
  exact h hbefore

theorem Dated.later (h : Dated began time p) {time' : Nat} (hle : time ≤ time') :
    Dated began time' p := by
  intro hpending
  obtain ⟨b, hb, hbtime, hdeadline⟩ := h hpending
  exact ⟨b, hb, Nat.le_trans hbtime hle, hdeadline⟩

theorem completePairing_stays (inp : Inputs) (s : Session) :
    Stays s.pairing (completePairing inp s).session.pairing := by
  by_cases hpending : s.pairing.pending = true
  · rw [completePairing_pairing inp s hpending]
    split
    · exact stays_clear _
    · exact .refl _
  · rw [completePairing, if_pos hpending]
    exact .refl _

theorem applyPairingButton_stays (inp : Inputs) (button : UInt8) (s : Session) :
    Stays s.pairing (applyPairingButton inp button s).session.pairing := by
  obtain ⟨hcompletes, hs⟩ | ⟨-, -, hpresses⟩ := applyPairingButton_cases inp button s
  · rw [hs]
    exact completePairing_stays inp { s with pairing := { s.pairing with progress := 4 } }
  · generalize (applyPairingButton inp button s).session.pairing = p at hpresses ⊢
    cases hpresses with
    | idle _ => exact .refl _
    | late => exact stays_clear _
    | missed => exact fun h => ⟨h, rfl⟩
    | hit _ _ => exact fun h => ⟨h, rfl⟩

theorem msgOutcome_stays (w : World) (s : Session) (m : Msg) :
    Stays s.pairing (msgOutcome w s m).session.pairing := by
  cases m with
  | rxChunk _ _ => exact .refl _
  | hidButton button => exact applyPairingButton_stays w.inputs button s
  | consoleConfirmPairing => exact completePairing_stays w.inputs s
  | consoleCancelPairing => exact stays_clear _
  | consoleRevokeClient clientId =>
    exact (revokeClientInternal_keeps w.inputs clientId s).2 ▸ .refl _
  | consoleRevokeAll => exact (revokeAllInternal_keeps w.inputs s).2 ▸ .refl _
  | linkConnected => exact .refl _
  | linkDisconnected => exact .refl _
  | stateEvent _ => exact .refl _

/-- A request keeps the pairing dated. -/
theorem handleRequest_dated (w : World) (link : Nat) (r : Request) {s : Session} {now : Nat}
    (hnow : now ≤ time) (h : Dated began time s.pairing) :
    Dated (if (begins r).isSome then some now else began) time
      (handleRequest hmac (worldAt w now) link r s).session.pairing := by
  have hrepairs := (handleRequest_changes hmac (worldAt w now) link r s).repairs
  generalize (handleRequest hmac (worldAt w now) link r s).session.pairing = p at hrepairs ⊢
  cases hrepairs with
  | kept hnone => rw [hnone]; exact h
  | cleared hnone => rw [hnone]; exact h.stays (stays_clear _)
  | begun _ sequence hsome _ _ _ hdeadline =>
    rw [hsome]
    intro _
    refine ⟨now, rfl, hnow, hdeadline.trans ?_⟩
    exact tick_add now pairingTimeoutTicks

theorem rxEvents_dated (env : Nat → World) (times : Nat → Nat) (htimes : ∀ k, times k ≤ time)
    (link : Nat) (events : List RxEvent) (k : Nat) {s : State}
    (h : Dated began time s.session.pairing) :
    Dated (beganEvents times k events began) time (applyRxEvents hmac
      (fun k => worldAt (env k) (times k)) link k events s).session.pairing := by
  induction events generalizing k s began with
  | nil => exact h
  | cons event events ih =>
    cases event with
    | overflow =>
      refine ih (k + 1) ?_
      rw [applyRxEvent, finish_session]
      exact h
    | resync => exact ih (k + 1) (s := countRxError s) h
    | sendError opcode requestId e =>
      refine ih (k + 1) ?_
      rw [applyRxEvent, finish_session]
      exact h
    | request r =>
      refine ih (k + 1) (s := countRxFrame _) ?_
      show Dated _ _ (finish _ _ _).session.pairing
      rw [finish_session]
      exact handleRequest_dated (env k) link r (htimes k) h

theorem rxEvents_nextHeartbeat (env : Nat → World) (link : Nat) (events : List RxEvent) (k : Nat)
    (s : State) : (applyRxEvents hmac env link k events s).nextHeartbeat = s.nextHeartbeat := by
  induction events generalizing k s with
  | nil => rfl
  | cons event events ih =>
    rw [applyRxEvents, ih]
    cases event with
    | overflow => exact (finish_frame ..).2.2
    | resync => rfl
    | sendError opcode requestId e => exact (finish_frame ..).2.2
    | request r => exact (finish_frame ..).2.2

/-- A message leaves the next heartbeat alone, and keeps the pairing dated. -/
theorem handle_keeps (hmac : Hmac) (began : Option Nat) (r : Receipt) (s : State) :
    (r.handle hmac s).nextHeartbeat = s.nextHeartbeat ∧
      (Dated began r.done s.session.pairing →
        Dated (r.began s began) r.done (r.handle hmac s).session.pairing) := by
  unfold Receipt.handle Receipt.began
  cases r.message with
  | none => exact ⟨rfl, id⟩
  | some m =>
    have hother : ∀ m : Msg, (finish (worldAt (r.env 0) (r.times 0))
          (msgOutcome (worldAt (r.env 0) (r.times 0)) s.session m)
          { s with rxBuffer := msgRxBuffer s.rxBuffer m }).nextHeartbeat = s.nextHeartbeat ∧
        (Dated began r.done s.session.pairing → Dated began r.done
          (finish (worldAt (r.env 0) (r.times 0))
            (msgOutcome (worldAt (r.env 0) (r.times 0)) s.session m)
            { s with rxBuffer := msgRxBuffer s.rxBuffer m }).session.pairing) := by
      intro m
      refine ⟨(finish_frame ..).2.2, fun h => ?_⟩
      rw [finish_session]
      exact h.stays (msgOutcome_stays _ _ m)
    cases m with
    | rxChunk link bytes =>
      refine ⟨rxEvents_nextHeartbeat _ link (handleRxChunk s.rxBuffer bytes).1 0 _, fun h => ?_⟩
      exact rxEvents_dated r.env r.times r.times_le link (handleRxChunk s.rxBuffer bytes).1 0
        (s := { s with log := s.log ++ [.received link] }) h
    | hidButton button => exact hother _
    | consoleConfirmPairing => exact hother _
    | consoleCancelPairing => exact hother _
    | consoleRevokeClient clientId => exact hother _
    | consoleRevokeAll => exact hother _
    | linkConnected => exact hother _
    | linkDisconnected => exact hother _
    | stateEvent opcode => exact hother _

/-! ## The comparisons -/

/-- The last button counts whether the pairing can be stored or not. -/
theorem completePairing_counts (inp : Inputs) (s : Session) (hpending : s.pairing.pending = true) :
    (completePairing inp s).session.pairing.progress = s.pairing.progress ∨
      .pairCompleted ∈ (completePairing inp s).effects := by
  by_cases hstores : Stores inp s
  · refine .inr ?_
    have hok := (storeRecord_ok (s := s) s.pairing).mpr hstores
    simp only [completePairing]
    rw [if_neg (not_not.mpr hpending), if_neg (not_not.mpr hok)]
    exact List.mem_cons_self
  · refine .inl ?_
    rw [completePairing_pairing inp s hpending, if_neg hstores]

/-- A right button counts when the deadline's number is not passed. -/
theorem accepted_iff {inp : Inputs} {button : UInt8} {s : Session}
    (h : RightButton s.pairing button) :
    Accepted s (applyPairingButton inp button s) ↔ inp.now ≤ s.pairing.deadline := by
  obtain ⟨hpending, hprogress, hbutton⟩ := h
  have hready : ¬ (¬ s.pairing.pending = true ∨ s.pairing.progress ≥ 4) :=
    not_or.mpr ⟨not_not.mpr hpending, lt_four_iff.mp hprogress⟩
  rw [Accepted, applyPairingButton]
  simp only [if_neg hready, if_neg (not_not.mpr hbutton)]
  by_cases hlate : inp.now > s.pairing.deadline
  · rw [if_pos hlate]
    refine iff_of_false ?_ (UInt32.not_le.mpr hlate)
    rintro (hnext | hcompleted)
    · have hzero : (0 : UInt8) = s.pairing.progress + 1 := hnext
      have hnat := congrArg UInt8.toNat hzero
      have hlt := UInt8.lt_iff_toNat_lt.mp hprogress
      rw [UInt8.toNat_add] at hnat
      simp only [UInt8.reduceToNat] at hnat hlt
      omega
    · cases List.mem_singleton.mp hcompleted
  · rw [if_neg hlate]
    refine iff_of_true ?_ (UInt32.not_lt.mp hlate)
    split
    · exact completePairing_counts inp
        { s with pairing := { s.pairing with progress := s.pairing.progress + 1 } } hpending
    · exact .inl rfl

theorem checked_eq (s : System) (env : Nat → World) : s.checked env =
    if s.Beats then
      { sendHeartbeat (worldAt (env 1) s.time) (expirePairing (worldAt (env 0) s.time) s.task) with
        nextHeartbeat := tick s.time + heartbeatTicks }
    else s.task := rfl

/-- A check with a heartbeat ends the pairing when the deadline's number is passed. -/
theorem expired_iff {s : System} (env : Nat → World) (hbeats : s.Beats)
    (hpending : s.task.session.pairing.pending = true) :
    (s.checked env).session.pairing.pending = false ↔
      s.task.session.pairing.deadline < tick s.time := by
  have hsession : (s.checked env).session =
      (expirePairing (worldAt (env 0) s.time) s.task).session := by
    rw [checked_eq, if_pos hbeats]
    exact finish_session ..
  rw [hsession, expirePairing]
  by_cases hlate : tick s.time > s.task.session.pairing.deadline
  · rw [if_pos ⟨hpending, hlate⟩, finish_session]
    exact iff_of_true rfl hlate
  · rw [if_neg fun h => hlate h.2, hpending]
    exact iff_of_false (fun h => by cases h) hlate

/-- Before and after the end of a pairing its deadline is compared rightly where the
counter does not wrap; at its end it is not. -/
theorem deadline_iff {b now : Nat} (hle : b ≤ now) (hnear : now < b + 2 ^ 31) :
    (tick now ≤ tick (b + pairingTimeout) ↔ now < b + pairingTimeout) ↔ Apart now b := by
  have htimeout : pairingTimeout = 12000 := rfl
  have hcompare : (tick now ≤ tick (b + pairingTimeout) ↔ now ≤ b + pairingTimeout) ↔
      period now = period (b + pairingTimeout) :=
    compare_iff (by omega) (by omega)
  unfold Apart
  by_cases hend : now = b + pairingTimeout
  · rw [hend]
    refine iff_of_false ?_ fun h => h.2 rfl
    intro h
    exact absurd (h.mp (UInt32.le_refl _)) (Nat.lt_irrefl _)
  · rw [← hcompare, and_iff_left hend]
    have hlt : now < b + pairingTimeout ↔ now ≤ b + pairingTimeout := by omega
    rw [hlt]

/-- The queue returns when the heartbeat is due at the latest, when the wait began by then. -/
theorem received_le_due {top received due : Nat} (hnear : due < top + 2 ^ 32)
    (htop : top ≤ received) (hwait : received ≤ top + (waitTicks (tick due) (tick top)).toNat) :
    received ≤ due ↔ top ≤ due := by
  refine ⟨fun h => Nat.le_trans htop h, fun hle => ?_⟩
  unfold waitTicks at hwait
  split at hwait
  · rw [toNat_tick_sub hle hnear] at hwait
    omega
  · have hzero : (0 : UInt32).toNat = 0 := rfl
    rw [hzero] at hwait
    omega

/-! ## The invariant -/

structure Inv (s : System) : Prop where
  nextHeartbeat : s.task.nextHeartbeat = tick s.due
  last_le : s.last ≤ s.time
  dated : Dated s.began s.time s.task.session.pairing
  queue : ∀ top received, s.phase = .handled top received → s.last ≤ top ∧ top ≤ received ∧
    received ≤ s.time ∧ received ≤ top + (waitTicks (tick s.due) (tick top)).toNat

theorem inv_init (store : Store) (count : UInt8) (start : Nat) : Inv (init store count start) where
  nextHeartbeat := tick_add start heartbeatTicks
  last_le := Nat.le_refl _
  dated := by
    intro h
    cases h
  queue := by
    intro _ _ h
    cases h

theorem inv_receive {s t : System} {r : Receipt} (hs : Inv s)
    (h : next hmac s (.receive r) = some t) : Inv t := by
  rw [next] at h
  split at h
  · next hpossible =>
    cases h
    obtain ⟨-, hafter, hwait, -⟩ := hpossible
    obtain ⟨hnext, hdated⟩ := handle_keeps hmac s.began r s.task
    have hdone := Nat.le_trans (r.received_le 0) (r.times_le 0)
    have htime : s.time ≤ r.done := Nat.le_trans hafter (Nat.le_trans r.top_le hdone)
    refine ⟨hnext.trans hs.nextHeartbeat, Nat.le_trans hs.last_le htime,
      hdated (hs.dated.later htime), ?_⟩
    intro top received hphase
    cases hphase
    rw [hs.nextHeartbeat] at hwait
    exact ⟨Nat.le_trans hs.last_le hafter, r.top_le, hdone, hwait⟩
  · cases h

theorem inv_check {s t : System} {env : Nat → World} (hs : Inv s)
    (h : next hmac s (.check env) = some t) : Inv t := by
  rw [next] at h
  split at h
  · cases h
  · cases h
    have hpairing : Stays s.task.session.pairing (s.checked env).session.pairing := by
      obtain hsame | hclear := (timerTurn_session (fun k => worldAt (env k) s.time) s.task).2
      · exact hsame ▸ .refl _
      · exact hclear ▸ stays_clear _
    refine ⟨?_, ?_, hs.dated.stays hpairing, fun _ _ h => by cases h⟩
    · show (s.checked env).nextHeartbeat = tick ((if s.Beats then s.time else s.last) + _)
      rw [checked_eq]
      split
      · exact tick_add s.time heartbeatTicks
      · exact hs.nextHeartbeat
    · show (if s.Beats then s.time else s.last) ≤ s.time
      split
      · exact Nat.le_refl _
      · exact hs.last_le

theorem inv_step {s t : System} {a : Action} (hs : Inv s) (h : next hmac s a = some t) : Inv t := by
  cases a with
  | receive r => exact inv_receive hs h
  | check env => exact inv_check hs h

/-! ## One action -/

theorem receive_iff {s : System} (hs : Inv s) (r : Receipt) :
    InTime s (.receive r) ↔ Condition s (.receive r) := by
  refine imp_congr_right fun hpossible => ?_
  refine forall_congr' fun button => forall_congr' fun b => imp_congr_right fun _ =>
    imp_congr_right fun hright => imp_congr_right fun hbegan => imp_congr_right fun hnear => ?_
  obtain ⟨b', hb', hbtime, hdeadline⟩ := hs.dated hright.1
  cases hbegan.symm.trans hb'
  have hle : b ≤ r.times 0 := Nat.le_trans hbtime (Nat.le_trans hpossible.2.1
    (Nat.le_trans r.top_le (r.received_le 0)))
  rw [← deadline_iff hle hnear, accepted_iff hright, hdeadline]
  rfl

/-- A check with a heartbeat ends a pairing in time exactly when the two are apart. -/
theorem expires_iff {s : System} (hs : Inv s) (env : Nat → World) (hbeats : s.Beats) :
    ExpiresInTime s env ↔ ∀ b, s.task.session.pairing.pending = true → s.began = some b →
      s.time < b + 2 ^ 31 → Apart s.time b := by
  refine forall_congr' fun b => imp_congr_right fun hpending => imp_congr_right fun hbegan =>
    imp_congr_right fun hnear => ?_
  obtain ⟨b', hb', hbtime, hdeadline⟩ := hs.dated hpending
  cases hbegan.symm.trans hb'
  rw [← deadline_iff hbtime hnear, expired_iff env hbeats hpending, hdeadline, ← UInt32.not_le,
    ← Nat.not_lt, not_iff_not]

theorem beats_iff {s : System} (hs : Inv s) : s.Beats ↔ tick s.due ≤ tick s.time := by
  rw [System.Beats, hs.nextHeartbeat]

/-- A check that meets the condition is in time. -/
theorem check_of_condition {s : System} (hs : Inv s) {env : Nat → World}
    (h : Condition s (.check env)) : InTime s (.check env) := by
  intro top received hphase
  obtain ⟨htop, hperiod, hapart⟩ := h top received hphase
  obtain ⟨hlast, hle, hreceived, hwait⟩ := hs.queue top received hphase
  have hbeats : s.Beats ↔ s.due ≤ s.time := (beats_iff hs).trans (tick_le_iff hperiod.symm)
  have hnear : s.due < top + 2 ^ 32 := by
    have hdue : s.due = s.last + 500 := rfl
    omega
  have hin := (received_le_due hnear hle hwait).mpr htop
  refine ⟨fun hb => (expires_iff hs env hb).mpr (hapart (hbeats.mp hb)), hbeats.mp, ?_, ?_⟩
  · intro _
    omega
  · exact fun hb => Nat.lt_of_not_le (mt hbeats.mpr hb)

/-- A short handling that is in time meets the condition. -/
theorem condition_of_check {s : System} (hs : Inv s) {env : Nat → World}
    (hshort : Short s (.check env)) (h : InTime s (.check env)) : Condition s (.check env) := by
  intro top received hphase
  obtain ⟨hexpires, hearlier, hlater, hmissed⟩ := h top received hphase
  obtain ⟨hlast, hle, hreceived, hwait⟩ := hs.queue top received hphase
  have hdue : s.due = s.last + 500 := rfl
  have hshort := hshort top received hphase
  by_cases hbeats : s.Beats
  · have hpassed := hearlier hbeats
    have hin := hlater hbeats
    have hnear : s.time < s.due + 2 ^ 32 := by omega
    refine ⟨by omega, ?_, fun _ => (expires_iff hs env hbeats).mp (hexpires hbeats)⟩
    exact ((tick_le_iff_of_le hpassed hnear).mp ((beats_iff hs).mp hbeats)).symm
  · have hbefore := hmissed hbeats
    have hlater := hs.last_le
    refine ⟨by omega, ?_, fun hpassed => absurd hpassed (Nat.not_le.mpr hbefore)⟩
    refine (tick_lt_iff_of_lt hbefore (by omega)).mp (UInt32.not_le.mp ?_)
    exact fun htick => hbeats ((beats_iff hs).mpr htick)

/-! ## Runs -/

/-- **Timing across the wrap of the ticks.** In a run whose actions meet the condition
every right button is accepted and every pending pairing ended as its timeout says, and
heartbeats are started when they are due, late by no more than the handling of a message
takes. An action of a run that is short does this only when it meets the condition. -/
theorem timing_iff (hmac : Hmac) (store : Store) (count : UInt8) (start : Nat)
    (actions : List Action) :
    (Along (next hmac) Condition (init store count start) actions →
      Along (next hmac) InTime (init store count start) actions) ∧
    Along (next hmac) (fun s a => Short s a → (InTime s a ↔ Condition s a))
      (init store count start) actions := by
  have hkeep : ∀ s a t, Inv s → next hmac s a = some t → Inv t := fun _ _ _ hs h => inv_step hs h
  have hcondition : ∀ s a, Inv s → Condition s a → InTime s a := by
    intro s a hs hC
    cases a with
    | receive r => exact (receive_iff hs r).mpr hC
    | check env => exact check_of_condition hs hC
  constructor
  · exact along_of_invariant (fun s a t hs _ h => hkeep s a t hs h) hcondition
      (inv_init store count start)
  · refine along_of_invariant (C := fun _ _ => True) (fun s a t hs _ h => hkeep s a t hs h) ?_
      (inv_init store count start) (along_true actions)
    intro s a hs _ hshort
    refine ⟨fun h => ?_, hcondition s a hs⟩
    cases a with
    | receive r => exact (receive_iff hs r).mp h
    | check env => exact condition_of_check hs hshort h

/-- A turn at a time; nothing takes long. -/
def atOnce (time : Nat) (message : Option Msg) : Action :=
  .receive
    { top := time, received := time, message, env := fun _ => Authorisation.silentWorld
      times := fun _ => time, done := time, top_le := Nat.le_refl _
      received_le := fun _ => Nat.le_refl _, times_le := fun _ => Nat.le_refl _
      idle := fun _ => rfl }

def checkNow : Action := .check fun _ => Authorisation.silentWorld

/-- A second and a minute before the counter wraps. -/
def secondBefore : Nat := 2 ^ 32 - 100
def minuteBefore : Nat := 2 ^ 32 - 6000

/-- A client asks for its pairing, and the first of its buttons is pressed 10 ticks later. -/
def pressedSoon : List Action :=
  [atOnce minuteBefore (some (.rxChunk 1 (Chunking.encodeRequest Authorisation.pairBeginRequest))),
    checkNow, atOnce (minuteBefore + 10) (some (.hidButton 0))]

/-- A heartbeat is started with the task, and a right button is refused at once. -/
theorem too_early :
    ¬ Along (next default) InTime (init (fun _ => none) 0 secondBefore)
        [atOnce secondBefore none, checkNow] ∧
      ¬ Along (next default) InTime (init (fun _ => none) 0 minuteBefore) pressedSoon := by
  constructor
  · intro h
    have hearlier := ((h.2 _ rfl).1 secondBefore secondBefore rfl).no_earlier (by decide +kernel)
    revert hearlier
    decide +kernel
  · intro h
    have haccepts := ((h.2 _ rfl).2 _ rfl).1 (by decide +kernel) 0 minuteBefore rfl
      (by decide +kernel) rfl (by decide +kernel)
    have hcompare := (accepted_iff (by decide +kernel)).mp (haccepts.mpr (by decide +kernel))
    revert hcompare
    decide +kernel

end Jukeboy.CompanionApi.TickWrap
