import Mathlib.Data.List.Nodup
import Mathlib.Data.List.ReduceOption
import Mathlib.Logic.Function.Basic
import Jukeboy.Base.EspErr
import Jukeboy.Base.Runs

/-! # Completions through the requester's frame

`companion_api_queue_admin_message` and `player_service_shutdown_callback` queue a
message that points into their own frame, at a result and a semaphore, and wait
five seconds for the service task to fill in the one and give the other. A requester
that returns gives its frame back, and the next call may stand at the same address. -/
namespace Jukeboy.Services.Completions
open Jukeboy.Base Jukeboy.Base.Runs

/-! ## Calls, frames and messages -/

/-- The services whose task answers through a frame. -/
inductive Service where
  | companion | player
deriving DecidableEq, Repr

/-- `COMPANION_API_QUEUE_DEPTH` and `PLAYER_SVC_QUEUE_DEPTH`. -/
def Service.queueDepth : Service → Nat
  | .companion => 16
  | .player => 8

/-- Where a call is. -/
inductive Phase where
  | notCalled
  /-- In `xQueueSend`. -/
  | sending
  /-- In `xSemaphoreTake`. -/
  | waiting
  /-- Past it; the result is not read yet. -/
  | woken
  | returned (err : EspErr)
deriving DecidableEq, Repr

structure Call where
  service : Service
  addr : Nat
  phase : Phase
deriving DecidableEq, Repr

/-- The `result` and the semaphore at an address, and the call whose frame is there. -/
structure Frame where
  owner : Option Nat
  result : EspErr
  given : Bool
deriving DecidableEq, Repr

/-- The pointers of a message, and the call that queued it. -/
structure Completion where
  call : Nat
  addr : Nat
deriving DecidableEq, Repr

/-- What a service task does: it waits for a message, works on one, or has stored the
result and not given the semaphore. A message without pointers is `none`. -/
inductive Worker where
  | idle
  | working (msg : Option Completion)
  | stored (c : Completion)
deriving DecidableEq, Repr

structure State where
  calls : Nat → Call
  memory : Nat → Frame
  queue : Service → List (Option Completion)
  worker : Service → Worker
  /-- What the tasks found for the message of each call. -/
  results : Nat → Option EspErr

def init : State where
  calls _ := ⟨.companion, 0, .notCalled⟩
  memory _ := ⟨none, .fail, false⟩
  queue _ := []
  worker _ := .idle
  results _ := none

/-! ## Steps -/

inductive Action where
  /-- A requester comes to its `xQueueSend`, with its frame at an address. -/
  | call (n : Nat) (service : Service) (addr : Nat)
  | send (n : Nat)
  | sendTimeout (n : Nat)
  | take (n : Nat)
  | waitTimeout (n : Nat)
  | ret (n : Nat)
  /-- A message that nobody waits for. -/
  | post (service : Service)
  | receive (service : Service)
  /-- A message has been worked off with a result. -/
  | store (service : Service) (err : EspErr)
  | give (service : Service)
deriving DecidableEq, Repr

/-- The message of a call is queued, and the call waits. -/
def State.queueFrom (s : State) (n : Nat) : State :=
  let c := s.calls n
  { s with
    calls := Function.update s.calls n { c with phase := .waiting }
    queue := Function.update s.queue c.service (s.queue c.service ++ [some ⟨n, c.addr⟩]) }

/-- A call returns, and its frame is free. -/
def State.returnFrom (s : State) (n : Nat) (err : EspErr) : State :=
  let c := s.calls n
  { s with
    calls := Function.update s.calls n { c with phase := .returned err }
    memory := Function.update s.memory c.addr { s.memory c.addr with owner := none } }

/-- `*msg.result_out = err`. -/
def State.storeInto (s : State) (service : Service) (c : Completion) (err : EspErr) : State :=
  { s with
    memory := Function.update s.memory c.addr { s.memory c.addr with result := err }
    worker := Function.update s.worker service (.stored c)
    results := Function.update s.results c.call (some err) }

/-- `xSemaphoreGive(msg.completion_semaphore)`. -/
def State.giveTo (s : State) (service : Service) (c : Completion) : State :=
  { s with
    memory := Function.update s.memory c.addr { s.memory c.addr with given := true }
    worker := Function.update s.worker service .idle }

/-- The requesters and `companion_api_task`, `player_service_task`. -/
def step (s : State) : Action → Option State
  | .call n service addr =>
    if (s.calls n).phase = .notCalled ∧ (s.memory addr).owner = none then
      some { s with
        calls := Function.update s.calls n ⟨service, addr, .sending⟩
        memory := Function.update s.memory addr ⟨some n, .fail, false⟩ }
    else none
  | .send n =>
    let c := s.calls n
    if c.phase = .sending ∧ (s.queue c.service).length < c.service.queueDepth then
      some (s.queueFrom n)
    else none
  | .sendTimeout n =>
    let c := s.calls n
    if c.phase = .sending ∧ c.service.queueDepth ≤ (s.queue c.service).length then
      some (s.returnFrom n .timeout)
    else none
  | .take n =>
    let c := s.calls n
    if c.phase = .waiting ∧ (s.memory c.addr).given = true then
      some { s with
        calls := Function.update s.calls n { c with phase := .woken }
        memory := Function.update s.memory c.addr { s.memory c.addr with given := false } }
    else none
  | .waitTimeout n =>
    let c := s.calls n
    if c.phase = .waiting ∧ (s.memory c.addr).given = false then
      some (s.returnFrom n .timeout)
    else none
  | .ret n =>
    let c := s.calls n
    if c.phase = .woken then some (s.returnFrom n (s.memory c.addr).result) else none
  | .post service =>
    if (s.queue service).length < service.queueDepth then
      some { s with queue := Function.update s.queue service (s.queue service ++ [none]) }
    else none
  | .receive service =>
    match s.worker service, s.queue service with
    | .idle, msg :: rest => some { s with
        queue := Function.update s.queue service rest
        worker := Function.update s.worker service (.working msg) }
    | _, _ => none
  | .store service err =>
    match s.worker service with
    | .working (some c) => some (s.storeInto service c err)
    | .working none => some { s with worker := Function.update s.worker service .idle }
    | _ => none
  | .give service =>
    match s.worker service with
    | .stored c => some (s.giveTo service c)
    | _ => none

/-! ## Soundness -/

def Phase.Returned (p : Phase) : Prop := ∃ err, p = .returned err

instance (p : Phase) : Decidable p.Returned :=
  match p with
  | .returned err => isTrue ⟨err, rfl⟩
  | .notCalled | .sending | .waiting | .woken => isFalse fun ⟨_, h⟩ => by cases h

/-- A task stores into, and gives, only what belongs to a call that has not returned,
and a call that was woken returns what the task found for its own message. -/
def Sound (s : State) : Action → Prop
  | .store service _ =>
    ∀ c, s.worker service = .working (some c) → ¬ (s.calls c.call).phase.Returned
  | .give service => ∀ c, s.worker service = .stored c → ¬ (s.calls c.call).phase.Returned
  | .ret n => (s.calls n).phase = .woken →
    s.results n = some (s.memory (s.calls n).addr).result
  | _ => True

instance (s : State) : ∀ act, Decidable (Sound s act)
  | .store service _ =>
    match h : s.worker service with
    | .working (some c) =>
      decidable_of_iff (¬ (s.calls c.call).phase.Returned)
        ⟨fun hc c' h' => by rw [h] at h'; cases h'; exact hc, fun hc => hc c h⟩
    | .idle | .working none | .stored _ => isTrue fun _ h' => by rw [h] at h'; cases h'
  | .give service =>
    match h : s.worker service with
    | .stored c =>
      decidable_of_iff (¬ (s.calls c.call).phase.Returned)
        ⟨fun hc c' h' => by rw [h] at h'; cases h'; exact hc, fun hc => hc c h⟩
    | .idle | .working _ => isTrue fun _ h' => by rw [h] at h'; cases h'
  | .ret n => inferInstanceAs (Decidable ((s.calls n).phase = .woken → _ = _))
  | .call .. | .send _ | .sendTimeout _ | .take _ | .waitTimeout _ | .post _ | .receive _ =>
    isTrue trivial

/-- The completion a task works on. -/
def Worker.completion : Worker → Option Completion
  | .idle => none
  | .working msg => msg
  | .stored c => some c

/-- The completions of a service that are not given yet. -/
def State.pending (s : State) (service : Service) : List Completion :=
  (s.worker service).completion.toList ++ (s.queue service).reduceOption

/-- Every message has been worked off. -/
def State.Drained (s : State) : Prop := ∀ service, s.pending service = []

/-! ## The messages under way -/

variable {s t : State} {n m a : Nat} {service : Service} {c : Completion}

theorem mem_pending_of_stored (h : s.worker service = .stored c) : c ∈ s.pending service := by
  simp [State.pending, h, Worker.completion]

theorem mem_pending_of_working (h : s.worker service = .working (some c)) :
    c ∈ s.pending service := by
  simp [State.pending, h, Worker.completion]

theorem pending_congr (hqueue : t.queue service = s.queue service)
    (hworker : t.worker service = s.worker service) : t.pending service = s.pending service := by
  rw [State.pending, State.pending, hqueue, hworker]

/-! ## The invariant -/

/-- What holds of a call and its frame, with what was found for its message and the
completions its service has under way. -/
def FrameOk (n : Nat) (c : Call) (f : Frame) (result : Option EspErr)
    (pending : List Completion) : Prop :=
  match c.phase with
  | .sending => f.owner = some n ∧ f.given = false
  | .waiting => f.owner = some n ∧ (f.given = true → result = some f.result) ∧
      (f.given = false → ⟨n, c.addr⟩ ∈ pending)
  | .woken => f.owner = some n ∧ result = some f.result
  | .notCalled | .returned _ => True

def CallOk (s : State) (n : Nat) : Prop :=
  FrameOk n (s.calls n) (s.memory (s.calls n).addr) (s.results n) (s.pending (s.calls n).service)

structure Inv (s : State) : Prop where
  call : ∀ n, CallOk s n
  /-- The call that a completion under way belongs to waits for it. -/
  owned : ∀ service c, c ∈ s.pending service →
    s.calls c.call = ⟨service, c.addr, .waiting⟩ ∧ (s.memory c.addr).given = false
  once : ∀ service, (s.pending service).Nodup
  held : ∀ service c, s.worker service = .stored c →
    s.results c.call = some (s.memory c.addr).result

theorem inv_init : Inv init := by
  refine ⟨fun n => trivial, fun service c hc => ?_, fun service => List.nodup_nil, fun service c h => ?_⟩
  · cases hc
  · cases h

section frames
variable {call : Call} {f f' : Frame} {result result' : Option EspErr} {pending pending' : List Completion}

theorem FrameOk.mono (h : FrameOk n call f result pending)
    (hsub : ⟨n, call.addr⟩ ∈ pending → ⟨n, call.addr⟩ ∈ pending') :
    FrameOk n call f result pending' := by
  unfold FrameOk at h ⊢
  cases hphase : call.phase with
  | notCalled | returned => trivial
  | sending | woken => simpa only [hphase] using h
  | waiting =>
    simp only [hphase] at h ⊢
    exact ⟨h.1, h.2.1, fun hgiven => hsub (h.2.2 hgiven)⟩

/-- A call whose frame is not there any more is not under way. -/
theorem FrameOk.of_owner_ne (h : FrameOk n call f result pending) (hown : f.owner ≠ some n) :
    FrameOk n call f' result' pending' := by
  unfold FrameOk at h ⊢
  cases hphase : call.phase with
  | notCalled | returned => trivial
  | sending | woken | waiting =>
    simp only [hphase] at h
    exact absurd h.1 hown

end frames

/-- A step that works on the frame of another call keeps what holds of a call. -/
theorem CallOk.of_other (h : CallOk s n) (hcall : t.calls n = s.calls n)
    (hmem : ∀ b, b ≠ a → t.memory b = s.memory b) (hown : (s.memory a).owner ≠ some n)
    (hres : t.results n = s.results n)
    (hpending : ⟨n, (s.calls n).addr⟩ ∈ s.pending (s.calls n).service →
      ⟨n, (s.calls n).addr⟩ ∈ t.pending (s.calls n).service) : CallOk t n := by
  unfold CallOk at h ⊢
  rw [hcall]
  by_cases haddr : (s.calls n).addr = a
  · rw [← haddr] at hown
    exact h.of_owner_ne hown
  · rw [hmem _ haddr, hres]
    exact h.mono hpending

theorem Inv.owner (h : Inv s) (hc : c ∈ s.pending service) :
    (s.memory c.addr).owner = some c.call := by
  obtain ⟨hcall, -⟩ := h.owned service c hc
  have hok := h.call c.call
  rw [CallOk, hcall] at hok
  exact hok.1

/-- A step of a call that has no message under way, on its own frame. -/
theorem Inv.of_own (h : Inv s) (hcalls : ∀ n, n ≠ m → t.calls n = s.calls n)
    (hmem : ∀ b, b ≠ a → t.memory b = s.memory b)
    (hown : ∀ n, (s.memory a).owner = some n → n = m) (hres : t.results = s.results)
    (hqueue : t.queue = s.queue) (hworker : t.worker = s.worker)
    (hfree : ∀ service c, c ∈ s.pending service → c.call ≠ m) (hm : CallOk t m) : Inv t := by
  have hpending : ∀ service, t.pending service = s.pending service := fun service =>
    pending_congr (congrFun hqueue service) (congrFun hworker service)
  -- a completion under way is another call's, and stands elsewhere
  have hkept : ∀ service c, c ∈ s.pending service →
      t.calls c.call = s.calls c.call ∧ t.memory c.addr = s.memory c.addr := by
    intro service c hc
    have hne := hfree service c hc
    refine ⟨hcalls _ hne, hmem _ fun haddr => hne ?_⟩
    exact hown _ (haddr ▸ h.owner hc)
  refine ⟨fun n => ?_, fun service c hc => ?_, fun service => ?_, fun service c hc => ?_⟩
  · by_cases hn : n = m
    · exact hn ▸ hm
    · exact (h.call n).of_other (hcalls n hn) hmem (fun ho => hn (hown n ho)) (by rw [hres])
        fun hc => by rwa [hpending]
  · rw [hpending] at hc
    obtain ⟨hcall, hframe⟩ := hkept service c hc
    rw [hcall, hframe]
    exact h.owned service c hc
  · rw [hpending]
    exact h.once service
  · rw [hworker] at hc
    rw [hres, (hkept service c (mem_pending_of_stored hc)).2]
    exact h.held service c hc

/-- Completions under way for one call are one and the same. -/
theorem Inv.eq_of_call (h : Inv s) {service' : Service} {c' : Completion}
    (hc : c ∈ s.pending service) (hc' : c' ∈ s.pending service') (heq : c'.call = c.call) :
    service' = service ∧ c' = c := by
  have hcall := (h.owned service c hc).1
  have hcall' := (h.owned service' c' hc').1
  rw [heq, hcall, Call.mk.injEq] at hcall'
  obtain ⟨hservice, haddr, -⟩ := hcall'
  cases c
  cases c'
  exact ⟨hservice.symm, by simp_all⟩

theorem Inv.addr_ne (h : Inv s) {service' : Service} {c' : Completion}
    (hc : c ∈ s.pending service) (hc' : c' ∈ s.pending service') (hne : c'.call ≠ c.call) :
    c'.addr ≠ c.addr := by
  intro heq
  have howner := h.owner hc'
  rw [heq, h.owner hc, Option.some.injEq] at howner
  exact hne howner.symm

/-- A step that moves messages on and changes nothing else. -/
theorem Inv.of_pending (h : Inv s) (hcalls : t.calls = s.calls) (hmem : t.memory = s.memory)
    (hres : t.results = s.results) (hpending : ∀ service, t.pending service = s.pending service)
    (hheld : ∀ service c, t.worker service = .stored c → s.worker service = .stored c) :
    Inv t := by
  refine ⟨fun n => ?_, fun service c hc => ?_, fun service => ?_, fun service c hc => ?_⟩
  · rw [CallOk, hcalls, hmem, hres, hpending]
    exact h.call n
  · rw [hpending] at hc
    rw [hcalls, hmem]
    exact h.owned service c hc
  · rw [hpending]
    exact h.once service
  · rw [hres, hmem]
    exact h.held service c (hheld service c hc)

/-! ### The steps of a call -/

/-- A message under way belongs to a call in `xSemaphoreTake`. -/
theorem Inv.not_pending (h : Inv s) (hphase : (s.calls n).phase ≠ .waiting) (service : Service)
    (c : Completion) (hc : c ∈ s.pending service) : c.call ≠ n := by
  intro heq
  have hcall := (h.owned service c hc).1
  rw [heq] at hcall
  exact hphase (by rw [hcall])

theorem Inv.begin (h : Inv s) {addr : Nat} (ht : step s (.call n service addr) = some t) :
    Inv t := by
  simp only [step] at ht
  split at ht
  next hguard =>
    obtain ⟨hphase, hfree⟩ := hguard
    cases ht
    refine h.of_own (m := n) (a := addr) (fun k hk => Function.update_of_ne hk _ _)
      (fun b hb => Function.update_of_ne hb _ _) (fun k hk => ?_) rfl rfl rfl
      (h.not_pending (by rw [hphase]; decide)) ?_
    · rw [hfree] at hk
      cases hk
    · simp [CallOk, FrameOk]
  next => cases ht

theorem pending_queueFrom (service : Service) : (s.queueFrom n).pending service =
    if service = (s.calls n).service then s.pending service ++ [⟨n, (s.calls n).addr⟩]
    else s.pending service := by
  split
  next heq =>
    subst heq
    simp [State.pending, State.queueFrom, List.reduceOption_append]
  next hne => exact pending_congr (Function.update_of_ne hne _ _) rfl

theorem mem_pending_queueFrom : c ∈ (s.queueFrom n).pending service ↔
    c ∈ s.pending service ∨ c = ⟨n, (s.calls n).addr⟩ ∧ service = (s.calls n).service := by
  rw [pending_queueFrom]
  split
  next heq => simp [heq]
  next hne => simp [hne]

theorem Inv.send (h : Inv s) (ht : step s (.send n) = some t) : Inv t := by
  simp only [step] at ht
  split at ht
  next hguard =>
    obtain ⟨hphase, -⟩ := hguard
    cases ht
    obtain ⟨howner, hgiven⟩ : (s.memory (s.calls n).addr).owner = some n ∧
        (s.memory (s.calls n).addr).given = false := by
      have hok := h.call n
      rwa [CallOk, FrameOk, hphase] at hok
    have hfree := h.not_pending (n := n) (by rw [hphase]; decide)
    have hother : ∀ k, k ≠ n → (s.queueFrom n).calls k = s.calls k := fun k hk =>
      Function.update_of_ne hk _ _
    have hself : (s.queueFrom n).calls n = { s.calls n with phase := .waiting } :=
      Function.update_self ..
    refine ⟨fun k => ?_, fun service c hc => ?_, fun service => ?_, fun service c hc => ?_⟩
    · by_cases hk : k = n
      · subst hk
        rw [CallOk, hself]
        refine ⟨howner, fun hgiven' => ?_, fun _ => mem_pending_queueFrom.mpr (.inr ⟨rfl, rfl⟩)⟩
        exact absurd (hgiven.symm.trans hgiven') (by decide)
      · rw [CallOk, hother k hk]
        exact (h.call k).mono fun hc => mem_pending_queueFrom.mpr (.inl hc)
    · rcases mem_pending_queueFrom.mp hc with hc | ⟨rfl, rfl⟩
      · rw [hother _ (hfree service c hc)]
        exact h.owned service c hc
      · exact ⟨hself, hgiven⟩
    · rw [pending_queueFrom]
      split
      · refine List.nodup_append.mpr ⟨h.once service, List.nodup_singleton _, ?_⟩
        intro c hc c' hc' heq
        exact hfree service c hc (by rw [heq, List.mem_singleton.mp hc'])
      · exact h.once service
    · exact h.held service c hc
  next => cases ht

theorem Inv.returnFrom (h : Inv s) (hown : (s.memory (s.calls n).addr).owner = some n)
    (hfree : ∀ service c, c ∈ s.pending service → c.call ≠ n) (err : EspErr) :
    Inv (s.returnFrom n err) := by
  refine h.of_own (m := n) (a := (s.calls n).addr) (fun k hk => Function.update_of_ne hk _ _)
    (fun b hb => Function.update_of_ne hb _ _) (fun k hk => ?_) rfl rfl rfl hfree ?_
  · rw [hown, Option.some.injEq] at hk
    exact hk.symm
  · simp [CallOk, FrameOk, State.returnFrom]

theorem Inv.sendTimeout (h : Inv s) (ht : step s (.sendTimeout n) = some t) : Inv t := by
  simp only [step] at ht
  split at ht
  next hguard =>
    obtain ⟨hphase, -⟩ := hguard
    cases ht
    have hok := h.call n
    rw [CallOk, FrameOk, hphase] at hok
    exact h.returnFrom hok.1 (h.not_pending (by rw [hphase]; decide)) _
  next => cases ht

theorem Inv.ret (h : Inv s) (ht : step s (.ret n) = some t) : Inv t := by
  simp only [step] at ht
  split at ht
  next hphase =>
    cases ht
    have hok := h.call n
    rw [CallOk, FrameOk, hphase] at hok
    exact h.returnFrom hok.1 (h.not_pending (by rw [hphase]; decide)) _
  next => cases ht

theorem Inv.take (h : Inv s) (ht : step s (.take n) = some t) : Inv t := by
  simp only [step] at ht
  split at ht
  next hguard =>
    obtain ⟨hphase, hgiven⟩ := hguard
    cases ht
    have hok := h.call n
    rw [CallOk, FrameOk, hphase] at hok
    refine h.of_own (m := n) (a := (s.calls n).addr) (fun k hk => Function.update_of_ne hk _ _)
      (fun b hb => Function.update_of_ne hb _ _) (fun k hk => ?_) rfl rfl rfl
      (fun service c hc heq => ?_) ?_
    · rw [hok.1, Option.some.injEq] at hk
      exact hk.symm
    · -- what is under way is not given
      obtain ⟨hcall, hnot⟩ := h.owned service c hc
      rw [← heq, hcall, hnot] at hgiven
      cases hgiven
    · simpa [CallOk, FrameOk] using ⟨hok.1, hok.2.1 hgiven⟩
  next => cases ht

/-! ### The steps of the tasks -/

theorem pending_post (ht : step s (.post service) = some t) (other : Service) :
    t.pending other = s.pending other := by
  simp only [step] at ht
  split at ht
  next =>
    cases ht
    by_cases hother : other = service
    · subst hother
      simp [State.pending, List.reduceOption_append]
    · exact pending_congr (Function.update_of_ne hother _ _) rfl
  next => cases ht

theorem Inv.post (h : Inv s) (ht : step s (.post service) = some t) : Inv t := by
  have hpending := pending_post ht
  simp only [step] at ht
  split at ht
  next =>
    cases ht
    exact h.of_pending rfl rfl rfl hpending fun _ _ hc => hc
  next => cases ht

theorem pending_receive (ht : step s (.receive service) = some t) (other : Service) :
    t.pending other = s.pending other := by
  simp only [step] at ht
  split at ht
  next msg rest hworker hqueue =>
    cases ht
    by_cases hother : other = service
    · subst hother
      cases msg <;> simp [State.pending, hworker, hqueue, Worker.completion]
    · exact pending_congr (Function.update_of_ne hother _ _) (Function.update_of_ne hother _ _)
  next => cases ht

theorem Inv.receive (h : Inv s) (ht : step s (.receive service) = some t) : Inv t := by
  have hpending := pending_receive ht
  simp only [step] at ht
  split at ht
  next msg rest hworker hqueue =>
    cases ht
    refine h.of_pending rfl rfl rfl hpending fun other c hc => ?_
    by_cases hother : other = service
    · subst hother
      simp at hc
    · simpa [hother] using hc
  next => cases ht

theorem pending_storeInto {err : EspErr} (hworker : s.worker service = .working (some c))
    (other : Service) : (s.storeInto service c err).pending other = s.pending other := by
  by_cases hother : other = service
  · subst hother
    simp [State.pending, State.storeInto, hworker, Worker.completion]
  · exact pending_congr rfl (Function.update_of_ne hother _ _)

theorem Inv.storeInto (h : Inv s) (hworker : s.worker service = .working (some c)) (err : EspErr) :
    Inv (s.storeInto service c err) := by
  have hc := mem_pending_of_working hworker
  obtain ⟨hcall, hgiven⟩ := h.owned service c hc
  have hpending : ∀ other, (s.storeInto service c err).pending other = s.pending other :=
    pending_storeInto hworker
  -- a store leaves every owner and every semaphore alone
  have hframe : ∀ b, ((s.storeInto service c err).memory b).owner = (s.memory b).owner ∧
      ((s.storeInto service c err).memory b).given = (s.memory b).given := by
    intro b
    by_cases hb : b = c.addr
    · subst hb
      simp [State.storeInto]
    · simp [State.storeInto, hb]
  refine ⟨fun n => ?_, fun other c' hc' => ?_, fun other => ?_, fun other c' hc' => ?_⟩
  · by_cases hn : n = c.call
    · subst hn
      have hok := h.call c.call
      rw [CallOk, hcall] at hok
      rw [CallOk, show (s.storeInto service c err).calls = s.calls from rfl, hcall]
      refine ⟨(hframe _).1.trans hok.1, fun hgiven' => ?_, fun _ => ?_⟩
      · rw [(hframe _).2, hgiven] at hgiven'
        cases hgiven'
      · rw [hpending]
        exact hok.2.2 hgiven
    · refine (h.call n).of_other (a := c.addr) rfl (fun b hb => Function.update_of_ne hb _ _) ?_
        (Function.update_of_ne hn _ _) (fun hm => by rwa [hpending])
      rw [h.owner hc, ne_eq, Option.some.injEq]
      exact fun heq => hn heq.symm
  · rw [hpending] at hc'
    rw [(hframe _).2]
    exact h.owned other c' hc'
  · rw [hpending]
    exact h.once other
  · by_cases hother : other = service
    · subst hother
      simp only [State.storeInto, Function.update_self, Worker.stored.injEq] at hc'
      subst hc'
      simp [State.storeInto]
    · have hstored : s.worker other = .stored c' := by
        simpa [State.storeInto, hother] using hc'
      have hc' := mem_pending_of_stored hstored
      have hne : c'.call ≠ c.call := fun heq => hother (h.eq_of_call hc hc' heq).1
      simpa [State.storeInto, hne, h.addr_ne hc hc' hne] using h.held other c' hstored

theorem pending_store {err : EspErr} (ht : step s (.store service err) = some t)
    (other : Service) : t.pending other = s.pending other := by
  simp only [step] at ht
  split at ht
  next c hworker =>
    cases ht
    exact pending_storeInto hworker other
  next hworker =>
    cases ht
    by_cases hother : other = service
    · subst hother
      simp [State.pending, hworker, Worker.completion]
    · exact pending_congr rfl (Function.update_of_ne hother _ _)
  next => cases ht

theorem Inv.store (h : Inv s) {err : EspErr} (ht : step s (.store service err) = some t) :
    Inv t := by
  have hpending := pending_store ht
  simp only [step] at ht
  split at ht
  next c hworker =>
    cases ht
    exact h.storeInto hworker err
  next hworker =>
    cases ht
    refine h.of_pending rfl rfl rfl hpending fun other c hc => ?_
    by_cases hother : other = service
    · subst hother
      simp at hc
    · simpa [hother] using hc
  next => cases ht

theorem pending_giveTo_self (hworker : s.worker service = .stored c) :
    s.pending service = c :: (s.giveTo service c).pending service := by
  simp [State.pending, State.giveTo, hworker, Worker.completion]

theorem pending_giveTo_of_ne {other : Service} (hother : other ≠ service) :
    (s.giveTo service c).pending other = s.pending other :=
  pending_congr rfl (Function.update_of_ne hother _ _)

theorem Inv.giveTo (h : Inv s) (hworker : s.worker service = .stored c) :
    Inv (s.giveTo service c) := by
  have hc := mem_pending_of_stored hworker
  obtain ⟨hcall, hgiven⟩ := h.owned service c hc
  have hself := pending_giveTo_self hworker
  -- what stays under way belongs to another call
  have hrest : ∀ other c', c' ∈ (s.giveTo service c).pending other →
      c' ∈ s.pending other ∧ c'.call ≠ c.call := by
    intro other c' hc'
    by_cases hother : other = service
    · subst hother
      have hmem : c' ∈ s.pending other := by
        rw [hself]
        exact List.mem_cons_of_mem _ hc'
      refine ⟨hmem, fun heq => ?_⟩
      have hnodup := h.once other
      rw [hself, List.nodup_cons] at hnodup
      exact hnodup.1 ((h.eq_of_call hc hmem heq).2 ▸ hc')
    · rw [pending_giveTo_of_ne hother] at hc'
      exact ⟨hc', fun heq => hother (h.eq_of_call hc hc' heq).1⟩
  refine ⟨fun n => ?_, fun other c' hc' => ?_, fun other => ?_, fun other c' hc' => ?_⟩
  · by_cases hn : n = c.call
    · subst hn
      have hok := h.call c.call
      have hheld := h.held service c hworker
      rw [CallOk] at hok ⊢
      simp only [State.giveTo, hcall, Function.update_self, FrameOk] at hok ⊢
      exact ⟨hok.1, fun _ => hheld, fun hnot => by cases hnot⟩
    · refine (h.call n).of_other (a := c.addr) rfl (fun b hb => Function.update_of_ne hb _ _) ?_
        rfl fun hm => ?_
      · rw [h.owner hc, ne_eq, Option.some.injEq]
        exact fun heq => hn heq.symm
      · by_cases hother : (s.calls n).service = service
        · rw [hother, hself] at hm
          rw [hother]
          rcases List.mem_cons.mp hm with heq | hm
          · exact absurd (congrArg Completion.call heq) hn
          · exact hm
        · rwa [pending_giveTo_of_ne hother]
  · obtain ⟨hmem, hne⟩ := hrest other c' hc'
    have haddr := h.addr_ne hc hmem hne
    refine ⟨(h.owned other c' hmem).1, ?_⟩
    rw [show (s.giveTo service c).memory c'.addr = s.memory c'.addr from
      Function.update_of_ne haddr _ _]
    exact (h.owned other c' hmem).2
  · by_cases hother : other = service
    · subst hother
      have hnodup := h.once other
      rw [hself] at hnodup
      exact hnodup.of_cons
    · rw [pending_giveTo_of_ne hother]
      exact h.once other
  · by_cases hother : other = service
    · subst hother
      simp [State.giveTo] at hc'
    · have hstored : s.worker other = .stored c' := by
        simpa [State.giveTo, hother] using hc'
      have hc' := mem_pending_of_stored hstored
      have hne : c'.call ≠ c.call := fun heq => hother (h.eq_of_call hc hc' heq).1
      simpa [State.giveTo, h.addr_ne hc hc' hne] using h.held other c' hstored

theorem Inv.give (h : Inv s) (ht : step s (.give service) = some t) : Inv t := by
  simp only [step] at ht
  split at ht
  next c hworker =>
    cases ht
    exact h.giveTo hworker
  next => cases ht

/-! ## Runs in time -/

theorem inv_step {act : Action} (h : Inv s) (hin : ∀ n, act ≠ .waitTimeout n)
    (ht : step s act = some t) : Inv t := by
  cases act with
  | call n service addr => exact h.begin ht
  | send n => exact h.send ht
  | sendTimeout n => exact h.sendTimeout ht
  | take n => exact h.take ht
  | waitTimeout n => exact absurd rfl (hin n)
  | ret n => exact h.ret ht
  | post service => exact h.post ht
  | receive service => exact h.receive ht
  | store service err => exact h.store ht
  | give service => exact h.give ht

theorem Inv.not_returned (h : Inv s) (hc : c ∈ s.pending service) :
    ¬ (s.calls c.call).phase.Returned := by
  rw [(h.owned service c hc).1]
  rintro ⟨err, herr⟩
  cases herr

theorem Inv.sound (h : Inv s) (act : Action) : Sound s act := by
  cases act with
  | store service err => exact fun c hw => h.not_returned (mem_pending_of_working hw)
  | give service => exact fun c hw => h.not_returned (mem_pending_of_stored hw)
  | ret n =>
    intro hphase
    have hok := h.call n
    rw [CallOk, FrameOk, hphase] at hok
    exact hok.2
  | _ => trivial

/-! ## After a wait ran out -/

/-- A completion under way whose call has returned. -/
def Orphan (s : State) (service : Service) (c : Completion) : Prop :=
  c ∈ s.pending service ∧ (s.calls c.call).phase.Returned

/-- The message of a call whose wait runs out stays under way. -/
theorem Inv.orphan (h : Inv s) (ht : step s (.waitTimeout n) = some t) :
    Orphan t (s.calls n).service ⟨n, (s.calls n).addr⟩ := by
  simp only [step] at ht
  split at ht
  next hguard =>
    obtain ⟨hphase, hgiven⟩ := hguard
    cases ht
    have hok := h.call n
    rw [CallOk, FrameOk, hphase] at hok
    exact ⟨hok.2.2 hgiven, .timeout, by simp [State.returnFrom]⟩
  next => cases ht

theorem Phase.Returned.update (h : (s.calls m).phase.Returned) {call : Call}
    (hn : ¬ (s.calls n).phase.Returned ∨ call.phase.Returned) :
    (Function.update s.calls n call m).phase.Returned := by
  by_cases hm : m = n
  · subst hm
    rw [Function.update_self]
    exact hn.resolve_left fun hnot => hnot h
  · rwa [Function.update_of_ne hm]

theorem Phase.not_returned {p : Phase} (h : p = .notCalled ∨ p = .sending ∨ p = .waiting) :
    ¬ p.Returned := by
  rcases h with rfl | rfl | rfl <;> decide

/-- It stays so until a task answers a call that is gone. -/
theorem Orphan.kept {act : Action} (h : Orphan s service c) (hs : Sound s act)
    (ht : step s act = some t) : Orphan t service c := by
  obtain ⟨hc, hreturned⟩ := h
  cases act with
  | call n other addr =>
    simp only [step, Option.ite_none_right_eq_some, Option.some.injEq] at ht
    obtain ⟨⟨hphase, -⟩, rfl⟩ := ht
    exact ⟨hc, hreturned.update (.inl (Phase.not_returned (.inl hphase)))⟩
  | send n =>
    simp only [step, Option.ite_none_right_eq_some, Option.some.injEq] at ht
    obtain ⟨⟨hphase, -⟩, rfl⟩ := ht
    exact ⟨mem_pending_queueFrom.mpr (.inl hc),
      hreturned.update (.inl (Phase.not_returned (.inr (.inl hphase))))⟩
  | sendTimeout n =>
    simp only [step, Option.ite_none_right_eq_some, Option.some.injEq] at ht
    obtain ⟨-, rfl⟩ := ht
    exact ⟨hc, hreturned.update (.inr ⟨_, rfl⟩)⟩
  | take n =>
    simp only [step, Option.ite_none_right_eq_some, Option.some.injEq] at ht
    obtain ⟨⟨hphase, -⟩, rfl⟩ := ht
    exact ⟨hc, hreturned.update (.inl (Phase.not_returned (.inr (.inr hphase))))⟩
  | waitTimeout n =>
    simp only [step, Option.ite_none_right_eq_some, Option.some.injEq] at ht
    obtain ⟨-, rfl⟩ := ht
    exact ⟨hc, hreturned.update (.inr ⟨_, rfl⟩)⟩
  | ret n =>
    simp only [step, Option.ite_none_right_eq_some, Option.some.injEq] at ht
    obtain ⟨-, rfl⟩ := ht
    exact ⟨hc, hreturned.update (.inr ⟨_, rfl⟩)⟩
  | post other =>
    refine ⟨pending_post ht service ▸ hc, ?_⟩
    simp only [step, Option.ite_none_right_eq_some, Option.some.injEq] at ht
    obtain ⟨-, rfl⟩ := ht
    exact hreturned
  | receive other =>
    refine ⟨pending_receive ht service ▸ hc, ?_⟩
    simp only [step] at ht
    split at ht <;> cases ht
    exact hreturned
  | store other err =>
    refine ⟨pending_store ht service ▸ hc, ?_⟩
    simp only [step] at ht
    split at ht <;> cases ht <;> exact hreturned
  | give other =>
    simp only [step] at ht
    split at ht
    next c' hworker =>
      cases ht
      refine ⟨?_, hreturned⟩
      by_cases hother : service = other
      · subst hother
        rw [pending_giveTo_self hworker] at hc
        rcases List.mem_cons.mp hc with rfl | hc
        · exact absurd hreturned (hs c hworker)
        · exact hc
      · rwa [pending_giveTo_of_ne hother]
    next => cases ht

/-- A message that nobody waits for any more is answered in the end, and not soundly. -/
theorem Orphan.not_drained {acts : List Action} (h : Orphan s service c)
    (hs : Along step Sound s acts) (hrun : run step s acts = some t) : ¬ t.Drained := by
  intro hdone
  have hkept : ∀ s act t, Orphan s service c → Sound s act → step s act = some t →
      Orphan t service c := fun _ _ _ ho hsound ht => ho.kept hsound ht
  have hend : Orphan t service c := run_invariant hkept h hs hrun
  have hmem := hend.1
  rw [hdone service] at hmem
  cases hmem

theorem Inv.in_time {acts : List Action} (h : Inv s) (hs : Along step Sound s acts)
    (hrun : run step s acts = some t) (hdone : t.Drained) : ∀ n, .waitTimeout n ∉ acts := by
  induction acts generalizing s with
  | nil => exact fun n hn => absurd hn List.not_mem_nil
  | cons act acts ih =>
    obtain ⟨-, hrest⟩ := hs
    rw [run_cons] at hrun
    obtain ⟨u, hu, hafter⟩ := Option.bind_eq_some_iff.mp hrun
    have hnot : ∀ n, act ≠ .waitTimeout n := by
      intro n heq
      rw [heq] at hu
      exact (h.orphan hu).not_drained (hrest u (heq ▸ hu)) hafter hdone
    intro n hn
    rcases List.mem_cons.mp hn with heq | hn
    · exact hnot n heq.symm
    · exact ih (inv_step h hnot hu) (hrest u hu) hafter n hn

/-! ## When completions reach only a waiting requester -/

/-- Every run in which no wait runs out answers only calls that have not returned, each
with its own result; and in a run that answers soundly and leaves no message behind, no
wait ran out. -/
theorem completions_sound_iff (acts : List Action) :
    ((∀ n, .waitTimeout n ∉ acts) → Along step Sound init acts) ∧
    ∀ t, run step init acts = some t → t.Drained → Along step Sound init acts →
      ∀ n, .waitTimeout n ∉ acts := by
  refine ⟨fun hin => ?_, fun t hrun hdone hs => inv_init.in_time hs hrun hdone⟩
  have hC : Along step (fun _ act => ∀ n, act ≠ .waitTimeout n) init acts :=
    along_of_forall fun act hact n heq => hin n (heq ▸ hact)
  exact along_of_invariant (fun s act t h hC ht => inv_step h hC ht)
    (fun s act h _ => h.sound act) inv_init hC

/-- A shutdown persist answered in time, with the queue worked off. -/
def answered : List Action :=
  [.call 0 .player 0, .send 0, .receive .player, .store .player .fail, .give .player, .take 0,
    .ret 0]

theorem completions_sound_answered : Along step Sound init answered ∧
    ((run step init answered).get (by decide)).calls 0 = ⟨.player, 0, .returned .fail⟩ :=
  ⟨(completions_sound_iff answered).1 (by simp [answered]), by decide⟩

/-! ### A late answer -/

/-- A call times out while the companion task works on its message, and the next call
stands at the same address: it gets the answer to the first message. -/
def lateAnswer : List Action :=
  [.call 0 .companion 0, .send 0, .receive .companion, .waitTimeout 0,
    .call 1 .companion 0, .send 1, .store .companion .ok, .give .companion, .take 1, .ret 1]

/-- It stores and gives for a call that has returned, and the next call returns before
its own message is worked off. -/
theorem lateAnswer_not_sound : (run step init lateAnswer).isSome = true ∧
    ¬ Along step Sound init lateAnswer := by decide

end Jukeboy.Services.Completions
