import Jukeboy.Base.Backlog
import Jukeboy.Lastfm.Scrobbling

/-! # What becomes of an accepted scrobble

The scrobbles under way form a line: the one the service task holds, the queue, and
the one a sender has still to put in. They leave it at its head, except for the
oldest one in the queue, which makes room in a full queue. -/
namespace Jukeboy.Lastfm.Delivery

open Jukeboy.Base Jukeboy.Base.Runs Jukeboy.Base.Backlog Jukeboy.Base.QueueSet
open Jukeboy.PlayHistory.Cache (Store)
open Jukeboy.Lastfm.ServiceTask (Pc TaskIo taskStep queueLength Member)
open Jukeboy.Lastfm.Scrobbling

variable {s t : State} {a : Action} {x y : Scrobble}

/-! ## The line -/

/-- The payload the service task holds. -/
def inHand : Pc Payload → List Payload
  | .processingScrobble p | .requeueing p | .requeueDropped p => [p]
  | _ => []

def payloads (s : ServiceTask.State Payload) : List Payload :=
  inHand s.pc ++ (s.queues.queue .scrobble ++ s.dropped.toList)

/-- The scrobbles under way, oldest first. -/
def line (s : State) : List Scrobble := (payloads s.task).flatMap Payload.scrobbles

/-- The oldest scrobble of a full queue. -/
def PushedOut (s : State) (x : Scrobble) : Prop :=
  queueLength .scrobble ≤ (s.task.queues.queue .scrobble).length ∧
    (s.task.queues.queue .scrobble).head? = some (.scrobble x)

/-- The scrobble that cannot be put back, since the mutex cannot be had in time. -/
def forgets (s : State) : Action → Option Scrobble
  | .task _ timedOut _ =>
    match s.task.pc with
    | .requeueing (.scrobble x) => if timedOut then some x else none
    | _ => none
  | _ => none

/-! ## What the service task does to the line -/

section task
variable {u v : ServiceTask.State Payload} {io : TaskIo}

/-- Who holds the mutex past a drop has room to send. -/
structure Room (u : ServiceTask.State Payload) : Prop where
  bound : (u.queues.queue .scrobble).length ≤ queueLength .scrobble
  room : u.mutexFree = false → (u.queues.queue .scrobble).length < queueLength .scrobble
  one : u.dropped.isSome = true → ∀ p, u.pc ≠ .requeueDropped p

/-- A step of the service task keeps the payloads under way, or it is through with the
one it holds, cannot put it back, or puts it back in the place of the oldest queued one. -/
inductive Taken (io : TaskIo) (u v : ServiceTask.State Payload) : Prop
  | kept (h : payloads v = payloads u) (hpc : ∀ p, u.pc = .processingScrobble p → io.failed = true)
  | finished (p : Payload) (hpc : u.pc = .processingScrobble p) (hio : io.failed = false)
      (h : payloads u = p :: payloads v)
  | forgotten (p : Payload) (hpc : u.pc = .requeueing p) (hio : io.timedOut = true)
      (h : payloads u = p :: payloads v)
  | pushedOut (p q : Payload) (rest : List Payload) (hpc : u.pc = .requeueing p)
      (hio : io.timedOut = false)
      (hqueue : u.queues.queue .scrobble = q :: rest)
      (hfull : queueLength .scrobble ≤ (u.queues.queue .scrobble).length)
      (h : payloads v = p :: (rest ++ u.dropped.toList))

theorem queue_receive {i : Member} {p : Payload} {qs : Queues Member Payload}
    (h : receive i u.queues = some (p, qs)) :
    u.queues.queue i = p :: qs.queue i ∧ ∀ j, j ≠ i → qs.queue j = u.queues.queue j := by
  unfold receive at h
  split at h
  · cases h
  · next x rest hqueue =>
    cases h
    exact ⟨by simp [hqueue], fun j hj => Function.update_of_ne hj _ _⟩

theorem queue_send {i : Member} {p : Payload} {qs : Queues Member Payload}
    (h : send queueLength i p u.queues = some qs) :
    (u.queues.queue i).length < queueLength i ∧ qs.queue i = u.queues.queue i ++ [p] ∧
      ∀ j, j ≠ i → qs.queue j = u.queues.queue j := by
  unfold send at h
  split at h
  · next hroom =>
    cases h
    exact ⟨hroom, by simp, fun j hj => Function.update_of_ne hj _ _⟩
  · cases h

theorem queue_sendToFront {i : Member} {p : Payload} {qs : Queues Member Payload}
    (h : sendToFront queueLength i p u.queues = some qs) :
    (u.queues.queue i).length < queueLength i ∧ qs.queue i = p :: u.queues.queue i ∧
      ∀ j, j ≠ i → qs.queue j = u.queues.queue j := by
  unfold sendToFront at h
  split at h
  · next hroom =>
    cases h
    exact ⟨hroom, by simp, fun j hj => Function.update_of_ne hj _ _⟩
  · cases h

theorem queue_select {i : Member} {qs : Queues Member Payload}
    (h : select u.queues = some (i, qs)) : qs.queue = u.queues.queue := by
  unfold select at h
  split at h
  · cases h
  · cases h
    rfl

theorem payloads_of (pc : Pc Payload) (hpc : u.pc = pc) :
    payloads u = inHand pc ++ (u.queues.queue .scrobble ++ u.dropped.toList) := by
  rw [payloads, hpc]

theorem taken_step (hroom : Room u) (h : taskStep io u = some v) : Taken io u v := by
  unfold taskStep at h
  split at h
  next hpc =>
    cases h
    refine .kept ?_ (by simp [hpc])
    rw [payloads_of _ hpc]
    cases io.online <;> rfl
  next hpc =>
    split at h
    next =>
      split at h
      next =>
        cases h
        exact .kept (by rw [payloads_of _ hpc]; rfl) (by simp [hpc])
      next => cases h
    next payload queues hreceive =>
      cases h
      refine .kept ?_ (by simp [hpc])
      rw [payloads_of _ hpc]
      simp [payloads, inHand, (queue_receive hreceive).2 .scrobble]
  next hpc =>
    split at h
    next => cases h
    next member queues hselect =>
      cases h
      refine .kept ?_ (by simp [hpc])
      rw [payloads_of _ hpc]
      simp [payloads, inHand, queue_select hselect]
  next hpc =>
    split at h
    next =>
      cases h
      exact .kept (by rw [payloads_of _ hpc]; rfl) (by simp [hpc])
    next payload queues hreceive =>
      cases h
      refine .kept ?_ (by simp [hpc])
      rw [payloads_of _ hpc]
      simp [payloads, inHand, (queue_receive hreceive).2 .scrobble]
  next hpc =>
    split at h <;> cases h <;> exact .kept (by rw [payloads_of _ hpc]; rfl) (by simp [hpc])
  next hpc =>
    split at h
    next =>
      cases h
      exact .kept (by rw [payloads_of _ hpc]; rfl) (by simp [hpc])
    next =>
    split at h
    next => cases h
    next =>
    split at h
    next =>
      cases h
      exact .kept (by rw [payloads_of _ hpc]; rfl) (by simp [hpc])
    next payload queues hreceive =>
      cases h
      refine .kept ?_ (by simp [hpc])
      rw [payloads_of _ hpc]
      simp [payloads, inHand, (queue_receive hreceive).1]
  next payload hpc =>
    cases h
    exact .kept (by rw [payloads_of _ hpc]; rfl) (by simp [hpc])
  next payload hpc =>
    cases h
    cases hfailed : io.failed with
    | false =>
      refine .finished payload hpc hfailed ?_
      rw [payloads_of _ hpc]
      rfl
    | true =>
      refine .kept ?_ (by simp [hfailed])
      rw [payloads_of _ hpc]
      rfl
  next payload hpc =>
    split at h
    next htimedOut =>
      cases h
      refine .forgotten payload hpc htimedOut ?_
      rw [payloads_of _ hpc]
      rfl
    next htimedOut =>
    split at h
    next => cases h
    next =>
    split at h
    next queues hsend =>
      cases h
      refine .kept ?_ (by simp [hpc])
      rw [payloads_of _ hpc]
      simp [payloads, inHand, (queue_sendToFront hsend).2.1]
    next hfull =>
      -- a queue that refuses a payload holds one
      split at h
      next hempty =>
        have hlength := receive_eq_none hempty
        simp [sendToFront, hlength, queueLength] at hfull
      next q queues hreceive =>
        cases h
        obtain ⟨hqueue, -⟩ := queue_receive hreceive
        refine .pushedOut payload q (queues.queue .scrobble) hpc (by simpa using htimedOut) hqueue ?_ rfl
        simp only [sendToFront, ite_eq_right_iff, reduceCtorEq, imp_false, Nat.not_lt] at hfull
        exact hfull
  next payload hpc =>
    have hlt := hroom.room (by simp [ServiceTask.State.mutexFree, hpc])
    split at h
    next queues hsend =>
      cases h
      refine .kept ?_ (by simp [hpc])
      rw [payloads_of _ hpc]
      simp [payloads, inHand, (queue_sendToFront hsend).2.1]
    next hfull =>
      simp only [sendToFront, ite_eq_right_iff, reduceCtorEq, imp_false] at hfull
      exact absurd hlt hfull

/-- A step that leaves the mutex to a sender that may hold it. -/
theorem Room.mono (hroom : Room u) (hdropped : v.dropped = u.dropped)
    (hpc : ∀ p, v.pc ≠ .requeueDropped p)
    (hlength : (v.queues.queue .scrobble).length ≤ (u.queues.queue .scrobble).length) :
    Room v := by
  refine ⟨Nat.le_trans hlength hroom.bound, ?_, fun _ => hpc⟩
  intro hheld
  have hsome : u.dropped.isSome = true := by
    rw [ServiceTask.State.mutexFree, hdropped] at hheld
    cases hd : u.dropped with
    | some _ => rfl
    | none =>
      cases hv : v.pc with
      | requeueDropped p => exact absurd hv (hpc p)
      | _ => simp [hd, hv] at hheld
  have hu : u.mutexFree = false := by
    cases hd : u.dropped with
    | none => rw [hd] at hsome; cases hsome
    | some _ => simp [ServiceTask.State.mutexFree, hd]
  exact Nat.lt_of_le_of_lt hlength (hroom.room hu)

/-- A send by who holds the mutex, and gives it back. -/
theorem Room.sent (hdropped : v.dropped = none) (hpc : ∀ p, v.pc ≠ .requeueDropped p)
    (hlength : (v.queues.queue .scrobble).length ≤ queueLength .scrobble) : Room v := by
  refine ⟨hlength, ?_, fun _ => hpc⟩
  intro hheld
  rw [ServiceTask.State.mutexFree, hdropped] at hheld
  cases hv : v.pc with
  | requeueDropped p => exact absurd hv (hpc p)
  | _ => simp [hv] at hheld

theorem not_dropped_of_mutexFree (h : u.mutexFree = true) : ¬ u.dropped.isSome = true := by
  intro hsome
  rw [ServiceTask.State.mutexFree] at h
  cases hd : u.dropped with
  | none => rw [hd] at hsome; cases hsome
  | some _ => simp [hd] at h

theorem room_taskStep (hroom : Room u) (h : taskStep io u = some v) : Room v := by
  unfold taskStep at h
  split at h
  next =>
    cases h
    refine hroom.mono rfl ?_ (Nat.le_refl _)
    intro p
    cases io.online <;> simp [ServiceTask.State.goto]
  next =>
    split at h
    next =>
      split at h
      next =>
        cases h
        exact hroom.mono rfl (by simp [ServiceTask.State.goto]) (Nat.le_refl _)
      next => cases h
    next payload queues hreceive =>
      cases h
      refine hroom.mono rfl (by simp) ?_
      simp [(queue_receive hreceive).2 .scrobble]
  next =>
    split at h
    next => cases h
    next member queues hselect =>
      cases h
      exact hroom.mono rfl (by simp) (by rw [queue_select hselect])
  next =>
    split at h
    next =>
      cases h
      exact hroom.mono rfl (by simp [ServiceTask.State.goto]) (Nat.le_refl _)
    next payload queues hreceive =>
      cases h
      refine hroom.mono rfl (by simp) ?_
      simp [(queue_receive hreceive).2 .scrobble]
  next =>
    split at h <;> cases h <;>
      exact hroom.mono rfl (by simp [ServiceTask.State.goto]) (Nat.le_refl _)
  next =>
    split at h
    next =>
      cases h
      exact hroom.mono rfl (by simp [ServiceTask.State.goto]) (Nat.le_refl _)
    next =>
    split at h
    next => cases h
    next =>
    split at h
    next =>
      cases h
      exact hroom.mono rfl (by simp [ServiceTask.State.goto]) (Nat.le_refl _)
    next payload queues hreceive =>
      cases h
      refine hroom.mono rfl (by simp) ?_
      simp [(queue_receive hreceive).1]
  next payload =>
    cases h
    exact hroom.mono rfl (by simp [ServiceTask.State.goto]) (Nat.le_refl _)
  next payload =>
    cases h
    refine hroom.mono rfl ?_ (Nat.le_refl _)
    intro p
    cases io.failed <;> simp [ServiceTask.State.goto]
  next payload hpc =>
    split at h
    next =>
      cases h
      exact hroom.mono rfl (by simp [ServiceTask.State.goto]) (Nat.le_refl _)
    next =>
    split at h
    next => cases h
    next hmutex =>
    have hnone := not_dropped_of_mutexFree (by simpa using hmutex)
    split at h
    next queues hsend =>
      cases h
      refine .sent (by simpa using hnone) (by simp) ?_
      obtain ⟨hlt, hqueue, -⟩ := queue_sendToFront hsend
      change (queues.queue .scrobble).length ≤ _
      rw [hqueue]
      exact hlt
    next hfull =>
      split at h
      next =>
        cases h
        exact hroom.mono rfl (by simp [ServiceTask.State.goto]) (Nat.le_refl _)
      next q queues hreceive =>
        cases h
        have hlt : (queues.queue .scrobble).length < queueLength .scrobble := by
          have hbound := hroom.bound
          rw [(queue_receive hreceive).1, List.length_cons] at hbound
          exact hbound
        exact ⟨Nat.le_of_lt hlt, fun _ => hlt, fun hsome => absurd hsome hnone⟩
  next payload hpc =>
    have hnone : ¬ u.dropped.isSome = true := fun hsome => hroom.one hsome payload hpc
    split at h
    next queues hsend =>
      cases h
      refine .sent (by simpa using hnone) (by simp) ?_
      obtain ⟨hlt, hqueue, -⟩ := queue_sendToFront hsend
      change (queues.queue .scrobble).length ≤ _
      rw [hqueue]
      exact hlt
    next =>
      cases h
      exact hroom.mono rfl (by simp [ServiceTask.State.goto]) (Nat.le_refl _)

theorem requeueDropped_of_mutexFree (h : u.mutexFree = true) (p : Payload) :
    u.pc ≠ .requeueDropped p := by
  intro hpc
  simp [ServiceTask.State.mutexFree, hpc] at h

theorem room_sendScrobble (hroom : Room u) {p : Payload}
    (h : ServiceTask.sendScrobble p u = some v) : Room v := by
  unfold ServiceTask.sendScrobble at h
  split at h
  next => cases h
  next hmutex =>
  have hmutex : u.mutexFree = true := by simpa using hmutex
  have hpc := requeueDropped_of_mutexFree hmutex
  split at h
  next queues hsend =>
    cases h
    refine .sent (by simpa using not_dropped_of_mutexFree hmutex) hpc ?_
    obtain ⟨hlt, hqueue, -⟩ := queue_send hsend
    change (queues.queue .scrobble).length ≤ _
    rw [hqueue, List.length_append]
    exact hlt
  next =>
    split at h
    next =>
      cases h
      exact hroom
    next q queues hreceive =>
      cases h
      have hlt : (queues.queue .scrobble).length < queueLength .scrobble := by
        have hbound := hroom.bound
        rw [(queue_receive hreceive).1, List.length_cons] at hbound
        exact hbound
      exact ⟨Nat.le_of_lt hlt, fun _ => hlt, fun _ => hpc⟩

theorem room_sendDropped (hroom : Room u) (h : ServiceTask.sendDropped u = some v) : Room v := by
  unfold ServiceTask.sendDropped at h
  split at h
  next => cases h
  next p hdropped =>
    have hpc := hroom.one (by simp [hdropped])
    split at h
    next queues hsend =>
      cases h
      refine .sent rfl hpc ?_
      obtain ⟨hlt, hqueue, -⟩ := queue_send hsend
      change (queues.queue .scrobble).length ≤ _
      rw [hqueue, List.length_append]
      exact hlt
    next =>
      cases h
      exact .sent rfl hpc hroom.bound

end task

/-! ## What a step does to the line -/

/-- The scrobble the service task tries, and what comes of it, in a step. -/
inductive Moved (s : State) (a : Action) (t : State) : Prop
  /-- Nothing that concerns the line, or a scrobble that stays in it. -/
  | kept (hline : line t = line s) (hsent : t.sent = s.sent) (haccepted : t.accepted = s.accepted)
  /-- A scrobble is accepted; a full queue gives up its oldest one for it. -/
  | accepted (rest : List Scrobble) (x : Scrobble) (hrest : rest.Sublist (line s))
      (hroom : (s.task.queues.queue .scrobble).length < queueLength .scrobble → rest = line s)
      (hout : ∀ y ∈ line s, y ∉ rest → PushedOut s y) (hx : x.number = s.accepted)
      (hline : line t = rest ++ [x]) (hsent : t.sent = s.sent)
      (haccepted : t.accepted = s.accepted + 1)
  /-- The request for the scrobble in hand succeeded. -/
  | sent (x : Scrobble) (hturn : s.turn = some x) (hline : line s = x :: line t)
      (hsent : t.sent = s.sent ++ [x]) (haccepted : t.accepted = s.accepted)
  | consumed (x : Scrobble) (hturn : s.turn = some x) (henabled : s.enabled = false)
      (hline : line s = x :: line t) (hsent : t.sent = s.sent)
      (haccepted : t.accepted = s.accepted)
  /-- A failed scrobble takes the place of the oldest queued one. -/
  | pushedOut (p : Payload) (hpc : s.task.pc = .requeueing p)
      (ha : ∃ online timedOut request, a = .task online timedOut request)
      (hfull : queueLength .scrobble ≤ (s.task.queues.queue .scrobble).length)
      (hsub : (line t).Sublist (line s))
      (hout : ∀ y ∈ line s, y ∉ line t → PushedOut s y) (hsent : t.sent = s.sent)
      (haccepted : t.accepted = s.accepted)
  /-- A failed scrobble is not put back. -/
  | forgotten (x : Scrobble) (hforgets : forgets s a = some x) (hline : line s = x :: line t)
      (hsent : t.sent = s.sent) (haccepted : t.accepted = s.accepted)

theorem resolveTrackMetadata_ne_ok (h : Store) (checksum trackIndex : UInt32) :
    resolveTrackMetadata h checksum trackIndex ≠ .error .ok := by
  unfold resolveTrackMetadata
  split
  next => simp
  next =>
    -- by which artist it is, and by whether the names are there
    dsimp only
    split <;> split <;> simp

/-- A scrobble is done with when its request succeeded, or scrobbling is disabled. -/
theorem processScrobblePayload_ok {online : Bool} {request : EspErr}
    (h : (processScrobblePayload s online request x).err = .ok) :
    processScrobblePayload s online request x = .requested .ok ∨
      processScrobblePayload s online request x = .consumed ∧ s.enabled = false := by
  unfold processScrobblePayload at h ⊢
  cases henabled : s.enabled with
  | false => exact .inr ⟨rfl, rfl⟩
  | true =>
    left
    simp only [henabled, Bool.not_true, Bool.false_eq_true, if_false] at h ⊢
    cases hresolve : resolveTrackMetadata s.history x.albumChecksum x.trackIndex with
    | error err =>
      simp only [hresolve, Outcome.err] at h
      exact absurd (h ▸ hresolve) (resolveTrackMetadata_ne_ok _ _ _)
    | ok names =>
      simp only [hresolve] at h ⊢
      cases online with
      | false => cases h
      | true => exact congrArg Outcome.requested h

theorem turn_eq_some : s.turn = some x ↔ s.task.pc = .processingScrobble (.scrobble x) := by
  unfold State.turn
  split
  next y hpc => simp [hpc]
  next hpc =>
    constructor
    · intro h
      cases h
    · intro h
      exact absurd h (hpc x)

theorem line_cons {u v : ServiceTask.State Payload} (p : Payload)
    (h : payloads u = p :: payloads v) :
    (payloads u).flatMap Payload.scrobbles =
      p.scrobbles ++ (payloads v).flatMap Payload.scrobbles := by
  rw [h, List.flatMap_cons]

theorem pushedOut_of {q : Payload} {rest : List Payload}
    (hqueue : s.task.queues.queue .scrobble = q :: rest)
    (hfull : queueLength .scrobble ≤ (s.task.queues.queue .scrobble).length)
    (hy : y ∈ q.scrobbles) : PushedOut s y := by
  refine ⟨hfull, ?_⟩
  cases q with
  | command => cases hy
  | scrobble z =>
    cases List.mem_singleton.mp hy
    rw [hqueue]
    rfl

theorem moved_task (hroom : Room s.task) {online timedOut : Bool} {request : EspErr}
    (h : taskTurn s online timedOut request = some t) :
    Moved s (.task online timedOut request) t := by
  unfold taskTurn at h
  obtain ⟨task, htask, rfl⟩ := Option.map_eq_some_iff.mp h
  cases taken_step hroom htask with
  | kept hpayloads hfails =>
    refine .kept (congrArg (List.flatMap Payload.scrobbles) hpayloads) ?_ rfl
    cases hturn : s.turn with
    | none => simp
    | some x =>
      have hfailed := hfails _ (turn_eq_some.mp hturn)
      simp only [hturn, Option.map_some, Option.any_some, decide_eq_true_eq] at hfailed
      have hne : processScrobblePayload s online request x ≠ .requested .ok := by
        intro heq
        rw [heq] at hfailed
        exact hfailed rfl
      simp [hne]
  | finished p hpc hio hpayloads =>
    cases p with
    | command =>
      have hturn : s.turn = none := by simp [State.turn, hpc]
      refine .kept ?_ (by simp [hturn]) rfl
      exact (line_cons _ hpayloads).symm
    | scrobble x =>
      have hturn := turn_eq_some.mpr hpc
      simp only [hturn, Option.map_some, Option.any_some, decide_eq_false_iff_not, not_not] at hio
      rcases processScrobblePayload_ok hio with hsent | ⟨hconsumed, henabled⟩
      · exact .sent x hturn (line_cons _ hpayloads) (by simp [hturn, hsent]) rfl
      · exact .consumed x hturn henabled (line_cons _ hpayloads) (by simp [hturn, hconsumed]) rfl
  | forgotten p hpc hio hpayloads =>
    have hturn : s.turn = none := by simp [State.turn, hpc]
    cases p with
    | command =>
      refine .kept ?_ (by simp [hturn]) rfl
      exact (line_cons _ hpayloads).symm
    | scrobble x =>
      have hio : timedOut = true := hio
      refine .forgotten x ?_ (line_cons _ hpayloads) (by simp [hturn]) rfl
      simp [forgets, hpc, hio]
  | pushedOut p q rest hpc hio hqueue hfull hpayloads =>
    have hturn : s.turn = none := by simp [State.turn, hpc]
    have hs : line s = p.scrobbles ++ (q.scrobbles ++
        (rest ++ s.task.dropped.toList).flatMap Payload.scrobbles) := by
      simp [line, payloads, hpc, hqueue, inHand]
    refine .pushedOut p hpc ⟨_, _, _, rfl⟩ hfull ?_ ?_ (by simp [hturn]) rfl
    · rw [hs, line, hpayloads, List.flatMap_cons]
      exact (List.Sublist.refl _).append (List.sublist_append_right _ _)
    · intro y hy hout
      rw [line, hpayloads, List.flatMap_cons] at hout
      rw [hs] at hy
      have hq : y ∈ q.scrobbles := by
        simp only [List.mem_append] at hy hout
        tauto
      exact pushedOut_of hqueue hfull hq

/-- What becomes of the line when a scrobble is accepted. -/
structure Accepts (s t : State) (x : Scrobble) (rest : List Scrobble) : Prop where
  sublist : rest.Sublist (line s)
  room : (s.task.queues.queue .scrobble).length < queueLength .scrobble → rest = line s
  out : ∀ y ∈ line s, y ∉ rest → PushedOut s y
  line : line t = rest ++ [x]
  sent : t.sent = s.sent
  accepted : t.accepted = s.accepted + 1

theorem accepts_sendScrobble {albumChecksum trackIndex : UInt32} (henabled : s.enabled = true)
    (h : step s (.sendScrobble albumChecksum trackIndex) = some t) :
    ∃ rest, Accepts s t ⟨albumChecksum, trackIndex, s.accepted⟩ rest := by
  simp only [step, henabled, Bool.not_true, Bool.false_eq_true, if_false] at h
  obtain ⟨task, htask, rfl⟩ := Option.map_eq_some_iff.mp h
  unfold ServiceTask.sendScrobble at htask
  split at htask
  next => cases htask
  next hmutex =>
  have hnone : s.task.dropped = none := by
    have hnot := not_dropped_of_mutexFree (u := s.task) (by simpa using hmutex)
    simpa using hnot
  split at htask
  next queues hsend =>
    cases htask
    refine ⟨Delivery.line s, List.Sublist.refl _, fun _ => rfl,
      fun y hy hout => absurd hy hout, ?_, rfl, rfl⟩
    simp [Delivery.line, payloads, (queue_send hsend).2.1, hnone, Payload.scrobbles]
  next hfull =>
    have hfull : queueLength .scrobble ≤ (s.task.queues.queue .scrobble).length := by
      simpa [send] using hfull
    split at htask
    next hempty =>
      rw [receive_eq_none hempty] at hfull
      exact absurd hfull (by decide)
    next q queues hreceive =>
      cases htask
      obtain ⟨hqueue, -⟩ := queue_receive hreceive
      have hs : Delivery.line s = (inHand s.task.pc).flatMap Payload.scrobbles ++ (q.scrobbles ++
          (queues.queue .scrobble).flatMap Payload.scrobbles) := by
        simp [Delivery.line, payloads, hqueue, hnone]
      refine ⟨(inHand s.task.pc).flatMap Payload.scrobbles ++
        (queues.queue .scrobble).flatMap Payload.scrobbles, ?_,
        fun hlt => absurd hlt (Nat.not_lt.mpr hfull), ?_, ?_, rfl, rfl⟩
      · rw [hs]
        exact (List.Sublist.refl _).append (List.sublist_append_right _ _)
      · intro y hy hout
        rw [hs] at hy
        have hq : y ∈ q.scrobbles := by
          simp only [List.mem_append] at hy hout
          tauto
        exact pushedOut_of hqueue hfull hq
      · simp [Delivery.line, payloads, Payload.scrobbles]

theorem moved_sendScrobble {albumChecksum trackIndex : UInt32}
    (h : step s (.sendScrobble albumChecksum trackIndex) = some t) :
    Moved s (.sendScrobble albumChecksum trackIndex) t := by
  cases henabled : s.enabled with
  | false =>
    simp only [step, henabled, Bool.not_false, if_true] at h
    cases h
    exact .kept rfl rfl rfl
  | true =>
    obtain ⟨rest, haccepts⟩ := accepts_sendScrobble henabled h
    exact .accepted rest _ haccepts.sublist haccepts.room haccepts.out rfl haccepts.line
      haccepts.sent haccepts.accepted

theorem moved_sendDropped (hroom : Room s.task) (h : step s .sendDropped = some t) :
    Moved s .sendDropped t := by
  simp only [step] at h
  obtain ⟨task, htask, rfl⟩ := Option.map_eq_some_iff.mp h
  unfold ServiceTask.sendDropped at htask
  split at htask
  next => cases htask
  next p hdropped =>
    have hlt := hroom.room (by simp [ServiceTask.State.mutexFree, hdropped])
    split at htask
    next queues hsend =>
      cases htask
      refine .kept ?_ rfl rfl
      simp [line, payloads, (queue_send hsend).2.1, hdropped]
    next hfull =>
      simp only [send, ite_eq_right_iff, reduceCtorEq, imp_false] at hfull
      exact absurd hlt hfull

theorem moved_step (hroom : Room s.task) (h : step s a = some t) : Moved s a t := by
  cases a with
  | task online timedOut request => exact moved_task hroom h
  | sendScrobble albumChecksum trackIndex => exact moved_sendScrobble h
  | sendDropped => exact moved_sendDropped hroom h
  | enqueueCommand =>
    cases h
    refine .kept ?_ rfl rfl
    unfold ServiceTask.enqueueCommand
    split
    next queues hsend => simp [line, payloads, (queue_send hsend).2.2 .scrobble]
    next => rfl
  | setScrobblingEnabled enabled =>
    cases h
    exact .kept rfl rfl rfl
  | changeHistory history =>
    cases h
    exact .kept rfl rfl rfl

theorem room_step (hroom : Room s.task) (h : step s a = some t) : Room t.task := by
  cases a with
  | task online timedOut request =>
    simp only [step, taskTurn] at h
    obtain ⟨task, htask, rfl⟩ := Option.map_eq_some_iff.mp h
    exact room_taskStep hroom htask
  | sendScrobble albumChecksum trackIndex =>
    simp only [step] at h
    split at h
    next =>
      cases h
      exact hroom
    next =>
      obtain ⟨task, htask, rfl⟩ := Option.map_eq_some_iff.mp h
      exact room_sendScrobble hroom htask
  | sendDropped =>
    simp only [step] at h
    obtain ⟨task, htask, rfl⟩ := Option.map_eq_some_iff.mp h
    exact room_sendDropped hroom htask
  | enqueueCommand =>
    cases h
    unfold ServiceTask.enqueueCommand
    split
    next queues hsend =>
      have hsame := (queue_send hsend).2.2 .scrobble (by decide)
      exact ⟨hsame ▸ hroom.bound, fun hheld => hsame ▸ hroom.room hheld, hroom.one⟩
    next => exact hroom
  | setScrobblingEnabled enabled =>
    cases h
    exact hroom
  | changeHistory history =>
    cases h
    exact hroom

/-! ## In order, and nothing lost without a reason -/

structure Inv (s : State) : Prop where
  room : Room s.task
  order : InOrder Scrobble.number s.sent (line s)
  fresh : ∀ x ∈ s.sent ++ line s, x.number < s.accepted

theorem inv_init (h : Store) : Inv (init h) := by
  refine ⟨⟨Nat.zero_le _, ?_, ?_⟩, inOrder_nil, ?_⟩
  · intro hheld
    cases hheld
  · intro hsome
    cases hsome
  · intro x hx
    cases hx

/-- Scrobbles leave the line unsent. -/
theorem Inv.leave (hs : Inv s) (hroom : Room t.task) (hsub : (line t).Sublist (line s))
    (hsent : t.sent = s.sent) (haccepted : t.accepted = s.accepted) : Inv t := by
  refine ⟨hroom, hsent ▸ hs.order.leave hsub, ?_⟩
  rw [hsent, haccepted]
  intro y hy
  exact hs.fresh y (((List.Sublist.refl _).append hsub).subset hy)

theorem inv_step (hs : Inv s) (h : step s a = some t) : Inv t := by
  have hroom := room_step hs.room h
  cases moved_step hs.room h with
  | kept hline hsent haccepted =>
    exact ⟨hroom, hline ▸ hsent ▸ hs.order, hline ▸ hsent ▸ haccepted ▸ hs.fresh⟩
  | accepted rest x hrest _ _ hx hline hsent haccepted =>
    have hfresh : ∀ y ∈ s.sent ++ rest, y.number < s.accepted := by
      intro y hy
      exact hs.fresh y (((List.Sublist.refl _).append hrest).subset hy)
    refine ⟨hroom, ?_, ?_⟩
    · rw [hline, hsent]
      exact (hs.order.leave hrest).push fun y hy => hx ▸ hfresh y hy
    · intro y hy
      rw [hline, hsent, ← List.append_assoc] at hy
      rw [haccepted]
      rcases List.mem_append.mp hy with hy | hy
      · exact Nat.lt_succ_of_lt (hfresh y hy)
      · rw [List.mem_singleton.mp hy, hx]
        exact Nat.lt_succ_self _
  | sent x _ hline hsent haccepted =>
    have horder := hs.order
    have hfresh := hs.fresh
    rw [hline] at horder hfresh
    refine ⟨hroom, hsent ▸ horder.serve, ?_⟩
    rw [hsent, haccepted, List.append_assoc]
    exact hfresh
  | consumed x _ _ hline hsent haccepted =>
    exact hs.leave hroom (hline ▸ List.sublist_cons_self _ _) hsent haccepted
  | pushedOut _ _ _ _ hsub _ hsent haccepted => exact hs.leave hroom hsub hsent haccepted
  | forgotten x _ hline hsent haccepted =>
    exact hs.leave hroom (hline ▸ List.sublist_cons_self _ _) hsent haccepted

theorem inv_run {h : Store} {as : List Action} (hrun : run step (init h) as = some s) : Inv s :=
  run_invariant (fun _ _ _ hs _ ht => inv_step hs ht) (inv_init h) (along_true as) hrun

/-- A scrobble is accepted while scrobbling is enabled, and joins the line at its end. -/
def Joins (s : State) (a : Action) (t : State) : Prop :=
  ∀ albumChecksum trackIndex, a = .sendScrobble albumChecksum trackIndex → s.enabled = true →
    (line t).getLast? = some ⟨albumChecksum, trackIndex, s.accepted⟩ ∧
      t.accepted = s.accepted + 1

theorem joins_step (h : step s a = some t) : Joins s a t := by
  rintro albumChecksum trackIndex rfl henabled
  obtain ⟨rest, haccepts⟩ := accepts_sendScrobble henabled h
  exact ⟨by rw [haccepts.line, List.getLast?_concat], haccepts.accepted⟩

/-- An accepted scrobble joins the line, and one that leaves it has been sent, or scrobbling
is disabled when its turn comes, or it is the oldest one of a full queue. -/
def Accounted (s : State) (a : Action) : Prop :=
  ∀ t, step s a = some t → Joins s a t ∧ ∀ x ∈ line s, x ∉ line t →
    x ∈ t.sent ∨ (s.turn = some x ∧ s.enabled = false) ∨ PushedOut s x

theorem accounted_of_not_forgets (hs : Inv s) (h : forgets s a = none) : Accounted s a := by
  intro t ht
  refine ⟨joins_step ht, fun x hx hout => ?_⟩
  cases moved_step hs.room ht with
  | kept hline => exact absurd (hline ▸ hx) hout
  | accepted rest z hrest _ hpushed _ hline =>
    refine .inr (.inr (hpushed x hx ?_))
    intro hmem
    exact hout (hline ▸ List.mem_append_left _ hmem)
  | sent z hturn hline hsent =>
    rw [hline] at hx
    rcases List.mem_cons.mp hx with rfl | hx
    · exact .inl (by simp [hsent])
    · exact absurd hx hout
  | consumed z hturn henabled hline =>
    rw [hline] at hx
    rcases List.mem_cons.mp hx with rfl | hx
    · exact .inr (.inl ⟨hturn, henabled⟩)
    · exact absurd hx hout
  | pushedOut _ _ _ _ _ hpushed => exact .inr (.inr (hpushed x hx hout))
  | forgotten z hforgets =>
    rw [h] at hforgets
    cases hforgets

theorem forgets_eq_some (h : forgets s a = some x) : ∃ online request,
    a = .task online true request ∧ s.task.pc = .requeueing (.scrobble x) := by
  unfold forgets at h
  split at h
  next online timedOut request =>
    split at h
    next y hpc =>
      cases timedOut with
      | false => cases h
      | true =>
        cases h
        exact ⟨online, request, rfl, hpc⟩
    next => cases h
  next => cases h

theorem line_of_requeueing (hpc : s.task.pc = .requeueing (.scrobble x)) : line s =
    x :: (s.task.queues.queue .scrobble ++ s.task.dropped.toList).flatMap Payload.scrobbles := by
  simp [line, payloads, hpc, inHand, Payload.scrobbles]

theorem not_accounted_of_forgets (hs : Inv s) (h : forgets s a = some x) : ¬ Accounted s a := by
  intro hall
  obtain ⟨online, request, rfl, hpc⟩ := forgets_eq_some h
  have hturn : s.turn = none := by simp [State.turn, hpc]
  have hline := line_of_requeueing hpc
  have hnodup := hs.order.nodup
  rw [hline, List.nodup_cons] at hnodup
  have hmem : x ∈ line s := by simp [hline]
  have hstep : step s (.task online true request) = some { s with task := s.task.goto .top } := by
    simp [step, taskTurn, taskStep, hpc, hturn]
  rcases (hall _ hstep).2 x hmem (by exact hnodup.1) with hsent | ⟨hsome, -⟩ | ⟨-, hhead⟩
  · exact hs.order.not_served hmem hsent
  · rw [hturn] at hsome
    cases hsome
  · -- it would be in the queue as well
    refine hnodup.1 (List.mem_flatMap.mpr ⟨.scrobble x, ?_, List.mem_singleton_self x⟩)
    exact List.mem_append_left _ (List.mem_of_mem_head? hhead)

theorem accounted_iff (hs : Inv s) : Accounted s a ↔ forgets s a = none := by
  refine ⟨fun hall => ?_, accounted_of_not_forgets hs⟩
  cases hforgets : forgets s a with
  | none => rfl
  | some x => exact absurd hall (not_accounted_of_forgets hs hforgets)

/-! ## While the device is online -/

/-- The metadata of a scrobble is there. -/
def Resolves (h : Store) (x : Scrobble) : Prop :=
  ∃ names, resolveTrackMetadata h x.albumChecksum x.trackIndex = .ok names

/-- The device is online and requests succeed, scrobbling stays enabled, no full queue
gives up a scrobble and none is forgotten, and what the history says of the scrobbles
`xs` does not change. -/
def Favourable (h : Store) (xs : List Scrobble) (s : State) : Action → Prop
  | .task online timedOut request => online = true ∧ request = .ok ∧
      ∀ p, s.task.pc = .requeueing p → timedOut = false ∧
        (s.task.queues.queue .scrobble).length < queueLength .scrobble
  | .sendScrobble _ _ => (s.task.queues.queue .scrobble).length < queueLength .scrobble
  | .setScrobblingEnabled enabled => enabled = true
  | .changeHistory history => ∀ x ∈ xs, Resolves history x ↔ Resolves h x
  | .sendDropped | .enqueueCommand => True

variable {h : Store} {xs : List Scrobble}

/-- What a favourable step keeps. -/
structure Settled (h : Store) (xs : List Scrobble) (s : State) : Prop where
  inv : Inv s
  enabled : s.enabled = true
  same : ∀ x ∈ xs, Resolves s.history x ↔ Resolves h x

theorem settled_step (hs : Settled h xs s) (hf : Favourable h xs s a) (ht : step s a = some t) :
    Settled h xs t := by
  have hinv := inv_step hs.inv ht
  cases a with
  | setScrobblingEnabled enabled =>
    cases ht
    exact ⟨hinv, hf, hs.same⟩
  | changeHistory history =>
    cases ht
    exact ⟨hinv, hs.enabled, hf⟩
  | enqueueCommand =>
    cases ht
    exact ⟨hinv, hs.enabled, hs.same⟩
  | task online timedOut request =>
    simp only [step, taskTurn] at ht
    obtain ⟨task, -, rfl⟩ := Option.map_eq_some_iff.mp ht
    exact ⟨hinv, hs.enabled, hs.same⟩
  | sendDropped =>
    simp only [step] at ht
    obtain ⟨task, -, rfl⟩ := Option.map_eq_some_iff.mp ht
    exact ⟨hinv, hs.enabled, hs.same⟩
  | sendScrobble albumChecksum trackIndex =>
    simp only [step, hs.enabled, Bool.not_true, Bool.false_eq_true, if_false] at ht
    obtain ⟨task, -, rfl⟩ := Option.map_eq_some_iff.mp ht
    exact ⟨hinv, rfl, hs.same⟩

/-- In a favourable step the service task tries a scrobble, which is sent or stays where
it is, or the line grows at its end. -/
inductive Progress (s t : State) : Prop
  | grows (htried : t.tried = s.tried) (hsent : t.sent = s.sent) (hline : line s <+: line t)
  | sends (x : Scrobble) (htried : t.tried = s.tried ++ [x]) (hresolves : Resolves s.history x)
      (hsent : t.sent = s.sent ++ [x]) (hline : line s = x :: line t)
  | stays (x : Scrobble) (htried : t.tried = s.tried ++ [x])
      (hresolves : ¬ Resolves s.history x) (hsent : t.sent = s.sent) (hline : line t = line s)
      (hhead : (line s).head? = some x)

/-- A turn with a scrobble to try. -/
theorem progress_turn (henabled : s.enabled = true) (hturn : s.turn = some x) {timedOut : Bool}
    (ht : taskTurn s true timedOut .ok = some t) : Progress s t := by
  have hpc := turn_eq_some.mp hturn
  by_cases hresolves : Resolves s.history x
  · obtain ⟨names, hnames⟩ := hresolves
    have houtcome : processScrobblePayload s true .ok x = .requested .ok := by
      simp [processScrobblePayload, henabled, hnames]
    simp only [taskTurn, hturn, Option.map_some, houtcome, taskStep, hpc, Option.any_some,
      Outcome.err, Option.some.injEq] at ht
    subst ht
    refine .sends x rfl ⟨names, hnames⟩ (by simp) ?_
    simp [line, payloads, hpc, inHand, ServiceTask.State.goto, Payload.scrobbles]
  · have houtcome : ∃ err, err ≠ .ok ∧ processScrobblePayload s true .ok x = .failed err := by
      cases hnames : resolveTrackMetadata s.history x.albumChecksum x.trackIndex with
      | ok names => exact absurd ⟨names, hnames⟩ hresolves
      | error err =>
        refine ⟨err, ?_, by simp [processScrobblePayload, henabled, hnames]⟩
        intro heq
        exact resolveTrackMetadata_ne_ok _ _ _ (heq ▸ hnames)
    obtain ⟨err, hne, houtcome⟩ := houtcome
    simp only [taskTurn, hturn, Option.map_some, houtcome, taskStep, hpc, Option.any_some,
      Outcome.err, Option.some.injEq] at ht
    subst ht
    refine .stays x rfl hresolves (by simp) ?_ ?_
    · simp [line, payloads, hpc, inHand, ServiceTask.State.goto, hne]
    · simp [line, payloads, hpc, inHand, Payload.scrobbles]

/-- A step that tries no scrobble, and makes no room in a full queue. -/
theorem progress_of_moved (hm : Moved s a t) (htried : t.tried = s.tried)
    (hsent : t.sent = s.sent) (henabled : s.enabled = true) (hforgets : forgets s a = none)
    (hroom : t.accepted = s.accepted ∨
      (s.task.queues.queue .scrobble).length < queueLength .scrobble)
    (hback : ∀ p online timedOut request, s.task.pc = .requeueing p →
      a = .task online timedOut request →
      (s.task.queues.queue .scrobble).length < queueLength .scrobble) : Progress s t := by
  cases hm with
  | kept hline => exact .grows htried hsent (hline ▸ List.prefix_rfl)
  | accepted rest z _ hrest _ _ hline _ haccepted =>
    have hlt := hroom.resolve_left (by omega)
    rw [hrest hlt] at hline
    exact .grows htried hsent (hline ▸ List.prefix_append _ _)
  | sent z _ _ hsent' =>
    rw [hsent] at hsent'
    simp at hsent'
  | consumed z _ hdisabled =>
    rw [henabled] at hdisabled
    cases hdisabled
  | pushedOut p hpc ha hfull =>
    obtain ⟨online, timedOut, request, ha⟩ := ha
    exact absurd (hback p online timedOut request hpc ha) (Nat.not_lt.mpr hfull)
  | forgotten z hforgets' =>
    rw [hforgets] at hforgets'
    cases hforgets'

theorem progress_step (hs : Settled h xs s) (hf : Favourable h xs s a) (ht : step s a = some t) :
    Progress s t := by
  have hm := moved_step hs.inv.room ht
  cases a with
  | task online timedOut request =>
    obtain ⟨rfl, rfl, hback⟩ := hf
    cases hturn : s.turn with
    | some x => exact progress_turn hs.enabled hturn ht
    | none =>
      have hforgets : forgets s (.task true timedOut .ok) = none := by
        cases hsome : forgets s (.task true timedOut .ok) with
        | none => rfl
        | some x =>
          obtain ⟨_, _, heq, hpc⟩ := forgets_eq_some hsome
          cases heq
          exact absurd (hback _ hpc).1 (by decide)
      have hback' : ∀ p online timedOut' request, s.task.pc = .requeueing p →
          Action.task true timedOut .ok = .task online timedOut' request →
          (s.task.queues.queue .scrobble).length < queueLength .scrobble :=
        fun p _ _ _ hpc _ => (hback p hpc).2
      simp only [step, taskTurn] at ht
      obtain ⟨task, -, rfl⟩ := Option.map_eq_some_iff.mp ht
      exact progress_of_moved hm (by simp [hturn]) (by simp [hturn]) hs.enabled hforgets
        (.inl rfl) hback'
  | sendScrobble albumChecksum trackIndex =>
    have hroom : (s.task.queues.queue .scrobble).length < queueLength .scrobble := hf
    simp only [step, hs.enabled, Bool.not_true, Bool.false_eq_true, if_false] at ht
    obtain ⟨task, -, rfl⟩ := Option.map_eq_some_iff.mp ht
    exact progress_of_moved hm rfl rfl hs.enabled rfl (.inr hroom) fun _ _ _ _ _ ha => by cases ha
  | sendDropped =>
    simp only [step] at ht
    obtain ⟨task, -, rfl⟩ := Option.map_eq_some_iff.mp ht
    exact progress_of_moved hm rfl rfl hs.enabled rfl (.inl rfl) fun _ _ _ _ _ ha => by cases ha
  | enqueueCommand | setScrobblingEnabled | changeHistory =>
    cases ht
    exact progress_of_moved hm rfl rfl hs.enabled rfl (.inl rfl) fun _ _ _ _ _ ha => by cases ha

/-! ## Sent or blocked -/

theorem Progress.sent_mono (hp : Progress s t) : s.sent ⊆ t.sent := by
  cases hp with
  | grows _ hsent => exact hsent ▸ List.Subset.refl _
  | sends x _ _ hsent => exact hsent ▸ List.subset_append_left _ _
  | stays x _ _ hsent => exact hsent ▸ List.Subset.refl _

theorem sent_mono_run {bs : List Action} (hs : Settled h xs s)
    (hf : Along step (Favourable h xs) s bs) (hrun : run step s bs = some t) :
    s.sent ⊆ t.sent := by
  induction bs generalizing s with
  | nil =>
    cases hrun
    exact List.Subset.refl _
  | cons b bs ih =>
    rw [run_cons] at hrun
    obtain ⟨u, hu, hrun⟩ := Option.bind_eq_some_iff.mp hrun
    have hstep := (progress_step hs hf.1 hu).sent_mono
    exact List.Subset.trans hstep (ih (settled_step hs hf.1 hu) (hf.2 u hu) hrun)

/-- Where the scrobbles ahead resolve, every turn brings a scrobble forward. -/
theorem sent_of_resolves {bs : List Action} {ahead behind : List Scrobble}
    (hs : Settled h xs s) (hf : Along step (Favourable h xs) s bs)
    (hrun : run step s bs = some t) (hline : line s = ahead ++ y :: behind)
    (hsub : ∀ x ∈ ahead ++ [y], x ∈ xs ∧ Resolves h x)
    (hturns : s.tried.length + ahead.length < t.tried.length) : y ∈ t.sent := by
  induction bs generalizing s ahead behind with
  | nil =>
    cases hrun
    omega
  | cons b bs ih =>
    rw [run_cons] at hrun
    obtain ⟨u, hu, hrun⟩ := Option.bind_eq_some_iff.mp hrun
    have hu' := settled_step hs hf.1 hu
    cases progress_step hs hf.1 hu with
    | grows htried _ hgrows =>
      obtain ⟨more, hmore⟩ := hgrows
      refine @ih u ahead (behind ++ more) hu' (hf.2 u hu) hrun ?_ hsub (htried ▸ hturns)
      rw [← hmore, hline, List.append_assoc, List.cons_append]
    | sends x htried _ hsent hnext =>
      rw [hline] at hnext
      cases ahead with
      | nil =>
        cases hnext
        exact sent_mono_run hu' (hf.2 u hu) hrun (by simp [hsent])
      | cons z ahead =>
        have hrest : ahead ++ y :: behind = line u := (List.cons.inj hnext).2
        refine @ih u ahead behind hu' (hf.2 u hu) hrun hrest.symm ?_ ?_
        · exact fun w hw => hsub w (List.mem_cons_of_mem _ hw)
        · rw [htried, List.length_append, List.length_singleton]
          rw [List.length_cons] at hturns
          omega
    | stays x _ hresolves _ _ hhead =>
      -- the head of the line is among those that resolve
      have hx : x ∈ ahead ++ [y] := by
        rw [hline] at hhead
        cases ahead with
        | nil => cases hhead; simp
        | cons z ahead => cases hhead; simp
      obtain ⟨hmem, hyes⟩ := hsub x hx
      exact absurd ((hs.same x hmem).mpr hyes) hresolves

/-- A scrobble that does not resolve stays in the line. -/
theorem mem_line_of_not_resolves {bs : List Action} (hs : Settled h xs s)
    (hf : Along step (Favourable h xs) s bs) (hrun : run step s bs = some t)
    (hx : x ∈ xs) (hno : ¬ Resolves h x) (hline : x ∈ line s) : x ∈ line t := by
  induction bs generalizing s with
  | nil =>
    cases hrun
    exact hline
  | cons b bs ih =>
    rw [run_cons] at hrun
    obtain ⟨u, hu, hrun⟩ := Option.bind_eq_some_iff.mp hrun
    refine ih (settled_step hs hf.1 hu) (hf.2 u hu) hrun ?_
    cases progress_step hs hf.1 hu with
    | grows _ _ hgrows => exact hgrows.subset hline
    | stays _ _ _ _ hsame => exact hsame ▸ hline
    | sends z _ hresolves _ hnext =>
      rw [hnext] at hline
      rcases List.mem_cons.mp hline with rfl | hline
      · exact absurd ((hs.same x hx).mp hresolves) hno
      · exact hline

theorem settled_run {bs : List Action} (hs : Settled h xs s)
    (hf : Along step (Favourable h xs) s bs) (hrun : run step s bs = some t) : Settled h xs t :=
  run_invariant (fun _ _ _ hs hf ht => settled_step hs hf ht) hs hf hrun

/-- Once as many scrobbles have been tried as there are up to it, a scrobble is sent
exactly if it and all the scrobbles ahead of it resolve. -/
theorem sent_iff {bs : List Action} {ahead behind : List Scrobble} (hs : Inv s)
    (henabled : s.enabled = true) (hline : line s = ahead ++ y :: behind)
    (hf : Along step (Favourable s.history (ahead ++ [y])) s bs) (hrun : run step s bs = some t)
    (hturns : s.tried.length + ahead.length < t.tried.length) :
    y ∈ t.sent ↔ ∀ x ∈ ahead ++ [y], Resolves s.history x := by
  have hsettled : Settled s.history (ahead ++ [y]) s := ⟨hs, henabled, fun _ _ => Iff.rfl⟩
  constructor
  · intro hsent x hx
    by_contra hno
    have hmem : x ∈ line s := by
      rw [hline]
      simp only [List.mem_append, List.mem_cons] at hx ⊢
      tauto
    have hle : x.number ≤ y.number := by
      have hpairs := hs.order.line_pairwise
      rw [hline, List.pairwise_append] at hpairs
      rcases List.mem_append.mp hx with hx | hx
      · exact Nat.le_of_lt (hpairs.2.2 x hx y List.mem_cons_self)
      · rw [List.mem_singleton.mp hx]
    have hblocked := mem_line_of_not_resolves hsettled hf hrun hx hno hmem
    exact (settled_run hsettled hf hrun).inv.order.not_served_of_le hblocked hle hsent
  · intro hall
    exact sent_of_resolves hsettled hf hrun hline (fun x hx => ⟨hx, hall x hx⟩) hturns

/-- Scrobbles are sent in the order they were accepted. One that is accepted joins the line,
and gets lost for another reason than a full queue or disabled scrobbling exactly when the
mutex cannot be had to put it back. And while the device stays online a scrobble gets its
turn and is sent exactly if the metadata of it and of all those ahead of it is there. -/
theorem scrobbles_delivered (h : Store) :
    (∀ as s, run step (init h) as = some s →
      s.sent.Pairwise fun x y => x.number < y.number) ∧
    (∀ as, Along step Accounted (init h) as ↔
      Along step (fun s a => forgets s a = none) (init h) as) ∧
    ∀ as s bs t ahead y behind, run step (init h) as = some s →
      line s = ahead ++ y :: behind → s.enabled = true →
      Along step (Favourable s.history (ahead ++ [y])) s bs → run step s bs = some t →
      s.tried.length + ahead.length < t.tried.length →
      (y ∈ t.sent ↔ ∀ x ∈ ahead ++ [y], Resolves s.history x) := by
  refine ⟨?_, ?_, ?_⟩
  · intro as s hrun
    exact (inv_run hrun).order.served_pairwise
  · intro as
    exact along_congr (fun _ _ _ hs _ ht => inv_step hs ht) (fun _ _ hs => accounted_iff hs)
      (inv_init h)
  · intro as s bs t ahead y behind hrun hline henabled hf hbs hturns
    exact sent_iff (inv_run hrun) henabled hline hf hbs hturns

/-! ## A scrobble that is sent, and one that blocks the queue -/

/-- A history with one track, the first of the album of checksum 7. -/
def oneTrackHistory : Store where
  nextSequence := 1
  albumCount := 0
  trackCount := 1
  albums := SlotTable.empty
  tracks := SlotTable.ofList [⟨7, 0, 0, 1, 1, 1, .ofBytes (78 :: List.replicate 127 0 ++ [65])⟩]
  dirty := false
  wrapped := false

theorem resolves_known : resolveTrackMetadata oneTrackHistory 7 0 = .ok ([65], [78]) := by
  decide +kernel

theorem resolves_unknown : resolveTrackMetadata oneTrackHistory 9 0 = .error .notFound := by
  decide +kernel

/-- A turn of the service task with a scrobble that is sent. -/
def sendingTurn : List Action := List.replicate 5 (.task true false .ok)

theorem favourable_sendingTurn (ht : run step (init oneTrackHistory) [.sendScrobble 7 0] = some s) :
    Along step (Favourable s.history [⟨7, 0, 0⟩]) s sendingTurn ∧
      ∃ t, run step s sendingTurn = some t ∧ t.tried.length = 1 := by
  cases ht
  constructor
  · simp [sendingTurn, Along, Favourable, step, taskTurn, State.turn, taskStep,
      ServiceTask.State.goto, select, receive, ServiceTask.State.mutexFree, init,
      ServiceTask.initState, queueLength, QueueSet.empty, processScrobblePayload, Outcome.err]
  · simp [sendingTurn, run, step, taskTurn, State.turn, taskStep, ServiceTask.State.goto, select,
      receive, ServiceTask.State.mutexFree, init, ServiceTask.initState, QueueSet.empty,
      processScrobblePayload, resolves_known, Outcome.err]

/-- A known scrobble with none ahead of it is sent at its turn. -/
theorem scrobbles_delivered_known : ∃ t,
    run step (init oneTrackHistory) (.sendScrobble 7 0 :: sendingTurn) = some t ∧
      ⟨7, 0, 0⟩ ∈ t.sent := by
  obtain ⟨s, hs⟩ : ∃ s, run step (init oneTrackHistory) [.sendScrobble 7 0] = some s := ⟨_, rfl⟩
  obtain ⟨hf, t, ht, hcount⟩ := favourable_sendingTurn hs
  have hstart : line s = [⟨7, 0, 0⟩] ∧ s.enabled = true ∧ s.history = oneTrackHistory ∧
      s.tried = [] := by
    cases hs
    exact ⟨rfl, rfl, rfl, rfl⟩
  obtain ⟨hline, henabled, hhistory, htried⟩ := hstart
  refine ⟨t, ?_, ?_⟩
  · rw [← List.singleton_append, run_append, hs]
    exact ht
  · refine ((scrobbles_delivered oneTrackHistory).2.2 _ s sendingTurn t [] _ [] hs hline henabled
      hf ht (by simp [htried, hcount])).mpr ?_
    intro x hx
    rw [List.mem_singleton.mp hx, hhistory]
    exact ⟨_, resolves_known⟩

/-- A turn of the service task with a scrobble that fails. -/
def failingTurn : List Action := List.replicate 6 (.task true false .ok)

/-- An unknown scrobble at the head of the queue, with a known one behind it. -/
structure Blocked (s : State) : Prop where
  pc : s.task.pc = .top
  dropped : s.task.dropped = none
  queue : s.task.queues.queue .scrobble = [.scrobble ⟨9, 0, 0⟩, .scrobble ⟨7, 0, 1⟩]
  handles : s.task.queues.handles = [.scrobble, .scrobble]
  enabled : s.enabled = true
  history : s.history = oneTrackHistory
  sent : s.sent = []

theorem blocked_turn (hs : Blocked s) : ∃ t, run step s failingTurn = some t ∧ Blocked t ∧
    t.tried.length = s.tried.length + 1 := by
  obtain ⟨task, enabled, history, accepted, tried, sent⟩ := s
  obtain ⟨⟨queue, handles⟩, pc, dropped⟩ := task
  obtain ⟨hpc, hdropped, hqueue, hhandles, henabled, hhistory, hsent⟩ := hs
  dsimp only at hpc hdropped hqueue hhandles henabled hhistory hsent
  subst hpc hdropped hhandles henabled hhistory hsent
  have hafter : Blocked ⟨⟨⟨Function.update queue .scrobble
      [.scrobble ⟨9, 0, 0⟩, .scrobble ⟨7, 0, 1⟩], [.scrobble, .scrobble]⟩, .top, none⟩, true,
      oneTrackHistory, accepted, tried ++ [⟨9, 0, 0⟩], []⟩ :=
    ⟨rfl, rfl, by simp, rfl, rfl, rfl, rfl⟩
  simpa [failingTurn, run, step, taskTurn, State.turn, taskStep, ServiceTask.State.goto, select,
    receive, hqueue, ServiceTask.State.mutexFree, sendToFront, queueLength,
    processScrobblePayload, resolves_unknown, Outcome.err] using hafter

theorem blocked_turns (hs : Blocked s) (n : Nat) :
    ∃ t, run step s (List.replicate n failingTurn).flatten = some t ∧ Blocked t ∧
      t.tried.length = s.tried.length + n := by
  induction n generalizing s with
  | zero => exact ⟨s, rfl, hs, rfl⟩
  | succ n ih =>
    obtain ⟨u, hu, hblocked, hone⟩ := blocked_turn hs
    obtain ⟨t, ht, hblocked, hmore⟩ := ih hblocked
    refine ⟨t, ?_, hblocked, by omega⟩
    rw [List.replicate_succ, List.flatten_cons, run_append, hu]
    exact ht

/-- An unknown scrobble and a known one are accepted. -/
def acceptTwo : List Action := [.sendScrobble 9 0, .sendScrobble 7 0]

theorem blocked_acceptTwo : ∃ s, run step (init oneTrackHistory) acceptTwo = some s ∧
    Blocked s ∧ s.tried = [] := by
  refine ⟨_, rfl, ⟨rfl, rfl, ?_, rfl, rfl, rfl, rfl⟩, rfl⟩
  rfl

/-- However often the service task, online and with requests that succeed, tries the
unknown scrobble, the known one behind it is not sent. -/
theorem known_scrobble_blocked : Resolves oneTrackHistory ⟨7, 0, 1⟩ ∧ ∀ n, ∃ t,
    run step (init oneTrackHistory) (acceptTwo ++ (List.replicate n failingTurn).flatten) =
      some t ∧ t.tried.length = n ∧ t.sent = [] := by
  refine ⟨⟨_, resolves_known⟩, fun n => ?_⟩
  obtain ⟨s, hs, hblocked, htried⟩ := blocked_acceptTwo
  obtain ⟨t, ht, hblocked, hcount⟩ := blocked_turns hblocked n
  refine ⟨t, ?_, by simpa [htried] using hcount, hblocked.sent⟩
  rw [run_append, hs]
  exact ht

end Jukeboy.Lastfm.Delivery
