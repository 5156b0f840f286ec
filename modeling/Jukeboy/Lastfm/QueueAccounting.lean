import Jukeboy.Lastfm.ServiceTask

/-! # The handles of the Last.fm queue set

A command received offline and a dropped scrobble leave their handle behind, until
a select takes it and finds the queue empty. Where no selected scrobble is given
up, the handles of a queue are those of its messages and the ones left behind. A
select that is given up takes the handle of a message that stays queued. -/
namespace Jukeboy.Lastfm.QueueAccounting

open Jukeboy.Base.Runs Jukeboy.Base.QueueSet Jukeboy.Lastfm.ServiceTask

variable {α : Type} {s t : State α} {a : Action α} {io : TaskIo} {behind : Member → Nat}

/-! ## What a step does to the queues and the handles -/

/-- The queue whose handle the service task has taken and not followed up. -/
def pending : Pc α → Option Member
  | .selected member => some member
  | .receiving => some .scrobble
  | _ => none

/-- The service task gives a selected scrobble up: the internet is gone, or the
mutex cannot be had in time. -/
def givesUp (s : State α) : Action α → Bool
  | .task io =>
    match s.pc with
    | .selected .scrobble => !io.online
    | .receiving => io.timedOut
    | _ => false
  | _ => false

/-- The queue has room. -/
def hasRoom (s : State α) (member : Member) : Bool :=
  decide ((s.queues.queue member).length < queueLength member)

/-- The step sends a message to a queue that has room for it. -/
def sends (s : State α) : Action α → Bool
  | .enqueueCommand _ => hasRoom s .cmd
  | .sendScrobble _ => s.mutexFree && hasRoom s .scrobble
  | .sendDropped => s.dropped.isSome && hasRoom s .scrobble
  | .task io =>
    match s.pc with
    | .requeueing _ => !io.timedOut && s.mutexFree && hasRoom s .scrobble
    | .requeueDropped _ => hasRoom s .scrobble
    | _ => false

/-- The queue holds no message. -/
def isEmpty (s : State α) (member : Member) : Bool := (s.queues.queue member).isEmpty

/-- A handle that a step leaves behind, or one left behind that it takes. -/
inductive Stale where
  | none
  | leaves (member : Member)
  | takes (member : Member)

/-- A command received offline and a dropped scrobble leave their handle behind; a
select that finds the queue empty has taken such a handle. -/
def stale (s : State α) : Action α → Stale
  | .task io =>
    match s.pc with
    | .offline => if isEmpty s .cmd then .none else .leaves .cmd
    | .selected .cmd => if isEmpty s .cmd then .takes .cmd else .none
    | .receiving =>
      if !io.timedOut && s.mutexFree && isEmpty s .scrobble then .takes .scrobble else .none
    | .requeueing _ =>
      if !io.timedOut && s.mutexFree && !hasRoom s .scrobble then .leaves .scrobble else .none
    | _ => .none
  | .sendScrobble _ => if s.mutexFree && !hasRoom s .scrobble then .leaves .scrobble else .none
  | .enqueueCommand _ | .sendDropped => .none

/-- The handles left behind of each queue, one step later. -/
def leftBehind (s : State α) (a : Action α) (behind : Member → Nat) : Member → Nat :=
  match stale s a with
  | .none => behind
  | .leaves member => Function.update behind member (behind member + 1)
  | .takes member => Function.update behind member (behind member - 1)

/-- Every step is of one of these kinds. -/
inductive Move (s : State α) (a : Action α) : State α → Prop
  | stays (pc : Pc α) (dropped : Option α) (hpc : pending pc = pending s.pc)
      (hstale : stale s a = .none) : Move s a { s with pc := pc, dropped := dropped }
  | sent (member : Member) (queues : Queues Member α) (pc : Pc α) (dropped : Option α)
      (hsends : sends s a = true) (hroom : hasRoom s member = true)
      (h : Sent member s.queues queues) (hpc : pending pc = pending s.pc)
      (hstale : stale s a = .none) :
      Move s a { s with queues := queues, pc := pc, dropped := dropped }
  | receivedDirectly (member : Member) (queues : Queues Member α) (x : α) (pc : Pc α)
      (dropped : Option α) (h : receive member s.queues = some (x, queues))
      (hpc : pending pc = pending s.pc) (hstale : stale s a = .leaves member) :
      Move s a { s with queues := queues, pc := pc, dropped := dropped }
  | selected (member : Member) (queues : Queues Member α) (hpc : s.pc = .selecting)
      (h : select s.queues = some (member, queues)) (hstale : stale s a = .none) :
      Move s a { s with queues := queues, pc := .selected member }
  | received (member : Member) (queues : Queues Member α) (x : α) (pc : Pc α)
      (hpc : pending s.pc = some member) (hpc' : pending pc = none)
      (h : receive member s.queues = some (x, queues)) (hstale : stale s a = .none) :
      Move s a { s with queues := queues, pc := pc }
  | foundEmpty (member : Member) (hpc : pending s.pc = some member)
      (h : receive member s.queues = none) (hstale : stale s a = .takes member) :
      Move s a (s.goto .top)
  | gaveUp (hgives : givesUp s a = true) : Move s a (s.goto .top)

theorem hasRoom_of_send {member : Member} {x : α} {queues : Queues Member α}
    (h : send queueLength member x s.queues = some queues) : hasRoom s member = true := by
  unfold send at h
  split at h
  · next hroom => exact decide_eq_true hroom
  · cases h

theorem hasRoom_of_sendToFront {member : Member} {x : α} {queues : Queues Member α}
    (h : sendToFront queueLength member x s.queues = some queues) : hasRoom s member = true := by
  unfold sendToFront at h
  split at h
  · next hroom => exact decide_eq_true hroom
  · cases h

theorem not_hasRoom_of_send {member : Member} {x : α}
    (h : send queueLength member x s.queues = none) : hasRoom s member = false := by
  unfold send at h
  split at h
  · cases h
  · next hfull => exact decide_eq_false hfull

theorem not_hasRoom_of_sendToFront {member : Member} {x : α}
    (h : sendToFront queueLength member x s.queues = none) : hasRoom s member = false := by
  unfold sendToFront at h
  split at h
  · cases h
  · next hfull => exact decide_eq_false hfull

theorem isEmpty_of_receive {member : Member} {x : α} {queues : Queues Member α}
    (h : receive member s.queues = some (x, queues)) : isEmpty s member = false := by
  unfold receive at h
  split at h
  · cases h
  · next hqueue => rw [isEmpty, hqueue, List.isEmpty_cons]

theorem isEmpty_of_receive_none {member : Member} (h : receive member s.queues = none) :
    isEmpty s member = true := by
  rw [isEmpty, List.isEmpty_iff_length_eq_zero, receive_eq_none h]

/-- A queue that is full is not empty. -/
theorem not_full_of_receive_none {member : Member} (h : receive member s.queues = none)
    (hfull : hasRoom s member = false) : False := by
  have hlength := of_decide_eq_false hfull
  rw [receive_eq_none h] at hlength
  cases member <;> exact hlength (by decide)

theorem move_task (h : taskStep io s = some t) : Move s (.task io) t := by
  unfold taskStep at h
  split at h
  · next hpc =>
    cases h
    refine .stays _ s.dropped ?_ (by rw [stale, hpc])
    rw [hpc]
    cases io.online <;> rfl
  · next hpc =>
    split at h
    · next hreceive =>
      split at h
      · cases h
        refine .stays _ s.dropped (by rw [hpc]; rfl) ?_
        simp [stale, hpc, isEmpty_of_receive_none hreceive]
      · cases h
    · next payload queues hreceive =>
      cases h
      refine .receivedDirectly .cmd queues payload _ s.dropped hreceive (by rw [hpc]; rfl) ?_
      simp [stale, hpc, isEmpty_of_receive hreceive]
  · next hpc =>
    split at h
    · cases h
    · next member queues hselect =>
      cases h
      exact .selected member queues hpc hselect (by rw [stale, hpc])
  · next hpc =>
    split at h
    · next hreceive =>
      cases h
      refine .foundEmpty .cmd (by rw [hpc]; rfl) hreceive ?_
      simp [stale, hpc, isEmpty_of_receive_none hreceive]
    · next payload queues hreceive =>
      cases h
      refine .received .cmd queues payload _ (by rw [hpc]; rfl) rfl hreceive ?_
      simp [stale, hpc, isEmpty_of_receive hreceive]
  · next hpc =>
    split at h
    · cases h
      exact .stays _ s.dropped (by rw [hpc]; rfl) (by rw [stale, hpc])
    · next honline =>
      cases h
      refine .gaveUp ?_
      rw [givesUp, hpc]
      simpa using honline
  · next hpc =>
    split at h
    · next htimedOut =>
      cases h
      refine .gaveUp ?_
      rw [givesUp, hpc]
      exact htimedOut
    next htimedOut =>
    split at h
    · cases h
    next hmutex =>
    split at h
    · next hreceive =>
      cases h
      refine .foundEmpty .scrobble (by rw [hpc]; rfl) hreceive ?_
      simpa [stale, hpc, isEmpty_of_receive_none hreceive, htimedOut] using hmutex
    · next payload queues hreceive =>
      cases h
      refine .received .scrobble queues payload _ (by rw [hpc]; rfl) rfl hreceive ?_
      simp [stale, hpc, isEmpty_of_receive hreceive]
  · next hpc =>
    cases h
    exact .stays _ s.dropped (by rw [hpc]; rfl) (by rw [stale, hpc])
  · next payload hpc =>
    cases h
    refine .stays _ s.dropped ?_ (by rw [stale, hpc])
    rw [hpc]
    cases io.failed <;> rfl
  · next payload hpc =>
    split at h
    · next htimedOut =>
      cases h
      refine .stays _ s.dropped (by rw [hpc]; rfl) ?_
      simp [stale, hpc, htimedOut]
    next htimedOut =>
    split at h
    · cases h
    next hmutex =>
    split at h
    · next queues hsend =>
      cases h
      have hroom := hasRoom_of_sendToFront hsend
      refine .sent .scrobble queues _ s.dropped ?_ hroom (sent_sendToFront hsend)
        (by rw [hpc]; rfl) ?_
      · rw [sends, hpc]
        simp only [Bool.and_eq_true, hroom, and_true]
        exact ⟨by simpa using htimedOut, by simpa using hmutex⟩
      · simp [stale, hpc, hroom]
    · next hsend =>
      have hfull := not_hasRoom_of_sendToFront hsend
      split at h
      · next hreceive => exact (not_full_of_receive_none hreceive hfull).elim
      · next dropped queues hreceive =>
        cases h
        refine .receivedDirectly .scrobble queues dropped _ s.dropped hreceive (by rw [hpc]; rfl) ?_
        simpa [stale, hpc, htimedOut, hfull] using hmutex
  · next payload hpc =>
    split at h
    · next queues hsend =>
      cases h
      refine .sent .scrobble queues _ s.dropped ?_ (hasRoom_of_sendToFront hsend)
        (sent_sendToFront hsend) (by rw [hpc]; rfl) (by rw [stale, hpc])
      rw [sends, hpc]
      exact hasRoom_of_sendToFront hsend
    · cases h
      exact .stays _ s.dropped (by rw [hpc]; rfl) (by rw [stale, hpc])

theorem move_step (h : step s a = some t) : Move s a t := by
  cases a with
  | task io => exact move_task h
  | enqueueCommand payload =>
    cases h
    unfold enqueueCommand
    split
    · next queues hsend =>
      have hroom := hasRoom_of_send hsend
      exact .sent .cmd queues s.pc s.dropped hroom hroom (sent_send hsend) rfl rfl
    · exact .stays s.pc s.dropped rfl rfl
  | sendScrobble payload =>
    simp only [step, sendScrobble] at h
    split at h
    · cases h
    next hmutex =>
    split at h
    · next queues hsend =>
      cases h
      have hroom := hasRoom_of_send hsend
      refine .sent .scrobble queues s.pc s.dropped ?_ hroom (sent_send hsend) rfl ?_
      · simp only [sends, hroom, Bool.and_true]
        simpa using hmutex
      · simp [stale, hroom]
    · next hsend =>
      have hfull := not_hasRoom_of_send hsend
      split at h
      · next hreceive => exact (not_full_of_receive_none hreceive hfull).elim
      · next dropped queues hreceive =>
        cases h
        refine .receivedDirectly .scrobble queues dropped s.pc (some payload) hreceive rfl ?_
        simpa [stale, hfull] using hmutex
  | sendDropped =>
    simp only [step, sendDropped] at h
    split at h
    · cases h
    next payload hdropped =>
    split at h
    · next queues hsend =>
      cases h
      refine .sent .scrobble queues s.pc none ?_ (hasRoom_of_send hsend) (sent_send hsend) rfl rfl
      simp only [sends, hasRoom_of_send hsend, hdropped, Option.isSome_some, Bool.and_true]
    · cases h
      exact .stays s.pc none rfl rfl

/-! ## The accounting law -/

/-- 1 for the queue whose handle is taken and not followed up. -/
def underWay (s : State α) (member : Member) : Nat := if pending s.pc = some member then 1 else 0

/-- **The accounting law**: the handles of a queue, with the one that is taken and not
followed up, are those of its messages and the ones left behind. -/
def Ledger (s : State α) (behind : Member → Nat) : Prop :=
  ∀ member, surplus s.queues member + underWay s member = behind member

theorem underWay_congr (hpc : pending t.pc = pending s.pc) (member : Member) :
    underWay t member = underWay s member := by
  unfold underWay
  rw [hpc]

/-- A select that finds its queue empty has taken a handle that was left behind. -/
theorem Ledger.pos_of_empty {member : Member} (hs : Ledger s behind)
    (hpc : pending s.pc = some member) (h : receive member s.queues = none) :
    0 < behind member := by
  have hledger := hs member
  simp only [surplus, receive_eq_none h, underWay, hpc, if_true] at hledger
  omega

/-- **What one step preserves**, unless it gives a scrobble up. -/
theorem ledger_move (h : Move s a t) (hs : Ledger s behind) (hkeeps : givesUp s a = false) :
    Ledger t (leftBehind s a behind) := by
  unfold leftBehind
  cases h with
  | stays pc dropped hpc hstale =>
    rw [hstale]
    intro j
    rw [underWay_congr hpc]
    exact hs j
  | sent member queues pc dropped hsends hroom h hpc hstale =>
    rw [hstale]
    intro j
    rw [underWay_congr hpc]
    dsimp only
    rw [h.surplus]
    exact hs j
  | receivedDirectly member queues x pc dropped h hpc hstale =>
    rw [hstale]
    intro j
    have hj := hs j
    have hsurplus := surplus_receive h j
    rw [underWay_congr hpc]
    simp only [Function.update_apply]
    split at hsurplus
    · next hj' =>
      rw [hj'] at hj hsurplus ⊢
      simp only [if_true]
      omega
    · next hj' =>
      simp only [hj', if_false]
      omega
  | selected member queues hpc h hstale =>
    rw [hstale]
    intro j
    have hj := hs j
    have hsurplus := surplus_select h j
    simp only [underWay, hpc, pending, reduceCtorEq, if_false] at hj
    simp only [underWay, pending, Option.some.injEq, eq_comm (a := member)]
    split at hsurplus
    · next hj' =>
      simp only [hj', if_true]
      rw [hj'] at hj hsurplus
      omega
    · next hj' =>
      simp only [hj', if_false]
      omega
  | received member queues x pc hpc hpc' h hstale =>
    rw [hstale]
    intro j
    have hj := hs j
    have hsurplus := surplus_receive h j
    simp only [underWay, hpc, Option.some.injEq, eq_comm (a := member)] at hj
    simp only [underWay, hpc', reduceCtorEq, if_false]
    split at hsurplus
    · next hj' =>
      rw [hj'] at hj hsurplus ⊢
      simp only [if_true] at hj
      omega
    · next hj' =>
      simp only [hj', if_false] at hj
      omega
  | foundEmpty member hpc h hstale =>
    rw [hstale]
    intro j
    have hj := hs j
    have hpos := hs.pos_of_empty hpc h
    simp only [underWay, hpc, Option.some.injEq] at hj
    simp only [State.goto, underWay, pending, Function.update_apply]
    by_cases hj' : j = member
    · subst hj'
      simp only [if_true, reduceCtorEq, if_false] at hj ⊢
      omega
    · simp only [hj', if_false, Ne.symm hj', reduceCtorEq] at hj ⊢
      omega
  | gaveUp hgives =>
    rw [hkeeps] at hgives
    cases hgives

theorem handles_length (l : List Member) : l.length = l.count .cmd + l.count .scrobble := by
  induction l with
  | nil => rfl
  | cons m rest ih =>
    rw [List.length_cons, ih]
    cases m
    all_goals
      simp only [List.count_cons_self, List.count_cons_of_ne, ne_eq, reduceCtorEq,
        not_false_eq_true]
      omega

/-- Both queues together. -/
def both (f : Member → Nat) : Nat := f .cmd + f .scrobble

/-- The number of handles in the set. -/
theorem Ledger.handles (hs : Ledger s behind) :
    s.queues.handles.length + both (underWay s) =
      both (fun member => (s.queues.queue member).length) + both behind := by
  have hcmd := hs .cmd
  have hscrobble := hs .scrobble
  unfold surplus at hcmd hscrobble
  rw [handles_length]
  simp only [both]
  omega

/-! ## When the set holds the handles it needs, and no more than it can -/

/-- The free places of a queue. -/
def free (s : State α) (member : Member) : Nat :=
  queueLength member - (s.queues.queue member).length

/-- **When no wake-up is lost and the set does not overflow**, beside the number of
handles left behind so far: no selected scrobble is given up, and where a message is
sent the handles left behind are fewer than the free places of the two queues, a
selected handle that is not followed up yet being one place more. -/
def Balanced (s : State α × (Member → Nat)) (a : Action α) : Prop :=
  givesUp s.1 a = false ∧
    (sends s.1 a = true → both s.2 < both (free s.1) + both (underWay s.1))

instance (s : State α × (Member → Nat)) (a : Action α) : Decidable (Balanced s a) :=
  inferInstanceAs (Decidable (_ ∧ _))

structure Inv (s : State α × (Member → Nat)) : Prop where
  ledger : Ledger s.1 s.2
  room : ∀ member, (s.1.queues.queue member).length ≤ queueLength member
  bounded : s.1.queues.handles.length ≤ setLength

/-- What a send leaves room for. -/
theorem Inv.handles_lt {s : State α × (Member → Nat)} (hs : Inv s)
    (h : both s.2 < both (free s.1) + both (underWay s.1)) :
    s.1.queues.handles.length < setLength := by
  have hhandles := hs.ledger.handles
  have hcmd := hs.room .cmd
  have hscrobble := hs.room .scrobble
  simp only [both, free, setLength] at h hhandles ⊢
  omega

theorem room_move (h : Move s a t)
    (hs : ∀ member, (s.queues.queue member).length ≤ queueLength member) (member : Member) :
    (t.queues.queue member).length ≤ queueLength member := by
  have hmember := hs member
  cases h with
  | stays pc dropped hpc hstale => exact hmember
  | sent j queues pc dropped hsends hroom h hpc hstale =>
    have hlt := of_decide_eq_true hroom
    dsimp only
    rw [h.length]
    split
    · next hj =>
      rw [hj]
      exact hlt
    · exact hmember
  | receivedDirectly j queues x pc dropped h hpc hstale =>
    have hlength := receive_length h member
    dsimp only
    omega
  | selected j queues hpc h hstale =>
    dsimp only
    rw [select_queue h]
    exact hmember
  | received j queues x pc hpc hpc' h hstale =>
    have hlength := receive_length h member
    dsimp only
    omega
  | foundEmpty j hpc h hstale => exact hmember
  | gaveUp hgives => exact hmember

/-- Only a send adds a handle. -/
theorem handles_move (h : Move s a t) :
    t.queues.handles.length ≤ s.queues.handles.length ∨
      sends s a = true ∧ t.queues.handles.length = s.queues.handles.length + 1 := by
  cases h with
  | stays pc dropped hpc hstale => exact .inl (Nat.le_refl _)
  | sent j queues pc dropped hsends hroom h hpc hstale => exact .inr ⟨hsends, h.handles_length⟩
  | receivedDirectly j queues x pc dropped h hpc hstale =>
    exact .inl (Nat.le_of_eq (congrArg List.length (receive_handles h)))
  | selected j queues hpc h hstale =>
    exact .inl (Nat.le_of_succ_le (Nat.le_of_eq (select_handles h).symm))
  | received j queues x pc hpc hpc' h hstale =>
    exact .inl (Nat.le_of_eq (congrArg List.length (receive_handles h)))
  | foundEmpty j hpc h hstale => exact .inl (Nat.le_refl _)
  | gaveUp hgives => exact .inl (Nat.le_refl _)

theorem inv_step {s t : State α × (Member → Nat)} (hs : Inv s) (hC : Balanced s a)
    (hstep : recorded step leftBehind s a = some t) : Inv t := by
  obtain ⟨hstep, hbehind⟩ := recorded_some hstep
  have hmove := move_step hstep
  have hledger := ledger_move hmove hs.ledger hC.1
  rw [← hbehind] at hledger
  refine ⟨hledger, room_move hmove hs.room, ?_⟩
  obtain hle | ⟨hsends, hsucc⟩ := handles_move hmove
  · exact Nat.le_trans hle hs.bounded
  · rw [hsucc]
    exact hs.handles_lt (hC.2 hsends)

/-- The queues were created, and no handle is left behind. -/
def initRecord : State α × (Member → Nat) := (initState, fun _ => 0)

theorem inv_init : Inv (initRecord : State α × (Member → Nat)) :=
  ⟨fun _ => rfl, fun _ => Nat.zero_le _, Nat.zero_le _⟩

/-- **No lost wake-up and no overflow** in every balanced run: whenever the
service task is in `xQueueSelectFromSet` the set holds at least as many handles
of each queue as the queue holds messages, and it never holds more handles than
its length. -/
theorem queue_set_balanced {as : List (Action α)}
    (hC : Along (recorded step leftBehind) Balanced initRecord as)
    (hrun : run step initState as = some s) :
    (s.pc = .selecting → ∀ member,
        (s.queues.queue member).length ≤ s.queues.handles.count member) ∧
      s.queues.handles.length ≤ setLength := by
  obtain ⟨behind, hrecord⟩ := run_recorded leftBehind hrun fun _ => 0
  have hinv : Inv (s, behind) :=
    run_invariant (fun _ _ _ hs hC h => inv_step hs hC h) inv_init hC hrecord
  refine ⟨fun hpc member => ?_, hinv.bounded⟩
  have hledger := hinv.ledger member
  simp only [surplus, underWay, hpc, pending, reduceCtorEq, if_false] at hledger
  omega

/-! ## Handles lost and handles left behind -/

/-- The internet is there, and nothing fails or times out. -/
def online : Action α := .task ⟨true, false, false⟩

/-- The internet is gone. -/
def offline : Action α := .task ⟨false, false, false⟩

/-- A scrobble is selected, fails, and is queued again. -/
def retried : List (Action Unit) :=
  [.sendScrobble (), online, online, online, online, .task ⟨true, false, true⟩, online, online]

/-- A scrobble is selected, and the internet is gone when the service task looks
again. -/
def givenUp : List (Action Unit) := [.sendScrobble (), online, online, offline, online]

theorem queue_set_balanced_retried :
    ∃ s, run step initState retried = some s ∧ s.queues.handles.length ≤ setLength ∧
      ∀ member, (s.queues.queue member).length ≤ s.queues.handles.count member := by
  have hchecked : ((run step initState retried).map fun s =>
      match s.pc with
      | .selecting => true
      | _ => false) = some true := by
    decide +kernel
  obtain ⟨s, hrun, hs⟩ := Option.map_eq_some_iff.mp hchecked
  have hpc : s.pc = .selecting := by
    split at hs
    · assumption
    · cases hs
  have hC : Along (recorded step leftBehind) Balanced initRecord retried := by decide +kernel
  obtain ⟨hcovered, hbounded⟩ := queue_set_balanced hC hrun
  exact ⟨s, hrun, hbounded, hcovered hpc⟩

/-- **A scrobble is given up when the internet goes and waits without a handle**
when the service task selects again. -/
theorem scrobble_without_handle :
    ¬ ∀ (α : Type) (as : List (Action α)) (s : State α), run step initState as = some s →
      (s.pc = .selecting → ∀ member,
          (s.queues.queue member).length ≤ s.queues.handles.count member) ∧
        s.queues.handles.length ≤ setLength := by
  intro h
  have hchecked : ((run step initState givenUp).map fun s =>
      (match s.pc with
        | .selecting => true
        | _ => false, (s.queues.queue .scrobble).length, s.queues.handles)) =
          some (true, 1, []) := by
    decide +kernel
  obtain ⟨s, hrun, hs⟩ := Option.map_eq_some_iff.mp hchecked
  simp only [Prod.mk.injEq] at hs
  obtain ⟨hselecting, hlength, hhandles⟩ := hs
  have hpc : s.pc = .selecting := by
    split at hselecting
    · assumption
    · cases hselecting
  have hcovered := (h Unit givenUp s hrun).1 hpc .scrobble
  rw [hlength, hhandles] at hcovered
  exact absurd hcovered (by decide)

/-- A command that comes in offline is received from its queue directly. -/
theorem offlineCommand_leaves_handle (hpc : s.pc = .top) (hqueue : s.queues.queue .cmd = [])
    (x : α) :
    ∃ t, run step s [.enqueueCommand x, offline, offline, offline] = some t ∧ t.pc = .top ∧
      t.queues.queue .cmd = [] ∧ t.queues.handles = s.queues.handles ++ [.cmd] := by
  have hsend : send queueLength .cmd x s.queues =
      some ⟨Function.update s.queues.queue .cmd [x], s.queues.handles ++ [.cmd]⟩ := by
    have hroom : ([] : List α).length < queueLength .cmd := Nat.zero_lt_succ 7
    rw [send, hqueue, if_pos hroom]
    rfl
  refine ⟨{ s with
    queues := ⟨Function.update (Function.update s.queues.queue .cmd [x]) .cmd [],
      s.queues.handles ++ [.cmd]⟩
    pc := .top }, ?_, rfl, ?_, rfl⟩
  · simp only [run_cons, run_nil, step, enqueueCommand, hsend, offline, taskStep, hpc, State.goto,
      receive, Function.update_self, Option.bind_some, Bool.false_eq_true,
      if_false]
  · dsimp only
    rw [Function.update_self]

/-- **Commands that come in offline fill the set**: each is handled, and each
leaves its handle, so that the set overflows after `setLength` of them. -/
theorem handles_pile_up (x : α) (n : Nat) :
    ∃ s : State α,
      run step initState (List.replicate n
        [Action.enqueueCommand x, offline, offline, offline]).flatten = some s ∧
      s.pc = .top ∧ s.queues.queue .cmd = [] ∧ s.queues.handles = List.replicate n .cmd := by
  induction n with
  | zero => exact ⟨initState, rfl, rfl, rfl, rfl⟩
  | succ n ih =>
    obtain ⟨s, hrun, hpc, hqueue, hhandles⟩ := ih
    obtain ⟨t, hstep, hpc', hqueue', hhandles'⟩ := offlineCommand_leaves_handle hpc hqueue x
    refine ⟨t, ?_, hpc', hqueue', ?_⟩
    · rw [List.replicate_succ', List.flatten_concat, run_append, hrun]
      exact hstep
    · rw [hhandles', hhandles, List.replicate_succ']

end Jukeboy.Lastfm.QueueAccounting
