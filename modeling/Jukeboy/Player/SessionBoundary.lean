import Jukeboy.Player.TrackCompletion

/-! # What a session may cause

A completion carries the generation of its session. It starts the next track
only where that generation is the active one and was never cancelled, and it is
there at most once: it moves from the start command to the decoder and from
there to the command queue. -/
namespace Jukeboy.Player.SessionBoundary

open Jukeboy.Base.Runs
open Jukeboy.Player.Track Jukeboy.Player.State Jukeboy.Player.Pipeline
open Jukeboy.Player.TrackCompletion
open Jukeboy.Player.Service hiding State Action step initState
open Jukeboy.Player.SeekRace (nextGeneration)
open Jukeboy.Player.StateInvariant (calmEnv)

variable {s t : State} {a : Action} {env : Env} {p q : Service} {generation : Nat}

/-! ## Automatic advances -/

/-- The generation whose completion the service task receives and follows with a
start. -/
def advanceOf (s : State) : Action → Option Nat
  | .service env =>
    match s.pc, s.cmdQueue with
    | .waiting, .trackComplete generation :: _ =>
      if (handle env s.service (.trackComplete generation)).2 = .done then none
      else some generation
    | _, _ => none
  | _ => none

/-- The generations that caused the automatic advances of a run, in order. -/
def advancesOf : State → List Action → List Nat
  | _, [] => []
  | s, a :: as =>
    (advanceOf s a).toList ++ match step s a with
      | some t => advancesOf t as
      | none => []

/-- The generation is not at its last number. -/
def NoWrap (s : State) (_ : Action) : Prop := s.service.activeGeneration + 1 < 2 ^ 32

instance : Decidable (NoWrap s a) := inferInstanceAs (Decidable (_ < _))

/-- What an advance says of the state it is taken in. -/
theorem advanceOf_some (h : advanceOf s a = some generation) :
    s.pc = .waiting ∧ (∃ rest, s.cmdQueue = .trackComplete generation :: rest) ∧
      generation = s.service.activeGeneration ∧ generation ≠ s.service.cancelledGeneration := by
  cases a with
  | service env =>
    simp only [advanceOf] at h
    split at h
    · next g rest hpc hqueue =>
      split at h
      · cases h
      · next hstarts =>
        obtain rfl := Option.some.inj h
        refine ⟨hpc, ⟨rest, hqueue⟩, ?_⟩
        by_contra hstale
        refine hstarts ?_
        rw [handle, StateInvariant.handleTrackComplete_stale env hstale]
    · cases h
  | timeout | post _ | reader _ | decoder _ | setMode _ _ => cases h

theorem nextGeneration_of_noWrap (h : NoWrap s a) :
    nextGeneration s.service.activeGeneration = s.service.activeGeneration + 1 := by
  unfold nextGeneration
  rw [Nat.mod_eq_of_lt h]
  exact if_neg (Nat.succ_ne_zero _)

/-! ## The generations -/

/-- The active generation, the cancelled one and the request to stop. -/
def generations (p : Service) := (p.activeGeneration, p.cancelledGeneration, p.stopRequested)

theorem generations_of_session (h : session q = session p) : generations q = generations p := by
  simp only [session, Prod.mk.injEq] at h
  obtain ⟨-, -, hactive, hcancelled, hstop⟩ := h
  simp only [generations, hactive, hcancelled, hstop]

/-- No handler touches the generations before its stop or its start. -/
theorem generations_handle (env : Env) (p : Service) (msg : Msg) :
    generations (handle env p msg).1 = generations p := by
  obtain ⟨_, _, _, _, _, _, _, _, _, -, h⟩ := handled_handle env p msg
  rw [h]
  rfl

theorem generations_afterStop (env : Env) (p : Service) (after : AfterStop) :
    generations (afterStop env p after).1 = generations p := by
  obtain ⟨_, _, _, _, _, _, _, _, _, _, -, h⟩ := concluded_afterStop env p after
  rw [h]
  rfl

/-! ## The way of a completion -/

/-- The generation whose start command is about to be sent. -/
def toSend (s : State) : Option Nat :=
  match s.pc with
  | .resetReader .start | .resetDecoder .start | .sendDecoder => some s.service.activeGeneration
  | _ => none

/-- How many completions of the generation are still to be received. -/
def pending (s : State) (generation : Nat) : Nat :=
  (toSend s).toList.count generation + s.decoderCmd.toList.count generation +
    (owes s.decoder).toList.count generation + s.cmdQueue.count (.trackComplete generation)

theorem pending_congr (hsend : toSend t = toSend s) (hcmd : t.decoderCmd = s.decoderCmd)
    (hdecoder : owes t.decoder = owes s.decoder) (hqueue : t.cmdQueue = s.cmdQueue) :
    pending t generation = pending s generation := by
  simp only [pending, hsend, hcmd, hdecoder, hqueue]

/-- A step that leaves the decoder and the queues alone and is no part of a start. -/
theorem pending_le (hsend : toSend t = none)
    (hrest : (t.decoderCmd, t.decoder, t.cmdQueue) = (s.decoderCmd, s.decoder, s.cmdQueue)) :
    pending t generation ≤ pending s generation := by
  simp only [Prod.mk.injEq] at hrest
  obtain ⟨hcmd, hdecoder, hqueue⟩ := hrest
  simp only [pending, hsend, hcmd, hdecoder, hqueue, Option.toList_none, List.count_nil]
  omega

theorem toSend_beside (h : Beside s t) : toSend t = toSend s := by
  have hsession := h.session
  simp only [session, Prod.mk.injEq] at hsession
  unfold toSend
  rw [h.pc, hsession.2.2.1]

theorem pending_decoder {l : DecoderLabel} (h : decoderStep s l = some t) (generation : Nat) :
    pending t generation ≤ pending s generation := by
  have hsend := toSend_beside (beside_decoder h)
  unfold pending
  rw [hsend]
  cases l with
  | receive =>
    simp only [decoderStep] at h
    split at h
    · next hidle hcmd =>
      cases h
      simp only [owes, hidle, hcmd, Option.toList_none, List.count_nil]
      omega
    · cases h
  | clearBit =>
    simp only [decoderStep] at h
    split at h
    · next hreceived =>
      cases h
      simp only [owes, hreceived, Nat.le_refl]
    · cases h
  | decoded cart chunk crcOk =>
    simp only [decoderStep] at h
    split at h
    · cases h
      exact Nat.le_refl _
    · cases h
  | finish =>
    simp only [decoderStep] at h
    split at h
    · next hrunning =>
      cases h
      simp only [owes, hrunning, Nat.le_refl]
    · cases h
  | complete =>
    simp only [decoderStep] at h
    split at h
    · next g endedLive hfinishing =>
      cases h
      rcases queueMsg_cases { s with decoder := .idle } (.trackComplete g) with
        ⟨-, heq⟩ | ⟨-, heq⟩
      · have hone : List.count (Msg.trackComplete generation) [.trackComplete g] =
            List.count generation [g] := by
          by_cases hg : g = generation
          · rw [hg, List.count_singleton_self, List.count_singleton_self]
          · rw [List.count_singleton, List.count_singleton, beq_eq_false_iff_ne.mpr hg]
            simp [hg]
        simp only [heq, owes, hfinishing, List.count_append, hone, Option.toList_none,
          Option.toList_some, List.count_nil]
        omega
      · simp only [heq, owes, hfinishing, Option.toList_none, List.count_nil]
        omega
    · cases h

/-- A step beside the service task brings up no completion. -/
theorem pending_beside (ha : a.byService = false) (h : step s a = some t) (generation : Nat) :
    pending t generation ≤ pending s generation := by
  have hsend := toSend_beside (beside_step ha h)
  cases a with
  | service _ | timeout => cases ha
  | post msg =>
    simp only [step] at h
    split at h
    · cases h
    · next hcomplete =>
      cases h
      rcases queueMsg_cases s msg with ⟨-, heq⟩ | ⟨-, heq⟩
      · rw [heq] at hsend ⊢
        have hne : msg ≠ .trackComplete generation := by
          rintro rfl
          exact hcomplete rfl
        simp only [pending, hsend, List.count_append, List.count_singleton,
          beq_eq_false_iff_ne.mpr hne, Bool.false_eq_true, if_false, Nat.add_zero, Nat.le_refl]
      · rw [heq]
  | setMode mode random =>
    cases h
    exact Nat.le_of_eq (pending_congr hsend rfl rfl rfl)
  | reader l =>
    cases l with
    | receive | clearBit | windowed _ _ _ | finish =>
      simp only [step, readerStep] at h
      split at h
      · cases h
        exact Nat.le_of_eq (pending_congr hsend rfl rfl rfl)
      · cases h
  | decoder l => exact pending_decoder h generation

/-- The completions the advance of a step takes. -/
def taken (s : State) (a : Action) (generation : Nat) : Nat :=
  (advanceOf s a).toList.count generation

theorem taken_of_not_waiting (hpc : s.pc ≠ .waiting) : taken s a generation = 0 := by
  unfold taken
  cases hadv : advanceOf s a with
  | none => rfl
  | some g => exact absurd (advanceOf_some hadv).1 hpc

theorem takes_nothing (hpc : s.pc ≠ .waiting) (h : pending t generation ≤ pending s generation) :
    taken s a generation + pending t generation ≤ pending s generation := by
  rwa [taken_of_not_waiting hpc, Nat.zero_add]

theorem toSend_next {p : Service} {rest : List Msg} (next : Next) :
    toSend { s with service := p, cmdQueue := rest, pc := Next.pc next } = none := by
  cases next <;> rfl

/-- A step of the service task takes what it advances by, and brings up a
completion only with a new generation. -/
theorem pending_service (h : ServiceMove env s t) :
    (t.service.activeGeneration = s.service.activeGeneration ∧
      ∀ g, taken s (.service env) g + pending t g ≤ pending s g) ∨
    (t.service.activeGeneration = nextGeneration s.service.activeGeneration ∧
      ∀ g, taken s (.service env) g = 0 ∧
        pending t g ≤ pending s g + [t.service.activeGeneration].count g) := by
  cases h with
  | handled msg rest hpc hqueue =>
    refine .inl ⟨(frame_handle env s.service msg).active, fun g => ?_⟩
    have hsend : toSend s = none := by rw [toSend, hpc]
    have htaken : taken s (.service env) g ≤ [msg].count (.trackComplete g) := by
      unfold taken
      cases hadv : advanceOf s (.service env) with
      | none => exact Nat.zero_le _
      | some g' =>
        obtain ⟨-, ⟨rest', hqueue'⟩, -⟩ := advanceOf_some hadv
        obtain ⟨rfl, -⟩ := List.cons.inj (hqueue.symm.trans hqueue')
        by_cases hg : g' = g
        · rw [hg, List.count_singleton_self]
          exact List.count_singleton_self.le
        · rw [Option.toList_some, List.count_singleton, beq_eq_false_iff_ne.mpr hg]
          exact Nat.zero_le _
    have hcount : s.cmdQueue.count (.trackComplete g) =
        [msg].count (.trackComplete g) + rest.count (.trackComplete g) := by
      rw [hqueue, ← List.count_append, List.singleton_append]
    simp only [pending, toSend_next, hsend, hcount, Option.toList_none, List.count_nil]
    omega
  | foundIdle _ hpc | requested _ hpc | waited _ hpc | waitedFailed hpc | checked _ _ hpc _ | decoderFull hpc | readerFull hpc
  | restoreChecked _ _ hpc _ =>
    exact .inl ⟨rfl, fun g => takes_nothing (by rw [hpc]; intro h; cases h) (pending_le rfl rfl)⟩
  | refused index chunk hpc =>
    have hne : s.pc ≠ .waiting := by
      rcases hpc with hpc | hpc | hpc | hpc
      all_goals
        rw [hpc]
        intro h
        cases h
    exact .inl ⟨rfl, fun g => takes_nothing hne (pending_le rfl rfl)⟩
  | wentOn after hpc =>
    have hactive := (frame_afterStop env s.service after).active
    refine .inl ⟨hactive, fun g => takes_nothing (by rw [hpc]; intro h; cases h)
      (pending_le ?_ rfl)⟩
    exact toSend_next _
  | readerReset for_ hpc =>
    have hsend : toSend { s with readerCmd := none, pc := .resetDecoder for_ } = toSend s := by
      unfold toSend
      rw [hpc]
      cases for_ <;> rfl
    exact .inl ⟨rfl, fun g => takes_nothing (by rw [hpc]; intro h; cases h)
      (Nat.le_of_eq (pending_congr hsend rfl rfl rfl))⟩
  | decoderReset for_ hpc =>
    refine .inl ⟨by cases for_ <;> rfl, fun g => takes_nothing (by rw [hpc]; intro h; cases h) ?_⟩
    have hsend : toSend ({ s with decoderCmd := none }.afterReset for_) = toSend s := by
      unfold toSend
      rw [hpc]
      cases for_ <;> rfl
    have hrest : ({ s with decoderCmd := none }.afterReset for_).decoderCmd = none ∧
        ({ s with decoderCmd := none }.afterReset for_).decoder = s.decoder ∧
        ({ s with decoderCmd := none }.afterReset for_).cmdQueue = s.cmdQueue := by
      cases for_ <;> exact ⟨rfl, rfl, rfl⟩
    obtain ⟨hcmd, hdecoder, hqueue⟩ := hrest
    simp only [pending, hsend, hcmd, hdecoder, hqueue, Option.toList_none, List.count_nil]
    omega
  | begun index chunk p hpc hload =>
    have hnew := session_beginTrack env index chunk p
    have hold := session_ensureTrackLoaded hload
    simp only [session, Prod.mk.injEq] at hnew hold
    have hactive : (beginTrack env index chunk p).activeGeneration =
        nextGeneration s.service.activeGeneration := by
      rw [hnew.2.2.1, hold.2.2.1]
    refine .inr ⟨hactive, fun g => ⟨taken_of_not_waiting (by rw [hpc]; intro h; cases h), ?_⟩⟩
    simp only [pending, toSend, hpc, Option.toList_none, Option.toList_some, List.count_nil]
    omega
  | decoderSent hpc =>
    refine .inl ⟨rfl, fun g => takes_nothing (by rw [hpc]; intro h; cases h) ?_⟩
    simp only [pending, toSend, hpc, Option.toList_none, Option.toList_some, List.count_nil]
    omega
  | readerSent hpc =>
    have hsession := session_finishStart env s.service
    simp only [session, Prod.mk.injEq] at hsession
    exact .inl ⟨hsession.2.2.1, fun g => takes_nothing (by rw [hpc]; intro h; cases h)
      (pending_le rfl rfl)⟩
  | restored index chunk p hpc hrestore =>
    have hsession := session_restorePausedTrack hrestore
    simp only [session, Prod.mk.injEq] at hsession
    exact .inl ⟨hsession.2.2.1, fun g => takes_nothing (by rw [hpc]; intro h; cases h)
      (pending_le rfl rfl)⟩

/-- What every step does to the completions. -/
theorem pending_step (hC : NoWrap s a) (h : step s a = some t) :
    (t.service.activeGeneration = s.service.activeGeneration ∧
      ∀ g, taken s a g + pending t g ≤ pending s g) ∨
    (t.service.activeGeneration = s.service.activeGeneration + 1 ∧
      ∀ g, taken s a g = 0 ∧
        pending t g ≤ pending s g + [t.service.activeGeneration].count g) := by
  cases hby : a.byService with
  | false =>
    have hsession := (beside_step hby h).session
    simp only [session, Prod.mk.injEq] at hsession
    refine .inl ⟨hsession.2.2.1, fun g => ?_⟩
    have hnone : taken s a g = 0 := by
      cases a with
      | service _ | timeout => cases hby
      | post _ | reader _ | decoder _ | setMode _ _ => rfl
    rw [hnone, Nat.zero_add]
    exact pending_beside hby h g
  | true =>
    cases a with
    | service env =>
      rw [← nextGeneration_of_noWrap hC]
      exact pending_service (serviceMove_of_step h)
    | timeout =>
      refine .inl ?_
      rcases timeout_cases h with ⟨after, hpc, rfl⟩ | ⟨hpc, rfl⟩
      all_goals
        exact ⟨rfl, fun g => takes_nothing (by rw [hpc]; intro h; cases h) (pending_le rfl rfl)⟩
    | post _ | reader _ | decoder _ | setMode _ _ => cases hby

/-! ## The invariant -/

/-- A completion to come is that of a generation that began, and a request to
stop comes with the cancelling of the active one. -/
structure Inv (s : State) : Prop where
  begun : ∀ g, 0 < pending s g → g ≤ s.service.activeGeneration
  cancelled : s.service.stopRequested = true →
    s.service.cancelledGeneration = s.service.activeGeneration

/-- How the generations can change: not at all, by a cancelled stop, or by a
start, which takes the request back. -/
theorem generations_service (h : ServiceMove env s t) :
    generations t.service = generations s.service ∨
    generations t.service = (s.service.activeGeneration, s.service.activeGeneration, true) ∨
    generations t.service =
      (nextGeneration s.service.activeGeneration, s.service.cancelledGeneration, false) ∨
    generations t.service =
      (s.service.activeGeneration, s.service.cancelledGeneration, false) := by
  cases h with
  | handled msg rest hpc hqueue => exact .inl (generations_handle env s.service msg)
  | wentOn after hpc => exact .inl (generations_afterStop env s.service after)
  | foundIdle | waited | waitedFailed | readerReset | refused | checked | decoderFull | decoderSent
  | restoreChecked => exact .inl rfl
  | decoderReset for_ hpc => cases for_ <;> exact .inl rfl
  | requested | readerFull => exact .inr (.inl rfl)
  | readerSent => exact .inl (generations_of_session (session_finishStart env s.service))
  | begun index chunk p hpc hload =>
    have hnew := session_beginTrack env index chunk p
    have hold := session_ensureTrackLoaded hload
    simp only [session, Prod.mk.injEq] at hnew hold
    refine .inr (.inr (.inl ?_))
    simp only [generations, hnew, hold]
  | restored index chunk p hpc hrestore =>
    have hsession := session_restorePausedTrack hrestore
    simp only [session, Prod.mk.injEq] at hsession
    refine .inr (.inr (.inr ?_))
    simp only [generations, hsession]

theorem generations_step (hC : NoWrap s a) (h : step s a = some t) :
    generations t.service = generations s.service ∨
    generations t.service = (s.service.activeGeneration, s.service.activeGeneration, true) ∨
    generations t.service =
      (s.service.activeGeneration + 1, s.service.cancelledGeneration, false) ∨
    generations t.service =
      (s.service.activeGeneration, s.service.cancelledGeneration, false) := by
  cases hby : a.byService with
  | false => exact .inl (generations_of_session (beside_step hby h).session)
  | true =>
    cases a with
    | service env =>
      rw [← nextGeneration_of_noWrap hC]
      exact generations_service (serviceMove_of_step h)
    | timeout =>
      rcases timeout_cases h with ⟨after, hpc, rfl⟩ | ⟨hpc, rfl⟩
      all_goals exact .inl rfl
    | post _ | reader _ | decoder _ | setMode _ _ => cases hby

theorem inv_step (hs : Inv s) (hC : NoWrap s a) (h : step s a = some t) : Inv t := by
  constructor
  · intro g hg
    rcases pending_step hC h with ⟨hactive, hle⟩ | ⟨hactive, hle⟩
    · rw [hactive]
      exact hs.begun g (Nat.lt_of_lt_of_le hg ((Nat.le_add_left _ _).trans (hle g)))
    · obtain ⟨-, hle⟩ := hle g
      by_cases hnew : t.service.activeGeneration = g
      · exact hnew.ge
      · rw [List.count_singleton, beq_eq_false_iff_ne.mpr hnew] at hle
        have hold := hs.begun g (Nat.lt_of_lt_of_le hg hle)
        omega
  · intro hstop
    have hcases := generations_step hC h
    simp only [generations, Prod.mk.injEq, hstop] at hcases
    rcases hcases with ⟨hactive, hcancelled, hold⟩ | ⟨hactive, hcancelled, -⟩ | ⟨-, -, hno⟩ |
      ⟨-, -, hno⟩
    · rw [hactive, hcancelled, hs.cancelled hold.symm]
    · rw [hactive, hcancelled]
    · cases hno
    · cases hno

theorem inv_init (resumeRtc : Option ResumeState) (resumeNvs : Option ResumeBlob) :
    Inv (initState resumeRtc resumeNvs) := ⟨fun _ h => (by cases h), fun h => by cases h⟩

/-! ## What an advance says of the run before it -/

/-- The generation was replaced or cancelled: its completion is stale for good. -/
def Dead (generation : Nat) (s : State) : Prop :=
  generation < s.service.activeGeneration ∨
    (generation = s.service.activeGeneration ∧
      s.service.cancelledGeneration = s.service.activeGeneration)

theorem dead_step (hs : Dead generation s) (hC : NoWrap s a) (h : step s a = some t) :
    Dead generation t := by
  have hcases := generations_step hC h
  simp only [generations, Prod.mk.injEq] at hcases
  unfold Dead at hs ⊢
  rcases hcases with ⟨hactive, hcancelled, -⟩ | ⟨hactive, hcancelled, -⟩ |
    ⟨hactive, hcancelled, -⟩ | ⟨hactive, hcancelled, -⟩
  all_goals
    rw [hactive, hcancelled]
    omega

/-- Whoever holds the command of a generation that is not dead is not told to stop. -/
theorem goesOn_of_not_dead (hs : Inv s) (hdead : ¬ Dead generation s)
    (hpending : 0 < pending s generation) : s.shouldStop generation = false := by
  have hle := hs.begun generation hpending
  unfold Dead at hdead
  have hactive : generation = s.service.activeGeneration := by omega
  have hstop : s.service.stopRequested = false := by
    rw [Bool.eq_false_iff]
    intro hstop
    exact hdead (.inr ⟨hactive, hs.cancelled hstop⟩)
  simp [State.shouldStop, hstop, hactive]

/-- The generation's session has ended and its completion is not received yet. -/
def Completing (generation : Nat) (s : State) : Prop :=
  .trackComplete generation ∈ s.cmdQueue ∨ ∃ endedLive, s.decoder = .finishing generation endedLive

theorem completing_step (h : step s a = some t) (ht : Completing generation t) :
    Completing generation s ∨ (a = .decoder .finish ∧ s.decoder = .running generation) := by
  cases a with
  | service env =>
    obtain ⟨hdecoder, hqueue⟩ := service_queue (serviceMove_of_step h)
    refine .inl (ht.imp (fun hm => ?_) (Exists.imp fun e he => hdecoder.symm.trans he))
    rcases hqueue with hqueue | ⟨-, msg, hqueue⟩
    · exact hqueue ▸ hm
    · rw [hqueue]
      exact List.mem_cons_of_mem _ hm
  | timeout =>
    rcases timeout_cases h with ⟨after, -, rfl⟩ | ⟨-, rfl⟩
    all_goals exact .inl ht
  | post msg =>
    simp only [step] at h
    split at h
    · cases h
    · next hcomplete =>
      cases h
      rcases queueMsg_cases s msg with ⟨-, heq⟩ | ⟨-, heq⟩
      · rw [heq] at ht
        refine .inl (ht.imp_left fun hm => ?_)
        rcases List.mem_append.mp hm with hm | hm
        · exact hm
        · rw [List.mem_singleton] at hm
          exact absurd (congrArg Msg.isComplete hm).symm hcomplete
      · rw [heq] at ht
        exact .inl ht
  | setMode mode random =>
    cases h
    exact .inl ht
  | reader l =>
    cases l with
    | receive | clearBit | windowed _ _ _ | finish =>
      simp only [step, readerStep] at h
      split at h
      · cases h
        exact .inl ht
      · cases h
  | decoder l =>
    cases l with
    | receive | clearBit =>
      simp only [step, decoderStep] at h
      split at h
      · cases h
        refine .inl (ht.imp_right fun hended => ?_)
        obtain ⟨e, he⟩ := hended
        cases he
      · cases h
    | decoded cart chunk crcOk =>
      simp only [step, decoderStep] at h
      split at h
      · cases h
        exact .inl ht
      · cases h
    | finish =>
      simp only [step, decoderStep] at h
      split at h
      · next g hrunning =>
        cases h
        rcases ht with hm | ⟨e, he⟩
        · exact .inl (.inl hm)
        · cases he
          exact .inr ⟨rfl, hrunning⟩
      · cases h
    | complete =>
      simp only [step, decoderStep] at h
      split at h
      · next g endedLive hfinishing =>
        cases h
        rcases queueMsg_cases { s with decoder := .idle } (.trackComplete g) with
          ⟨-, heq⟩ | ⟨-, heq⟩
        · rw [heq] at ht
          rcases ht with hm | ⟨e, he⟩
          · rcases List.mem_append.mp hm with hm | hm
            · exact .inl (.inl hm)
            · cases List.mem_singleton.mp hm
              exact .inl (.inr ⟨endedLive, hfinishing⟩)
          · cases he
        · rw [heq] at ht
          rcases ht with hm | ⟨e, he⟩
          · exact .inl (.inl hm)
          · cases he
      · cases h

/-- In the run the session of the generation came to its end. -/
def Ended (s₀ : State) (as : List Action) (generation : Nat) : Prop :=
  ∃ pre post u, as = pre ++ .decoder .finish :: post ∧ run step s₀ pre = some u ∧
    u.decoder = .running generation

theorem ended_of_completing {s₀ : State} {as : List Action} (h₀ : ¬ Completing generation s₀)
    (hrun : run step s₀ as = some s) (hs : Completing generation s) : Ended s₀ as generation := by
  induction as using List.reverseRecOn generalizing s with
  | nil =>
    obtain rfl := Option.some.inj hrun
    exact absurd hs h₀
  | append_singleton as a ih =>
    rw [run_append] at hrun
    obtain ⟨u, hu, hrun⟩ := Option.bind_eq_some_iff.mp hrun
    rw [run_cons] at hrun
    obtain ⟨v, hv, hrun⟩ := Option.bind_eq_some_iff.mp hrun
    obtain rfl := Option.some.inj hrun
    rcases completing_step hv hs with hold | ⟨rfl, hrunning⟩
    · obtain ⟨pre, post, w, rfl, hw, hrunning⟩ := ih hu hold
      exact ⟨pre, post ++ [a], w, by rw [List.append_assoc]; rfl, hw, hrunning⟩
    · exact ⟨as, [], u, rfl, hu, hrunning⟩

/-! ## How often a session advances -/

/-- How often the generation can still cause an advance. -/
def credit (s : State) (generation : Nat) : Nat :=
  if generation ≤ s.service.activeGeneration then pending s generation else 1

theorem credit_step (hs : Inv s) (hC : NoWrap s a) (h : step s a = some t) :
    taken s a generation + credit t generation ≤ credit s generation := by
  have hbegun := hs.begun generation
  unfold credit
  rcases pending_step hC h with ⟨hactive, hle⟩ | ⟨hactive, hle⟩
  · have hle := hle generation
    rw [hactive]
    split
    · exact hle
    · next hnew =>
      have hzero : pending s generation = 0 := Nat.eq_zero_of_not_pos fun hp => hnew (hbegun hp)
      omega
  · obtain ⟨hnone, hle⟩ := hle generation
    rw [hnone, Nat.zero_add]
    by_cases hnew : t.service.activeGeneration = generation
    · have hzero : pending s generation = 0 :=
        Nat.eq_zero_of_not_pos fun hp => by have := hbegun hp; omega
      rw [hnew, List.count_singleton_self, hzero] at hle
      rw [if_pos hnew.ge, if_neg (by omega)]
      exact hle
    · rw [List.count_singleton, beq_eq_false_iff_ne.mpr hnew] at hle
      split
      · rw [if_pos (by omega)]
        exact hle
      · rw [if_neg (by omega)]

/-- An advance is a step. -/
theorem taken_of_step_none (h : step s a = none) : taken s a generation = 0 := by
  unfold taken
  cases hadv : advanceOf s a with
  | none => rfl
  | some g =>
    obtain ⟨hpc, ⟨rest, hqueue⟩, -⟩ := advanceOf_some hadv
    cases a with
    | service env => simp [step, serviceStep, hpc, hqueue] at h
    | timeout | post _ | reader _ | decoder _ | setMode _ _ => cases hadv

theorem count_advancesOf {as : List Action} (hs : Inv s) (hC : Along step NoWrap s as) :
    (advancesOf s as).count generation ≤ credit s generation := by
  induction as generalizing s with
  | nil => exact Nat.zero_le _
  | cons a as ih =>
    rw [advancesOf, List.count_append]
    change taken s a generation + _ ≤ _
    cases h : step s a with
    | none =>
      rw [taken_of_step_none h]
      exact Nat.zero_le _
    | some t =>
      have hrest := ih (inv_step hs hC.1 h) (hC.2 t h)
      have hstep := @credit_step s t a generation hs hC.1 h
      dsimp only
      omega

/-! ## Starts after a command -/

/-- The active generation is not below `n`, and above it while a start is under way. -/
def Beyond (n : Nat) (s : State) : Prop :=
  n ≤ s.service.activeGeneration ∧ (startUnderWay s.pc = true → n < s.service.activeGeneration)

theorem beyond_service {n : Nat} (hs : Beyond n s) (h : ServiceMove env s t)
    (hC : NoWrap s (.service env)) : Beyond n t := by
  have hunder := hs.2
  cases h with
  | handled msg rest hpc hqueue =>
    have hactive := (frame_handle env s.service msg).active
    refine ⟨hactive.symm ▸ hs.1, fun hstart => ?_⟩
    rw [startUnderWay_next] at hstart
    cases hstart
  | wentOn after hpc =>
    have hactive := (frame_afterStop env s.service after).active
    refine ⟨hactive.symm ▸ hs.1, fun hstart => ?_⟩
    rw [startUnderWay_next] at hstart
    cases hstart
  | foundIdle | requested | waited | waitedFailed | refused | checked | decoderFull | readerFull
  | restoreChecked => exact ⟨hs.1, fun h => by cases h⟩
  | readerReset for_ hpc =>
    rw [hpc] at hunder
    cases for_ with
    | start => exact ⟨hs.1, hunder⟩
    | stop _ _ | failedStart | restore => exact ⟨hs.1, fun h => by cases h⟩
  | decoderReset for_ hpc =>
    rw [hpc] at hunder
    cases for_ with
    | start => exact ⟨hs.1, hunder⟩
    | stop _ _ | failedStart | restore => exact ⟨hs.1, fun h => by cases h⟩
  | decoderSent hpc =>
    rw [hpc] at hunder
    exact ⟨hs.1, hunder⟩
  | begun index chunk p hpc hload =>
    have hnew := session_beginTrack env index chunk p
    have hold := session_ensureTrackLoaded hload
    simp only [session, Prod.mk.injEq] at hnew hold
    have hactive : (beginTrack env index chunk p).activeGeneration =
        s.service.activeGeneration + 1 := by
      rw [hnew.2.2.1, hold.2.2.1, nextGeneration_of_noWrap hC]
    have hlt : n < (beginTrack env index chunk p).activeGeneration :=
      hactive ▸ Nat.lt_succ_of_le hs.1
    exact ⟨hlt.le, fun _ => hlt⟩
  | readerSent hpc =>
    have hsession := session_finishStart env s.service
    simp only [session, Prod.mk.injEq] at hsession
    exact ⟨hsession.2.2.1.symm ▸ hs.1, fun h => by cases h⟩
  | restored index chunk p hpc hrestore =>
    have hsession := session_restorePausedTrack hrestore
    simp only [session, Prod.mk.injEq] at hsession
    exact ⟨hsession.2.2.1.symm ▸ hs.1, fun h => by cases h⟩

theorem beyond_step {n : Nat} (hs : Beyond n s) (hC : NoWrap s a) (h : step s a = some t) :
    Beyond n t := by
  cases hby : a.byService with
  | false =>
    have hbeside := beside_step hby h
    have hsession := hbeside.session
    simp only [session, Prod.mk.injEq] at hsession
    unfold Beyond
    rw [hbeside.pc, hsession.2.2.1]
    exact hs
  | true =>
    cases a with
    | service env => exact beyond_service hs (serviceMove_of_step h) hC
    | timeout =>
      rcases timeout_cases h with ⟨after, hpc, rfl⟩ | ⟨hpc, rfl⟩
      all_goals exact ⟨hs.1, fun h => by cases h⟩
    | post _ | reader _ | decoder _ | setMode _ _ => cases hby

/-- The message that is received begins no start at once. -/
theorem beyond_received (hpc : s.pc = .waiting) (h : step s (.service env) = some t) :
    Beyond s.service.activeGeneration t := by
  have hmove := serviceMove_of_step h
  cases hmove with
  | handled msg rest _ hqueue =>
    refine ⟨(frame_handle env s.service msg).active.ge, fun hstart => ?_⟩
    rw [startUnderWay_next] at hstart
    cases hstart
  | refused _ _ hpc' => simp [hpc] at hpc'
  | foundIdle _ hpc' | requested _ hpc' | waited _ hpc' | waitedFailed hpc'
  | readerReset _ hpc' | decoderReset _ hpc' | wentOn _ hpc' | checked _ _ hpc' | begun _ _ _ hpc' | decoderFull hpc' | decoderSent hpc'
  | readerFull hpc' | readerSent hpc' | restoreChecked _ _ hpc' | restored _ _ _ hpc' =>
    cases hpc.symm.trans hpc'

/-! ## The boundary -/

theorem pending_of_outstanding (h : Outstanding s generation) : 0 < pending s generation := by
  unfold pending
  rcases h with hqueue | howes | hcmd
  · have := List.count_pos_iff.mpr hqueue
    omega
  · rw [howes, Option.toList_some, List.count_singleton_self]
    omega
  · rw [hcmd, Option.toList_some, List.count_singleton_self]
    omega

/-- At no point of the run was the generation told to stop, from its start
command to its completion. -/
def Undisturbed (s₀ : State) (as : List Action) (generation : Nat) : Prop :=
  ∀ early u, early <+: as → run step s₀ early = some u → Outstanding u generation →
    u.shouldStop generation = false

/-- Nothing of the generation was there in the run: no start command, no session
and no completion. -/
def NotBegun (s₀ : State) (as : List Action) (generation : Nat) : Prop :=
  ∀ early u, early <+: as → run step s₀ early = some u → ¬ Outstanding u generation

theorem active_le_step (hC : NoWrap s a) (h : step s a = some t) :
    s.service.activeGeneration ≤ t.service.activeGeneration := by
  rcases pending_step hC h with ⟨hactive, -⟩ | ⟨hactive, -⟩
  · exact hactive.ge
  · exact hactive.ge.trans' (Nat.le_succ _)

theorem active_le_run {as : List Action} (hC : Along step NoWrap s as)
    (hrun : run step s as = some t) : s.service.activeGeneration ≤ t.service.activeGeneration :=
  @run_invariant _ _ step NoWrap (fun u => s.service.activeGeneration ≤ u.service.activeGeneration)
    (fun _ _ _ hle hC h => hle.trans (active_le_step hC h)) s t as (Nat.le_refl _) hC hrun

theorem inv_run {s₀ : State} {as : List Action} (h₀ : Inv s₀) (hC : Along step NoWrap s₀ as)
    (hrun : run step s₀ as = some s) : Inv s :=
  run_invariant (fun _ _ _ hs hC h => inv_step hs hC h) h₀ hC hrun

/-- An advance of a run was earned: its session ended by itself. -/
theorem undisturbed_of_advance {s₀ : State} {pre : List Action} (h₀ : Inv s₀)
    (hC : Along step NoWrap s₀ pre) (hrun : run step s₀ pre = some s)
    (hadv : advanceOf s a = some generation) : Undisturbed s₀ pre generation := by
  obtain ⟨-, -, hactive, hcancelled⟩ := advanceOf_some hadv
  rintro early u ⟨late, rfl⟩ hu hout
  obtain ⟨hearly, hlate⟩ := along_append.mp hC
  rw [run_append, hu, Option.bind_some] at hrun
  refine goesOn_of_not_dead (inv_run h₀ hearly hu) (fun hdead => ?_) (pending_of_outstanding hout)
  have hs : Dead generation s :=
    run_invariant (fun _ _ _ hs hC h => dead_step hs hC h) hdead (hlate u hu) hrun
  rcases hs with hlt | ⟨-, heq⟩
  · omega
  · exact hcancelled (hactive.trans heq.symm)

/-- **A session ends for itself only**, before the generation wraps. Each
session causes at most one automatic advance; one that causes it came to its end
and was never told to stop, by a stop or by a newer start, from its start command
to its completion; and once a track was started by a message, or after it, no
session that had begun before that message causes one. -/
theorem session_boundary (resumeRtc : Option ResumeState) (resumeNvs : Option ResumeBlob)
    {as : List Action} (hC : Along step NoWrap (initState resumeRtc resumeNvs) as) :
    (advancesOf (initState resumeRtc resumeNvs) as).Nodup ∧
      (∀ pre a post s generation, as = pre ++ a :: post →
        run step (initState resumeRtc resumeNvs) pre = some s →
        advanceOf s a = some generation →
          Ended (initState resumeRtc resumeNvs) pre generation ∧
            Undisturbed (initState resumeRtc resumeNvs) pre generation) ∧
      ∀ pre env mid late a post s t u generation,
        as = pre ++ .service env :: (mid ++ (late ++ a :: post)) →
        run step (initState resumeRtc resumeNvs) pre = some s → s.pc = .waiting →
        run step s (.service env :: mid) = some t → t.pc = .sendReader → t.readerCmd = none →
        run step t late = some u → advanceOf u a = some generation →
          NotBegun (initState resumeRtc resumeNvs) pre generation := by
  have h₀ := inv_init resumeRtc resumeNvs
  have hnone (g : Nat) : ¬ Completing g (initState resumeRtc resumeNvs) := by
    rintro (hm | ⟨e, he⟩)
    · cases hm
    · cases he
  have hcredit (g : Nat) : credit (initState resumeRtc resumeNvs) g ≤ 1 := by
    unfold credit
    split
    · exact Nat.zero_le _
    · exact Nat.le_refl _
  generalize initState resumeRtc resumeNvs = s₀ at hC h₀ hnone hcredit ⊢
  refine ⟨?_, ?_, ?_⟩
  · refine List.nodup_iff_count_le_one.mpr fun g => ?_
    exact (count_advancesOf h₀ hC).trans (hcredit g)
  · rintro pre a post s g rfl hrun hadv
    obtain ⟨rest, hqueue⟩ := (advanceOf_some hadv).2.1
    have hcompleting : Completing g s := .inl (hqueue ▸ List.mem_cons_self ..)
    exact ⟨ended_of_completing (hnone g) hrun hcompleting,
      undisturbed_of_advance h₀ (along_append.mp hC).1 hrun hadv⟩
  · rintro pre env mid late a post s t u g rfl hs hpc ht hstart hfree hu hadv
    obtain ⟨hpre, hrest⟩ := along_append.mp hC
    have hrest := hrest s hs
    rw [← List.cons_append] at hrest
    obtain ⟨hmid, hlate⟩ := along_append.mp hrest
    have hlate := (along_append.mp (hlate t ht)).1
    -- the start under way at `t` took a generation after the message
    have hnew : s.service.activeGeneration < t.service.activeGeneration := by
      rw [run_cons] at ht
      obtain ⟨v, hv, ht⟩ := Option.bind_eq_some_iff.mp ht
      have hbeyond : Beyond s.service.activeGeneration t :=
        run_invariant (fun _ _ _ hs hC h => beyond_step hs hC h) (beyond_received hpc hv)
          (hmid.2 v hv) ht
      exact hbeyond.2 (by rw [hstart]; rfl)
    have hactive : g = u.service.activeGeneration := (advanceOf_some hadv).2.2.1
    have hle := active_le_run hlate hu
    rintro early v ⟨rest, rfl⟩ hv hout
    obtain ⟨hearly, hrest⟩ := along_append.mp hpre
    rw [run_append, hv, Option.bind_some] at hs
    have hbegun := (inv_run h₀ hearly hv).begun g (pending_of_outstanding hout)
    have hmono := active_le_run (hrest v hv) hs
    omega

/-- The first track plays to its end, and its completion is received. -/
theorem session_boundary_played :
    advancesOf (initState none none) (played ++ [.decoder .complete, .service calmEnv]) = [1] ∧
      Ended (initState none none) (played ++ [.decoder .complete]) 1 ∧
      Undisturbed (initState none none) (played ++ [.decoder .complete]) 1 := by
  have hC : Along step NoWrap (initState none none)
      (played ++ [.decoder .complete, .service calmEnv]) := by
    decide +kernel
  have hadvances : (run step (initState none none) (played ++ [.decoder .complete])).map
      (advanceOf · (.service calmEnv)) = some (some 1) := by
    decide +kernel
  obtain ⟨s, hrun, hadv⟩ := Option.map_eq_some_iff.mp hadvances
  refine ⟨by decide +kernel, ?_⟩
  have hsplit : played ++ [.decoder .complete, .service calmEnv] =
      (played ++ [.decoder .complete]) ++ [.service calmEnv] :=
    (List.append_assoc played [.decoder .complete] [.service calmEnv]).symm
  exact (session_boundary none none hC).2.1 _ _ [] s 1 hsplit hrun hadv

end Jukeboy.Player.SessionBoundary
