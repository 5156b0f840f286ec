import Jukeboy.Player.Pipeline

/-! # The end of a track is not lost

A decoder session that ends puts its completion into the command queue with a
zero timeout. While the player plays, the completion of the active generation is
outstanding: its start command waits, its session runs, or its message is
queued. A full queue is the one place where it is lost. -/
namespace Jukeboy.Player.TrackCompletion

open Jukeboy.Base.Runs
open Jukeboy.Player.State Jukeboy.Player.Pipeline
open Jukeboy.Player.Service hiding State Action step initState
open Jukeboy.Player.SeekRace (nextGeneration)
open Jukeboy.Player.StateInvariant (calmEnv)

variable {s t : State} {a : Action} {env : Env} {generation : Nat}

/-! ## Outstanding completions -/

/-- The generation whose completion the decoder will queue. -/
def owes : DecoderPc → Option Nat
  | .received generation | .running generation | .finishing generation _ => some generation
  | .idle => none

/-- The completion of the generation is still to come, or waits in the queue. -/
def Outstanding (s : State) (generation : Nat) : Prop :=
  .trackComplete generation ∈ s.cmdQueue ∨ owes s.decoder = some generation ∨
    s.decoderCmd = some generation

instance : Decidable (Outstanding s generation) := inferInstanceAs (Decidable (_ ∨ _ ∨ _))

/-- A message is queued where there is room, and changes nothing where there is none. -/
theorem queueMsg_cases (s : State) (msg : Msg) :
    (s.cmdQueue.length < queueDepth ∧
      s.queueMsg msg = { s with cmdQueue := s.cmdQueue ++ [msg] }) ∨
    (¬ s.cmdQueue.length < queueDepth ∧ s.queueMsg msg = s) := by
  unfold State.queueMsg
  split
  · next hroom => exact .inl ⟨hroom, rfl⟩
  · next hfull => exact .inr ⟨hfull, rfl⟩

theorem mem_queueMsg {msg m : Msg} (h : m ∈ s.cmdQueue) : m ∈ (s.queueMsg msg).cmdQueue := by
  rcases queueMsg_cases s msg with ⟨-, heq⟩ | ⟨-, heq⟩
  · rw [heq]
    exact List.mem_append_left _ h
  · rwa [heq]

/-- The decoder takes over what its command owes, and settles it with a message;
where the queue has room nothing is lost. -/
theorem outstanding_decoder {l : DecoderLabel} (h : decoderStep s l = some t) :
    (Outstanding t generation → Outstanding s generation) ∧
      ((l = .complete → owes s.decoder = some generation → s.cmdQueue.length < queueDepth) →
        Outstanding s generation → Outstanding t generation) := by
  unfold Outstanding
  cases l with
  | receive =>
    simp only [decoderStep] at h
    split at h
    · next hidle hcmd =>
      cases h
      simp only [owes, hidle, hcmd]
      exact ⟨fun ho => ho.imp_right fun ho => ho.symm, fun _ ho => ho.imp_right fun ho => ho.symm⟩
    · cases h
  | clearBit =>
    simp only [decoderStep] at h
    split at h
    · next hreceived =>
      cases h
      simp only [owes, hreceived]
      exact ⟨id, fun _ => id⟩
    · cases h
  | decoded cart chunk crcOk =>
    simp only [decoderStep] at h
    split at h
    · cases h
      exact ⟨id, fun _ => id⟩
    · cases h
  | finish =>
    simp only [decoderStep] at h
    split at h
    · next hrunning =>
      cases h
      simp only [owes, hrunning]
      exact ⟨id, fun _ => id⟩
    · cases h
  | complete =>
    simp only [decoderStep] at h
    split at h
    · next g endedLive hfinishing =>
      cases h
      simp only [owes, hfinishing, Option.some.injEq, forall_const]
      rcases queueMsg_cases { s with decoder := .idle } (.trackComplete g) with
        ⟨hroom, heq⟩ | ⟨hfull, heq⟩
      · rw [heq]
        simp only [List.mem_append, List.mem_singleton, Msg.trackComplete.injEq]
        grind
      · rw [heq]
        refine ⟨fun ho => ho.imp_right fun ho => .inr (ho.resolve_left (fun h => by cases h)),
          fun hroom ho => ?_⟩
        rcases ho with ho | rfl | ho
        · exact .inl ho
        · exact absurd (hroom rfl) hfull
        · exact .inr (.inr ho)
    · cases h

/-- A step beside the service task settles a completion only by queueing it, and
brings up none. -/
theorem outstanding_beside (ha : a.byService = false) (h : step s a = some t) :
    (Outstanding t generation → Outstanding s generation) ∧
      ((a = .decoder .complete → owes s.decoder = some generation →
          s.cmdQueue.length < queueDepth) →
        Outstanding s generation → Outstanding t generation) := by
  cases a with
  | service _ | timeout => cases ha
  | post msg =>
    simp only [step] at h
    split at h
    · cases h
    · next hcomplete =>
      cases h
      unfold Outstanding
      rcases queueMsg_cases s msg with ⟨-, heq⟩ | ⟨-, heq⟩
      · rw [heq]
        simp only [List.mem_append, List.mem_singleton]
        refine ⟨?_, fun _ => .imp_left .inl⟩
        rintro ((ho | rfl) | ho)
        · exact .inl ho
        · exact absurd rfl hcomplete
        · exact .inr ho
      · rw [heq]
        exact ⟨id, fun _ => id⟩
  | setMode mode random =>
    cases h
    exact ⟨id, fun _ => id⟩
  | reader l =>
    have hsame : t.cmdQueue = s.cmdQueue ∧ t.decoder = s.decoder ∧ t.decoderCmd = s.decoderCmd := by
      cases l with
      | receive | clearBit | windowed _ _ _ | finish =>
        simp only [step, readerStep] at h
        split at h
        · cases h
          exact ⟨rfl, rfl, rfl⟩
        · cases h
    obtain ⟨hqueue, hdecoder, hcmd⟩ := hsame
    unfold Outstanding
    rw [hqueue, hdecoder, hcmd]
    exact ⟨id, fun _ => id⟩
  | decoder l =>
    have hstep := @outstanding_decoder s t generation l h
    exact ⟨hstep.1, fun hroom => hstep.2 fun hl => hroom (by rw [hl])⟩

/-! ## The invariant -/

/-- The end of the active generation will be taken for what it is. -/
structure Expected (s : State) : Prop where
  uncancelled : s.service.activeGeneration ≠ s.service.cancelledGeneration
  outstanding : Outstanding s s.service.activeGeneration

/-- What the service task owes the player, by where it is. -/
def Owed (s : State) : Prop :=
  match s.pc with
  | .waiting => s.service.playing = true → s.service.paused = false → Expected s
  | .resetReader .start | .resetDecoder .start | .sendDecoder =>
    s.service.activeGeneration ≠ s.service.cancelledGeneration
  | .sendReader => Expected s
  | .awaitingIdle .failedStart | .resetReader .failedStart | .resetDecoder .failedStart =>
    s.service.playing = false
  | .resetReader .restore | .resetDecoder .restore => s.service.paused = true
  | _ => True

/-- The session whose completion is queued next. -/
def finishing : DecoderPc → Option (Nat × Bool)
  | .finishing generation endedLive => some (generation, endedLive)
  | _ => none

/-- The service task is about to take a new generation. -/
def begins (env : Env) (s : State) : Bool :=
  match s.pc with
  | .loading index _ => (ensureTrackLoaded env index s.service).toBool
  | _ => false

/-- **When no completion is lost**: that of a session which ended live, or is
live now, finds room in the queue; and no start comes to the number in
`s_cancelled_generation`, which takes 2³² starts without a stop that waits. -/
def Delivered (s : State) : Action → Prop
  | .decoder .complete =>
    ∀ session ∈ finishing s.decoder, (session.2 || s.live session.1) = true →
      s.cmdQueue.length < queueDepth
  | .service env =>
    begins env s = true →
      nextGeneration s.service.activeGeneration ≠ s.service.cancelledGeneration
  | _ => True

instance (s : State) : ∀ a, Decidable (Delivered s a)
  | .decoder .complete => inferInstanceAs (Decidable (∀ session ∈ finishing s.decoder,
      (session.2 || s.live session.1) = true → s.cmdQueue.length < queueDepth))
  | .service env => inferInstanceAs (Decidable (begins env s = true →
      nextGeneration s.service.activeGeneration ≠ s.service.cancelledGeneration))
  | .timeout | .post _ | .setMode _ _ | .reader _ | .decoder .receive | .decoder .clearBit
  | .decoder (.decoded ..) | .decoder .finish => isTrue trivial

theorem live_iff : s.live generation = true ↔
    generation = s.service.activeGeneration ∧ generation ≠ s.service.cancelledGeneration := by
  simp [State.live]

/-- A completion that is live finds room. -/
theorem Delivered.room (hC : Delivered s (.decoder .complete)) (hlive : s.live generation = true)
    (howes : owes s.decoder = some generation) (h : step s (.decoder .complete) = some t) :
    s.cmdQueue.length < queueDepth := by
  simp only [step, decoderStep] at h
  split at h
  · next g endedLive hfinishing =>
    rw [hfinishing, owes, Option.some.injEq] at howes
    refine hC (g, endedLive) (by rw [hfinishing]; rfl) ?_
    rw [howes, hlive, Bool.or_true]
  · cases h

theorem Expected.beside (hs : Expected s) (ha : a.byService = false) (h : step s a = some t)
    (hC : Delivered s a) : Expected t := by
  have hsession := (beside_step ha h).session
  simp only [session, Prod.mk.injEq] at hsession
  obtain ⟨-, -, hactive, hcancelled, -⟩ := hsession
  refine ⟨by rw [hactive, hcancelled]; exact hs.uncancelled, ?_⟩
  rw [hactive]
  refine (outstanding_beside ha h).2 ?_ hs.outstanding
  rintro rfl howes
  exact hC.room (live_iff.mpr ⟨rfl, hs.uncancelled⟩) howes h

theorem owed_beside (hs : Owed s) (ha : a.byService = false) (h : step s a = some t)
    (hC : Delivered s a) : Owed t := by
  have hbeside := beside_step ha h
  have hsession := hbeside.session
  simp only [session, Prod.mk.injEq] at hsession
  obtain ⟨hplaying, hpaused, hactive, hcancelled, -⟩ := hsession
  unfold Owed at hs ⊢
  rw [hbeside.pc, hplaying, hpaused, hactive, hcancelled]
  split
  · next hpc =>
    simp only [hpc] at hs
    exact fun hp hq => (hs hp hq).beside ha h hC
  on_goal 4 =>
    next hpc =>
    simp only [hpc] at hs
    exact hs.beside ha h hC
  on_goal -1 => trivial
  all_goals
    next hpc =>
    simpa only [hpc] using hs

/-! ## Steps of the service task -/

/-- A handler that returns leaves the player expecting the same completion as before. -/
theorem owed_handled {msg : Msg} {rest : List Msg} (hs : Owed s) (hpc : s.pc = .waiting)
    (hqueue : s.cmdQueue = msg :: rest) :
    Owed { s with
      service := (handle env s.service msg).1
      cmdQueue := rest
      pc := Next.pc (handle env s.service msg).2 } := by
  have hframe := frame_handle env s.service msg
  rw [Owed, hpc] at hs
  cases hnext : (handle env s.service msg).2 with
  | stop _ | start _ _ | restorePaused _ _ => trivial
  | done =>
    intro hplaying hpaused
    have hp : s.service.paused = false := (hframe.done hnext hplaying).symm.trans hpaused
    obtain ⟨huncancelled, houtstanding⟩ := hs (hframe.playing hplaying) hp
    refine ⟨?_, ?_⟩
    · dsimp only
      rw [hframe.active, hframe.cancelled]
      exact huncancelled
    · unfold Outstanding at houtstanding ⊢
      dsimp only
      rw [hframe.active]
      rw [hqueue, List.mem_cons] at houtstanding
      refine houtstanding.imp_left fun hmem => hmem.resolve_left ?_
      -- the completion itself would have started a track, or stopped the player
      rintro rfl
      cases hplaying.symm.trans (handle_live_complete env huncancelled hnext)

theorem owed_wentOn (after : AfterStop) :
    Owed { s with
      service := (afterStop env s.service after).1
      pc := Next.pc (afterStop env s.service after).2 } := by
  have hframe := frame_afterStop env s.service after
  cases hnext : (afterStop env s.service after).2 with
  | stop _ | start _ _ | restorePaused _ _ => trivial
  | done =>
    intro hplaying hpaused
    cases (hframe.done hnext hplaying).symm.trans hpaused

theorem owed_decoderReset {for_ : ResetFor} (hs : Owed s) (hpc : s.pc = .resetDecoder for_) :
    Owed ({ s with decoderCmd := none }.afterReset for_) := by
  rw [Owed, hpc] at hs
  cases for_ with
  | stop _ _ => trivial
  | start => exact hs
  | failedStart => exact fun hplaying => by cases hs.symm.trans hplaying
  | restore => exact fun _ hpaused => by cases hs.symm.trans hpaused

theorem owed_service (hs : Owed s) (h : ServiceMove env s t) (hC : Delivered s (.service env)) :
    Owed t := by
  cases h with
  | handled msg rest hpc hqueue => exact owed_handled hs hpc hqueue
  | foundIdle | requested | waited | checked | restoreChecked => trivial
  | waitedFailed hpc =>
    rw [Owed, hpc] at hs
    exact hs
  | readerReset for_ hpc =>
    rw [Owed, hpc] at hs
    cases for_ with
    | stop _ _ => trivial
    | failedStart | start | restore => exact hs
  | decoderReset for_ hpc => exact owed_decoderReset hs hpc
  | wentOn after hpc => exact owed_wentOn after
  | refused index chunk hpc =>
    intro h
    cases h
  | begun index chunk p hpc hload =>
    have hnew := session_beginTrack env index chunk p
    have hold := session_ensureTrackLoaded hload
    simp only [session, Prod.mk.injEq] at hnew hold
    obtain ⟨-, -, hactive, hcancelled, -⟩ := hnew
    obtain ⟨-, -, hactive', hcancelled', -⟩ := hold
    change (beginTrack env index chunk p).activeGeneration ≠
      (beginTrack env index chunk p).cancelledGeneration
    rw [hactive, hcancelled, hactive', hcancelled']
    refine hC ?_
    simp only [begins, hpc, hload, Except.toBool]
  | decoderFull hpc =>
    intro h
    cases h
  | decoderSent hpc =>
    rw [Owed, hpc] at hs
    exact ⟨hs, .inr (.inr rfl)⟩
  | readerFull hpc => rfl
  | readerSent hpc =>
    rw [Owed, hpc] at hs
    have hsession := session_finishStart env s.service
    simp only [session, Prod.mk.injEq] at hsession
    obtain ⟨-, -, hactive, hcancelled, -⟩ := hsession
    refine fun _ _ => ⟨?_, ?_⟩
    · dsimp only
      rw [hactive, hcancelled]
      exact hs.uncancelled
    · dsimp only
      rw [hactive]
      exact hs.outstanding
  | restored index chunk p hpc hrestore =>
    have hsession := session_restorePausedTrack hrestore
    simp only [session, Prod.mk.injEq] at hsession
    exact hsession.2.1

theorem owed_step (hs : Owed s) (hC : Delivered s a) (h : step s a = some t) : Owed t := by
  cases hby : a.byService with
  | false => exact owed_beside hs hby h hC
  | true =>
    cases a with
    | service env => exact owed_service hs (serviceMove_of_step h) hC
    | timeout =>
      rcases timeout_cases h with ⟨after, hpc, rfl⟩ | ⟨hpc, rfl⟩
      · trivial
      · rw [Owed, hpc] at hs
        exact hs
    | post _ | reader _ | decoder _ | setMode _ _ => cases hby

/-! ## From the end of a session to its handler -/

/-- The step loses no completion: that of a session which ended live is still to
be queued, or is queued; and one in the queue stays there until the service
task receives it. -/
def Kept (s : State) (a : Action) : Prop :=
  ∀ t generation, step s a = some t →
    (s.decoder = .finishing generation true →
      t.decoder = .finishing generation true ∨ .trackComplete generation ∈ t.cmdQueue) ∧
    (.trackComplete generation ∈ s.cmdQueue →
      .trackComplete generation ∈ t.cmdQueue ∨
        s.pc = .waiting ∧ ∃ rest, s.cmdQueue = .trackComplete generation :: rest)

theorem service_queue (h : ServiceMove env s t) :
    t.decoder = s.decoder ∧ (t.cmdQueue = s.cmdQueue ∨
      s.pc = .waiting ∧ ∃ msg, s.cmdQueue = msg :: t.cmdQueue) := by
  cases h with
  | handled msg rest hpc hqueue => exact ⟨rfl, .inr ⟨hpc, msg, hqueue⟩⟩
  | decoderReset for_ hpc =>
    cases for_ with
    | stop _ _ | failedStart | start | restore => exact ⟨rfl, .inl rfl⟩
  | _ => exact ⟨rfl, .inl rfl⟩

theorem beside_queue (ha : a.byService = false) (h : step s a = some t) {m : Msg}
    (hm : m ∈ s.cmdQueue) : m ∈ t.cmdQueue := by
  cases a with
  | service _ | timeout => cases ha
  | post msg =>
    simp only [step] at h
    split at h
    · cases h
    · cases h
      exact mem_queueMsg hm
  | setMode mode random =>
    cases h
    exact hm
  | reader l =>
    cases l with
    | receive | clearBit | windowed _ _ _ | finish =>
      simp only [step, readerStep] at h
      split at h
      · cases h
        exact hm
      · cases h
  | decoder l =>
    cases l with
    | receive | clearBit | decoded _ _ _ | finish =>
      simp only [step, decoderStep] at h
      split at h
      · cases h
        exact hm
      · cases h
    | complete =>
      simp only [step, decoderStep] at h
      split at h
      · cases h
        exact @mem_queueMsg { s with decoder := .idle } _ _ hm
      · cases h

/-- A session that ended live is left by queueing its completion, which has room. -/
theorem finishing_kept (hC : Delivered s a) (ha : a.byService = false) (h : step s a = some t)
    (hfinishing : s.decoder = .finishing generation true) :
    t.decoder = .finishing generation true ∨ .trackComplete generation ∈ t.cmdQueue := by
  cases a with
  | service _ | timeout => cases ha
  | post msg =>
    simp only [step] at h
    split at h
    · cases h
    · cases h
      refine .inl ?_
      rcases queueMsg_cases s msg with ⟨-, heq⟩ | ⟨-, heq⟩
      all_goals
        rw [heq]
        exact hfinishing
  | setMode mode random =>
    cases h
    exact .inl hfinishing
  | reader l =>
    cases l with
    | receive | clearBit | windowed _ _ _ | finish =>
      simp only [step, readerStep] at h
      split at h
      · cases h
        exact .inl hfinishing
      · cases h
  | decoder l =>
    cases l with
    | receive | clearBit | decoded _ _ _ | finish => simp [step, decoderStep, hfinishing] at h
    | complete =>
      have hroom : s.cmdQueue.length < queueDepth :=
        hC (generation, true) (by rw [hfinishing]; rfl) rfl
      simp only [step, decoderStep, hfinishing, Option.some.injEq] at h
      subst h
      refine .inr ?_
      rw [State.queueMsg, if_pos hroom]
      exact List.mem_append_right _ (List.mem_singleton.mpr rfl)

theorem kept_step (hC : Delivered s a) : Kept s a := by
  intro t generation h
  cases hby : a.byService with
  | false =>
    exact ⟨finishing_kept hC hby h, fun hm => .inl (beside_queue hby h hm)⟩
  | true =>
    have hmove : t.decoder = s.decoder ∧ (t.cmdQueue = s.cmdQueue ∨
        s.pc = .waiting ∧ ∃ msg, s.cmdQueue = msg :: t.cmdQueue) := by
      cases a with
      | service env => exact service_queue (serviceMove_of_step h)
      | timeout =>
        rcases timeout_cases h with ⟨after, -, rfl⟩ | ⟨-, rfl⟩
        all_goals exact ⟨rfl, .inl rfl⟩
      | post _ | reader _ | decoder _ | setMode _ _ => cases hby
    obtain ⟨hdecoder, hqueue⟩ := hmove
    refine ⟨fun hf => .inl (hdecoder.trans hf), fun hm => ?_⟩
    rcases hqueue with hqueue | ⟨hpc, msg, hqueue⟩
    · exact .inl (hqueue ▸ hm)
    · rw [hqueue, List.mem_cons] at hm
      rcases hm with rfl | hm
      · exact .inr ⟨hpc, _, hqueue⟩
      · exact .inl hm

/-- **The end of a track is not lost** in every run in which the completions that
matter find room: none of a session that ended live is dropped on its way to the
service task, and whenever the service task waits while playing and not paused,
the completion of the active session is outstanding and will be taken for it. -/
theorem completion_not_lost (resumeRtc : Option ResumeState) (resumeNvs : Option ResumeBlob)
    {as : List Action} (hC : Along step Delivered (initState resumeRtc resumeNvs) as) :
    Along step Kept (initState resumeRtc resumeNvs) as ∧
      ∀ s, run step (initState resumeRtc resumeNvs) as = some s →
        s.pc = .waiting → s.service.playing = true → s.service.paused = false → Expected s := by
  refine ⟨hC.imp fun _ _ => kept_step, fun s hrun hpc => ?_⟩
  have hinit : Owed (initState resumeRtc resumeNvs) := fun h => by cases h
  have howed : Owed s := run_invariant (fun _ _ _ hs hC h => owed_step hs hC h) hinit hC hrun
  rw [Owed, hpc] at howed
  exact howed

/-! ## A completion that finds the queue full -/

/-- The first track plays to its end. -/
def played : List Action :=
  inserted ++ [.reader .receive, .decoder .receive, .reader .clearBit, .decoder .clearBit,
    .reader .finish, .decoder .finish]

theorem completion_not_lost_played :
    ∃ s, run step (initState none none) (played ++ [.decoder .complete]) = some s ∧ Expected s := by
  have hchecked : ((run step (initState none none) (played ++ [.decoder .complete])).map fun s =>
      (s.service.playing, s.service.paused, decide (s.pc = .waiting))) =
        some (true, false, true) := by
    decide +kernel
  obtain ⟨s, hrun, hs⟩ := Option.map_eq_some_iff.mp hchecked
  simp only [Prod.mk.injEq, decide_eq_true_eq] at hs
  obtain ⟨hplaying, hpaused, hpc⟩ := hs
  have hC : Along step Delivered (initState none none) (played ++ [.decoder .complete]) := by
    decide +kernel
  exact ⟨s, hrun, (completion_not_lost none none hC).2 s hrun hpc hplaying hpaused⟩

/-- **Eight volume commands make the player stop at the end of a track**: they
fill the queue, the completion is dropped, and once they are handled the player
plays with nothing running and nothing queued. -/
theorem completion_lost :
    ¬ ∀ (resumeRtc : Option ResumeState) (resumeNvs : Option ResumeBlob) (as : List Action),
      Along step Kept (initState resumeRtc resumeNvs) as ∧
        ∀ s, run step (initState resumeRtc resumeNvs) as = some s →
          s.pc = .waiting → s.service.playing = true → s.service.paused = false → Expected s := by
  intro h
  let as := played ++ List.replicate 8 (.post (.control .volumeUp)) ++ [.decoder .complete] ++
    List.replicate 8 (.service calmEnv)
  have hchecked : ((run step (initState none none) as).map fun s =>
      (s.service.playing, s.service.paused, decide (s.pc = .waiting),
        decide (Outstanding s s.service.activeGeneration))) = some (true, false, true, false) := by
    decide +kernel
  obtain ⟨s, hrun, hs⟩ := Option.map_eq_some_iff.mp hchecked
  simp only [Prod.mk.injEq, decide_eq_true_eq, decide_eq_false_iff_not] at hs
  obtain ⟨hplaying, hpaused, hpc, hnone⟩ := hs
  exact hnone ((h none none as).2 s hrun hpc hplaying hpaused).outstanding

end Jukeboy.Player.TrackCompletion
