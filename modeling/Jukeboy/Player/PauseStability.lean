import Jukeboy.Player.TrackCompletion

/-! # A pause is stable

A completion that the service task handles while paused must be stale. It is,
when the stop of the pause found the pipeline busy and cancelled the active
generation, or when the completion of that generation is no longer to come. A
stop that finds the pipeline idle cancels nothing, and a track that just ended is
idle. -/
namespace Jukeboy.Player.PauseStability

open Jukeboy.Base.Runs
open Jukeboy.Player.State Jukeboy.Player.Pipeline Jukeboy.Player.TrackCompletion
open Jukeboy.Player.Service hiding State Action step initState
open Jukeboy.Player.StateInvariant (calmEnv)

variable {s t : State} {a : Action} {env : Env} {generation : Nat}

/-! ## The invariant -/

/-- No completion to come is that of a live session. -/
def Settled (s : State) : Prop :=
  s.service.cancelledGeneration = s.service.activeGeneration ∨
    ¬ Outstanding s s.service.activeGeneration

instance : Decidable (Settled s) := inferInstanceAs (Decidable (_ ∨ _))

theorem Settled.mono (hs : Settled s)
    (hactive : t.service.activeGeneration = s.service.activeGeneration)
    (hcancelled : t.service.cancelledGeneration = s.service.cancelledGeneration)
    (h : ∀ generation, Outstanding t generation → Outstanding s generation) : Settled t := by
  unfold Settled at hs ⊢
  rw [hactive, hcancelled]
  exact hs.imp_right fun hnot ho => hnot (h _ ho)

/-- The service task is about to set `s_paused`: past the stop of a `PAUSE`, or
with the track of a paused restore loaded. -/
def pausesNext (env : Env) (s : State) : Bool :=
  match s.pc with
  | .stopped (.pause _) => true
  | .restoreLoading index _ => (ensureTrackLoaded env index s.service).toBool
  | _ => false

/-- **When no pause is undone**: where the stop found both idle bits set, and so
left the generations alone, `s_paused` is set only if the active generation is a
cancelled one, or no completion of it is outstanding. -/
def PausesSettled (s : State) : Action → Prop
  | .service env => pausesNext env s = true → s.foundIdle = true → Settled s
  | _ => True

instance (s : State) : ∀ a, Decidable (PausesSettled s a)
  | .service env =>
    inferInstanceAs (Decidable (pausesNext env s = true → s.foundIdle = true → Settled s))
  | .timeout | .post _ | .setMode _ _ | .reader _ | .decoder _ => isTrue trivial

/-- A stop has looked at the idle bits, and its handler has not come to its end. -/
def pastLook : ServicePc → Bool
  | .awaitingIdle (.stop _) | .resetReader (.stop _ _) | .resetDecoder (.stop _ _) => true
  | .stopped _ | .restoring _ _ | .restoreLoading _ _ => true
  | _ => false

structure Inv (s : State) : Prop where
  settled : s.service.playing = true → s.service.paused = true → Settled s
  starting : s.pc = .resetReader .start ∨ s.pc = .resetDecoder .start ∨ s.pc = .sendDecoder →
    s.service.paused = false
  /-- A stop that found the pipeline busy has cancelled the generation. -/
  cancelled : pastLook s.pc = true → s.foundIdle = false →
    s.service.cancelledGeneration = s.service.activeGeneration

/-- A step that begins no start, sets no flag and brings up no completion. -/
theorem Inv.keep (hs : Inv s)
    (hpc : t.pc ≠ .resetReader .start ∧ t.pc ≠ .resetDecoder .start ∧ t.pc ≠ .sendDecoder)
    (hlook : pastLook t.pc = true → t.foundIdle = false →
      pastLook s.pc = true ∧ s.foundIdle = false)
    (hflags : (t.service.playing = true → s.service.playing = true) ∧
      (t.service.paused = true → s.service.paused = true))
    (hactive : t.service.activeGeneration = s.service.activeGeneration)
    (hcancelled : t.service.cancelledGeneration = s.service.cancelledGeneration)
    (h : ∀ generation, Outstanding t generation → Outstanding s generation) : Inv t :=
  ⟨fun hplaying hpaused => (hs.settled (hflags.1 hplaying) (hflags.2 hpaused)).mono hactive
      hcancelled h,
    fun hstart => by simp [hpc] at hstart, fun hpast hbusy => by
      obtain ⟨hpast, hbusy⟩ := hlook hpast hbusy
      rw [hactive, hcancelled, hs.cancelled hpast hbusy]⟩

theorem inv_beside (hs : Inv s) (ha : a.byService = false) (h : step s a = some t) : Inv t := by
  have hbeside := beside_step ha h
  have hsession := hbeside.session
  simp only [session, Prod.mk.injEq] at hsession
  obtain ⟨hplaying, hpaused, hactive, hcancelled, -⟩ := hsession
  refine ⟨fun hp hq => ?_, fun hpc => ?_, fun hpast hbusy => ?_⟩
  · exact (hs.settled (hplaying ▸ hp) (hpaused ▸ hq)).mono hactive hcancelled
      fun g => (outstanding_beside ha h).1
  · rw [hbeside.pc] at hpc
    exact hpaused.trans (hs.starting hpc)
  · rw [hbeside.pc] at hpast
    rw [hbeside.foundIdle] at hbusy
    rw [hactive, hcancelled, hs.cancelled hpast hbusy]

/-! ## Steps of the service task -/

theorem next_pc (next : Next) :
    Next.pc next ≠ .resetReader .start ∧ Next.pc next ≠ .resetDecoder .start ∧
      Next.pc next ≠ .sendDecoder := by
  cases next with
  | done | stop _ | start _ _ | restorePaused _ _ => exact ⟨fun h => (by cases h),
      fun h => (by cases h), fun h => by cases h⟩

theorem pastLook_handle (env : Env) (p : Service) (msg : Msg) :
    pastLook (Next.pc (handle env p msg).2) = false := by
  have hne := fun index chunk => handle_ne_restorePaused env p msg index chunk
  cases hnext : (handle env p msg).2 with
  | done | stop _ | start _ _ => rfl
  | restorePaused index chunk => exact absurd hnext (hne index chunk)

/-- A start that has loaded its track passes for a restore as well. -/
theorem loaded_of_restored {index chunk : Nat} {p q : Service}
    (h : restorePausedTrack { env with idleAtStart := true } index chunk p = (.ok, q)) :
    (ensureTrackLoaded env index p).toBool = true := by
  unfold restorePausedTrack at h
  split at h
  · next err hprep =>
    obtain ⟨rfl, -⟩ := Prod.mk.inj h
    exact absurd hprep StateInvariant.prepareStart_ne_error_ok
  · next r hprep =>
    simp only [prepareStart] at hprep
    split at hprep
    · cases hprep
    · change ensureTrackLoaded env index p = .ok r at hprep
      rw [hprep]
      rfl

theorem inv_wentOn {after : AfterStop} (hs : Inv s) (hpc : s.pc = .stopped after)
    (hC : PausesSettled s (.service env)) :
    Inv { s with
      service := (afterStop env s.service after).1
      pc := Next.pc (afterStop env s.service after).2 } := by
  have hframe := frame_afterStop env s.service after
  have hpast : pastLook s.pc = true := by
    rw [hpc]
    rfl
  refine ⟨fun hplaying hpaused => ?_, fun hstart => by simp [next_pc] at hstart, fun _ hbusy => ?_⟩
  · refine Settled.mono ?_ hframe.active hframe.cancelled fun _ => id
    rcases hframe.paused hpaused with hp | ⟨track, rfl⟩
    · exact hs.settled (hframe.playing hplaying) hp
    · cases hfound : s.foundIdle with
      | false => exact .inl (hs.cancelled hpast hfound)
      | true =>
        refine hC ?_ hfound
        rw [pausesNext, hpc]
  · exact hframe.cancelled.trans ((hs.cancelled hpast hbusy).trans hframe.active.symm)

theorem inv_restored {index chunk : Nat} {p : Service} (hs : Inv s)
    (hpc : s.pc = .restoreLoading index chunk)
    (hrestore : restorePausedTrack { env with idleAtStart := true } index chunk s.service = (.ok, p))
    (hC : PausesSettled s (.service env)) :
    Inv { s with service := p, pc := .resetReader .restore } := by
  have hsession := session_restorePausedTrack hrestore
  simp only [session, Prod.mk.injEq] at hsession
  obtain ⟨-, -, hactive, hcancelled, -⟩ := hsession
  refine ⟨fun _ _ => Settled.mono ?_ hactive hcancelled fun _ => id,
    fun hstart => by simp at hstart, fun hpast => by cases hpast⟩
  cases hfound : s.foundIdle with
  | false =>
    refine .inl (hs.cancelled ?_ hfound)
    rw [hpc]
    rfl
  | true =>
    refine hC ?_ hfound
    rw [pausesNext, hpc]
    exact loaded_of_restored hrestore

theorem inv_service (hs : Inv s) (h : ServiceMove env s t) (hC : PausesSettled s (.service env)) :
    Inv t := by
  cases h with
  | handled msg rest hpc hqueue =>
    have hframe := frame_handle env s.service msg
    have hlook : pastLook (Next.pc (handle env s.service msg).2) = true → s.foundIdle = false →
        pastLook s.pc = true ∧ s.foundIdle = false := by
      intro hpast
      rw [pastLook_handle] at hpast
      cases hpast
    refine hs.keep (next_pc _) hlook ⟨hframe.playing, hframe.paused⟩ hframe.active hframe.cancelled
      fun g => Or.imp_left fun hm => ?_
    rw [hqueue]
    exact List.mem_cons_of_mem _ hm
  | foundIdle =>
    exact hs.keep ⟨fun h => (by cases h), fun h => (by cases h), fun h => by cases h⟩
      (fun _ hbusy => by cases hbusy) ⟨id, id⟩ rfl rfl fun _ => id
  | waited _ hpc =>
    exact hs.keep ⟨fun h => (by cases h), fun h => (by cases h), fun h => by cases h⟩
      (fun _ hbusy => ⟨by rw [hpc]; rfl, hbusy⟩) ⟨id, id⟩ rfl rfl fun _ => id
  | restoreChecked _ _ hpc =>
    exact hs.keep ⟨fun h => (by cases h), fun h => (by cases h), fun h => by cases h⟩
      (fun _ hbusy => ⟨by rw [hpc]; rfl, hbusy⟩) ⟨id, id⟩ rfl rfl fun _ => id
  | waitedFailed | checked =>
    exact hs.keep ⟨fun h => (by cases h), fun h => (by cases h), fun h => by cases h⟩
      (fun hpast => by cases hpast) ⟨id, id⟩ rfl rfl fun _ => id
  | requested => exact ⟨fun _ _ => .inl rfl, fun hstart => by simp at hstart, fun _ _ => rfl⟩
  | readerReset for_ hpc =>
    refine ⟨fun hplaying hpaused => hs.settled hplaying hpaused, fun hstart => ?_,
      fun hpast hbusy => ?_⟩
    · cases for_ with
      | start => exact hs.starting (.inl hpc)
      | stop _ _ | failedStart | restore => simp at hstart
    · refine hs.cancelled ?_ hbusy
      rw [hpc]
      cases for_ with
      | stop _ _ => rfl
      | start | failedStart | restore => cases hpast
  | decoderReset for_ hpc =>
    have hdropped : ∀ g, Outstanding { s with decoderCmd := none } g → Outstanding s g :=
      fun g ho => ho.imp_right fun ho => .inl (ho.resolve_right (fun h => by cases h))
    cases for_ with
    | stop after timedOut =>
      exact hs.keep ⟨fun h => (by cases h), fun h => (by cases h), fun h => by cases h⟩
        (fun _ hbusy => ⟨by rw [hpc]; rfl, hbusy⟩) ⟨id, id⟩ rfl rfl hdropped
    | failedStart | restore =>
      exact hs.keep ⟨fun h => (by cases h), fun h => (by cases h), fun h => by cases h⟩
        (fun hpast => by cases hpast) ⟨id, id⟩ rfl rfl hdropped
    | start =>
      have hpaused := hs.starting (.inr (.inl hpc))
      exact ⟨fun _ hp => (by cases hpaused.symm.trans hp), fun _ => hpaused,
        fun hpast => by cases hpast⟩
  | wentOn after hpc => exact inv_wentOn hs hpc hC
  | refused =>
    refine ⟨fun h => (by cases h), ?_, fun hpast => by cases hpast⟩
    rintro (h | h | h)
    all_goals cases h
  | begun => exact ⟨fun _ h => (by cases h), fun _ => rfl, fun hpast => by cases hpast⟩
  | decoderFull =>
    exact ⟨fun h => (by cases h), fun hstart => by simp at hstart, fun hpast => by cases hpast⟩
  | decoderSent hpc =>
    have hpaused := hs.starting (.inr (.inr hpc))
    exact ⟨fun _ hp => (by cases hpaused.symm.trans hp), fun hstart => by simp at hstart,
      fun hpast => by cases hpast⟩
  | readerFull =>
    exact ⟨fun h => (by cases h), fun hstart => by simp at hstart, fun hpast => by cases hpast⟩
  | readerSent hpc =>
    have hsession := session_finishStart env s.service
    simp only [session, Prod.mk.injEq] at hsession
    obtain ⟨hplaying, hpaused, hactive, hcancelled, -⟩ := hsession
    exact hs.keep ⟨fun h => (by cases h), fun h => (by cases h), fun h => by cases h⟩
      (fun hpast => by cases hpast) ⟨hplaying.symm.trans, hpaused.symm.trans⟩ hactive hcancelled
      fun _ => id
  | restored index chunk p hpc hrestore => exact inv_restored hs hpc hrestore hC

theorem inv_step (hs : Inv s) (hC : PausesSettled s a) (h : step s a = some t) : Inv t := by
  cases hby : a.byService with
  | false => exact inv_beside hs hby h
  | true =>
    cases a with
    | service env => exact inv_service hs (serviceMove_of_step h) hC
    | timeout =>
      rcases timeout_cases h with ⟨after, hpc, rfl⟩ | ⟨hpc, rfl⟩
      · exact hs.keep ⟨fun h => (by cases h), fun h => (by cases h), fun h => by cases h⟩
          (fun _ hbusy => ⟨by rw [hpc]; rfl, hbusy⟩) ⟨id, id⟩ rfl rfl fun _ => id
      · exact hs.keep ⟨fun h => (by cases h), fun h => (by cases h), fun h => by cases h⟩
          (fun hpast => by cases hpast) ⟨id, id⟩ rfl rfl fun _ => id
    | post _ | reader _ | decoder _ | setMode _ _ => cases hby

/-! ## A completion while paused -/

/-- A completion in the queue is stale while nothing is expected of it. -/
theorem stale_of_settled (hs : Settled s) {rest : List Msg}
    (hqueue : s.cmdQueue = .trackComplete generation :: rest) :
    ¬ (generation = s.service.activeGeneration ∧ generation ≠ s.service.cancelledGeneration) := by
  rintro ⟨rfl, huncancelled⟩
  rcases hs with hcancelled | hnone
  · exact huncancelled hcancelled.symm
  · refine hnone (.inl ?_)
    rw [hqueue]
    exact List.mem_cons_self

/-- **A pause is stable** in every run whose pauses are settled: the completion
that the service task receives while playing and paused leaves everything as it
was, and the service task goes back to wait. -/
theorem pause_stable (resumeRtc : Option ResumeState) (resumeNvs : Option ResumeBlob)
    {as : List Action} {s : State} {generation : Nat} {rest : List Msg} (env : Env)
    (hC : Along step PausesSettled (initState resumeRtc resumeNvs) as)
    (hrun : run step (initState resumeRtc resumeNvs) as = some s) (hpc : s.pc = .waiting)
    (hplaying : s.service.playing = true) (hpaused : s.service.paused = true)
    (hqueue : s.cmdQueue = .trackComplete generation :: rest) :
    step s (.service env) = some { s with cmdQueue := rest } := by
  have hinit : Inv (initState resumeRtc resumeNvs) :=
    ⟨fun h => (by cases h), fun hstart => by simp [initState] at hstart, fun hpast => by cases hpast⟩
  have hinv : Inv s := run_invariant (fun _ _ _ hs hC h => inv_step hs hC h) hinit hC hrun
  have hstale := stale_of_settled (hinv.settled hplaying hpaused) hqueue
  have hhandle : handle env s.service (.trackComplete generation) = (s.service, .done) := by
    rw [handle]
    exact StateInvariant.handleTrackComplete_stale env hstale
  simp only [step, serviceStep, hpc, hqueue, hhandle, Next.pc]

/-! ## A pause at the end of a track -/

/-- `PAUSE` is handled between the end of the track and its completion. -/
def pausedAtEnd : List Action :=
  played ++ [.post (.control .pause)] ++ idleStop ++ [.decoder .complete]

/-- `PAUSE` is handled while the track plays. -/
def pausedWithin : List Action :=
  inserted ++ [.reader .receive, .decoder .receive, .reader .clearBit, .decoder .clearBit,
    .post (.control .pause), .service calmEnv, .service calmEnv, .reader .finish,
    .decoder .finish] ++ List.replicate 4 (.service calmEnv) ++ [.decoder .complete]

theorem pause_stable_within :
    ∃ s, run step (initState none none) pausedWithin = some s ∧
      step s (.service calmEnv) = some { s with cmdQueue := [] } := by
  have hchecked : ((run step (initState none none) pausedWithin).map fun s =>
      (s.service.playing, s.service.paused, decide (s.pc = .waiting), s.cmdQueue)) =
        some (true, true, true, [.trackComplete 1]) := by
    decide +kernel
  obtain ⟨s, hrun, hs⟩ := Option.map_eq_some_iff.mp hchecked
  simp only [Prod.mk.injEq, decide_eq_true_eq] at hs
  obtain ⟨hplaying, hpaused, hpc, hqueue⟩ := hs
  have hC : Along step PausesSettled (initState none none) pausedWithin := by decide +kernel
  exact ⟨s, hrun, pause_stable none none calmEnv hC hrun hpc hplaying hpaused hqueue⟩

/-- **A pause at the end of a track does not last**: the stop finds the pipeline
idle and cancels nothing, so that the completion which comes after it starts the
next track. -/
theorem pause_undone :
    ¬ ∀ (resumeRtc : Option ResumeState) (resumeNvs : Option ResumeBlob) (as : List Action)
      (s : State) (generation : Nat) (rest : List Msg) (env : Env),
      run step (initState resumeRtc resumeNvs) as = some s → s.pc = .waiting →
      s.service.playing = true → s.service.paused = true →
      s.cmdQueue = .trackComplete generation :: rest →
        step s (.service env) = some { s with cmdQueue := rest } := by
  intro h
  have hchecked : ((run step (initState none none) pausedAtEnd).map fun s =>
      (s.service.playing, s.service.paused, decide (s.pc = .waiting), s.cmdQueue,
        (step s (.service calmEnv)).map (·.pc))) =
        some (true, true, true, [.trackComplete 1], some (.starting 1 0)) := by
    decide +kernel
  obtain ⟨s, hrun, hs⟩ := Option.map_eq_some_iff.mp hchecked
  simp only [Prod.mk.injEq, decide_eq_true_eq] at hs
  obtain ⟨hplaying, hpaused, hpc, hqueue, hstarts⟩ := hs
  rw [h none none pausedAtEnd s 1 [] calmEnv hrun hpc hplaying hpaused hqueue] at hstarts
  cases hpc.symm.trans (Option.some.inj hstarts)

end Jukeboy.Player.PauseStability
