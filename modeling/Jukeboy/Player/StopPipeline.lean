import Jukeboy.Player.Pipeline

/-! # A stop stops the pipeline

`player_service_stop_playback` goes by the idle bits, which a task that has
received its start command has not cleared yet. The stop then returns at once,
or its wait ends, over a session that is about to run. As long as no such
session is overlooked, a stop that returns without its warning leaves no session
that does not see it, and a pause leaves the pipeline idle until the resume. -/
namespace Jukeboy.Player.StopPipeline

open Jukeboy.Base.Runs
open Jukeboy.Player.State Jukeboy.Player.Pipeline
open Jukeboy.Player.Service hiding State Action step initState
open Jukeboy.Player.SeekRace (nextGeneration)
open Jukeboy.Player.StateInvariant (calmEnv)

variable {s t : State} {a : Action} {after : AfterStop} {generation : Nat}

/-! ## Sessions -/

/-- The generation whose start command the reader has received, until its
session ends. -/
def readerSession (s : State) : Option Nat :=
  match s.reader with
  | .received generation | .running generation => some generation
  | .idle => none

def decoderSession (s : State) : Option Nat :=
  match s.decoder with
  | .received generation | .running generation => some generation
  | .idle | .finishing _ _ => none

def InSession (s : State) (generation : Nat) : Prop :=
  readerSession s = some generation ∨ decoderSession s = some generation

/-- The generations whose start command a task has received with its idle bit
still set. -/
def received (s : State) : List Nat :=
  (match s.reader with
    | .received generation => [generation]
    | _ => []) ++
  (match s.decoder with
    | .received generation => [generation]
    | _ => [])

/-- Nothing runs and no start command waits. -/
structure Quiet (s : State) : Prop where
  sessions : ∀ generation, ¬ InSession s generation
  readerCmd : s.readerCmd = none
  decoderCmd : s.decoderCmd = none

/-- While both idle bits are set, a session is one just received. -/
theorem received_of_idle (hidle : s.pipelineIdle = true) (h : InSession s generation) :
    generation ∈ received s := by
  simp only [State.pipelineIdle, Bool.and_eq_true] at hidle
  obtain ⟨hr, hd⟩ := hidle
  unfold InSession readerSession decoderSession at h
  unfold received
  rcases h with h | h
  · cases hreader : s.reader with
    | idle => simp [hreader] at h
    | received g =>
      simp only [hreader, Option.some.injEq] at h
      simp [h]
    | running g => simp [hreader, ReaderPc.idleBit] at hr
  · cases hdecoder : s.decoder with
    | idle | finishing _ _ => simp [hdecoder] at h
    | received g =>
      simp only [hdecoder, Option.some.injEq] at h
      simp [h]
    | running g => simp [hdecoder, DecoderPc.idleBit] at hd

theorem idle_of_no_session (h : ∀ generation, ¬ InSession s generation) :
    s.pipelineIdle = true := by
  unfold InSession readerSession decoderSession at h
  unfold State.pipelineIdle
  cases hreader : s.reader with
  | running generation => exact absurd (.inl (by rw [hreader])) (h generation)
  | idle | received _ =>
    cases hdecoder : s.decoder with
    | running generation => exact absurd (.inr (by rw [hdecoder])) (h generation)
    | idle | received _ | finishing _ _ => rfl

theorem readerStep_session {l : ReaderLabel} (h : readerStep s l = some t) :
    t.decoder = s.decoder ∧ t.decoderCmd = s.decoderCmd ∧
      (t.readerCmd = s.readerCmd ∨ t.readerCmd = none) ∧
      (readerSession t = some generation →
        readerSession s = some generation ∨ (l = .receive ∧ s.readerCmd = some generation)) := by
  unfold readerSession
  cases l with
  | receive =>
    simp only [readerStep] at h
    split at h
    · next hidle hcmd =>
      cases h
      exact ⟨rfl, rfl, .inr rfl, fun hg => .inr ⟨rfl, hcmd.trans hg⟩⟩
    · cases h
  | clearBit =>
    simp only [readerStep] at h
    split at h
    · next hreceived =>
      cases h
      exact ⟨rfl, rfl, .inl rfl, fun hg => .inl (by rw [hreceived]; exact hg)⟩
    · cases h
  | windowed file io chunk =>
    simp only [readerStep] at h
    split at h
    · cases h
      exact ⟨rfl, rfl, .inl rfl, .inl⟩
    · cases h
  | finish =>
    simp only [readerStep] at h
    split at h
    · cases h
      exact ⟨rfl, rfl, .inl rfl, fun h => by cases h⟩
    · cases h

theorem decoderStep_session {l : DecoderLabel} (h : decoderStep s l = some t) :
    t.reader = s.reader ∧ t.readerCmd = s.readerCmd ∧
      (t.decoderCmd = s.decoderCmd ∨ t.decoderCmd = none) ∧
      (decoderSession t = some generation →
        decoderSession s = some generation ∨ (l = .receive ∧ s.decoderCmd = some generation)) := by
  unfold decoderSession
  cases l with
  | receive =>
    simp only [decoderStep] at h
    split at h
    · next hidle hcmd =>
      cases h
      exact ⟨rfl, rfl, .inr rfl, fun hg => .inr ⟨rfl, hcmd.trans hg⟩⟩
    · cases h
  | clearBit =>
    simp only [decoderStep] at h
    split at h
    · next hreceived =>
      cases h
      exact ⟨rfl, rfl, .inl rfl, fun hg => .inl (by rw [hreceived]; exact hg)⟩
    · cases h
  | decoded cart chunk crcOk =>
    simp only [decoderStep] at h
    split at h
    · cases h
      exact ⟨rfl, rfl, .inl rfl, .inl⟩
    · cases h
  | finish =>
    simp only [decoderStep] at h
    split at h
    · cases h
      exact ⟨rfl, rfl, .inl rfl, fun h => by cases h⟩
    · cases h
  | complete =>
    simp only [decoderStep, State.queueMsg] at h
    split at h
    · split at h
      all_goals
        cases h
        exact ⟨rfl, rfl, .inl rfl, fun h => by cases h⟩
    · cases h

theorem mem_of_same_or_none {o o' : Option Nat} (h : o' = o ∨ o' = none) (hg : generation ∈ o') :
    generation ∈ o := by
  rcases h with h | h
  · rwa [← h]
  · rw [h] at hg
    cases hg

/-- No command is left where none was. -/
theorem none_of_mem {o o' : Option Nat} (h : ∀ g ∈ o', g ∈ o) (hnone : o = none) : o' = none := by
  subst hnone
  exact Option.eq_none_iff_forall_not_mem.mpr fun g hg => by cases h g hg

/-- A step beside the service task sends no command, and begins a session only
by receiving its command. -/
structure Bystander (a : Action) (s t : State) : Prop where
  readerCmd : ∀ generation ∈ t.readerCmd, generation ∈ s.readerCmd
  decoderCmd : ∀ generation ∈ t.decoderCmd, generation ∈ s.decoderCmd
  sessions : ∀ generation, InSession t generation →
    InSession s generation ∨ (a = .reader .receive ∧ s.readerCmd = some generation) ∨
      (a = .decoder .receive ∧ s.decoderCmd = some generation)

theorem bystander_step (ha : a.byService = false) (h : step s a = some t) : Bystander a s t := by
  cases a with
  | service _ | timeout => cases ha
  | post msg =>
    simp only [step, State.queueMsg] at h
    split at h
    · cases h
    · split at h
      all_goals
        cases h
        exact ⟨fun _ => id, fun _ => id, fun _ => .inl⟩
  | setMode mode random =>
    cases h
    exact ⟨fun _ => id, fun _ => id, fun _ => .inl⟩
  | reader l =>
    have hstep := fun g => @readerStep_session s t g l h
    obtain ⟨hdecoder, hdcmd, hrcmd, -⟩ := hstep 0
    refine ⟨fun g => mem_of_same_or_none hrcmd, fun g => mem_of_same_or_none (.inl hdcmd),
      fun g hg => ?_⟩
    rcases hg with hg | hg
    · rcases (hstep g).2.2.2 hg with hold | ⟨rfl, hcmd⟩
      · exact .inl (.inl hold)
      · exact .inr (.inl ⟨rfl, hcmd⟩)
    · refine .inl (.inr ?_)
      rw [← hg, decoderSession, decoderSession, hdecoder]
  | decoder l =>
    have hstep := fun g => @decoderStep_session s t g l h
    obtain ⟨hreader, hrcmd, hdcmd, -⟩ := hstep 0
    refine ⟨fun g => mem_of_same_or_none (.inl hrcmd), fun g => mem_of_same_or_none hdcmd,
      fun g hg => ?_⟩
    rcases hg with hg | hg
    · refine .inl (.inl ?_)
      rw [← hg, readerSession, readerSession, hreader]
    · rcases (hstep g).2.2.2 hg with hold | ⟨rfl, hcmd⟩
      · exact .inl (.inr hold)
      · exact .inr (.inr ⟨rfl, hcmd⟩)

/-! ## The invariant -/

/-- `PAUSE` alone keeps the pipeline stopped after its stop. -/
def pauses : AfterStop → Bool
  | .pause _ => true
  | _ => false

/-- A session that a stop must not overlook: one that does not see the stop, and
for a pause any. -/
def Matters (s : State) (after : AfterStop) (generation : Nat) : Prop :=
  s.shouldStop generation = false ∨ pauses after = true

instance : Decidable (Matters s after generation) :=
  inferInstanceAs (Decidable (_ ∨ _))

/-- No session is left that matters. -/
def Halted (s : State) (after : AfterStop) : Prop :=
  ∀ generation, InSession s generation → ¬ Matters s after generation

/-- What has been achieved, by where the service task is. -/
def Stage (s : State) : Prop :=
  match s.pc with
  | .awaitingIdle (.stop _) => s.service.stopRequested = true
  | .resetReader (.stop after false) => Halted s after
  | .resetDecoder (.stop after false) => Halted s after ∧ s.readerCmd = none
  | .stopped after =>
    ∃ timedOut, s.lastStop = some (after, timedOut) ∧
      (timedOut = false → Halted s after ∧ s.readerCmd = none ∧ s.decoderCmd = none)
  | .restoring _ _ | .restoreLoading _ _ => ∃ timedOut, s.lastStop = some (.inserted, timedOut)
  | .resetReader .start | .resetDecoder .start | .sendDecoder | .sendReader =>
    s.service.paused = false
  | _ => True

/-- No start command and no session has the number 0. -/
structure Numbered (s : State) : Prop where
  sessions : ∀ generation, InSession s generation → generation ≠ 0
  readerCmd : ∀ generation ∈ s.readerCmd, generation ≠ 0
  decoderCmd : ∀ generation ∈ s.decoderCmd, generation ≠ 0
  starting : startUnderWay s.pc = true → s.service.activeGeneration ≠ 0

structure Inv (s : State) : Prop where
  stage : Stage s
  paused : ∀ track, s.service.paused = true → s.lastStop = some (.pause track, false) → Quiet s

/-- The stop that looks at the idle bits next. Past its request only a pause has to
mind who has not seen it yet. -/
def looking : ServicePc → Option AfterStop
  | .stopping after => some after
  | .awaitingIdle (.stop after) => if pauses after then some after else none
  | _ => none

/-- The stop that is between its look at the idle bits and the end of the resets. -/
def resetting : ServicePc → Option AfterStop
  | .resetReader (.stop after false) | .resetDecoder (.stop after false) => some after
  | _ => none

/-- **When a stop overlooks no session**: where it finds both idle bits set, no
task has received a start command that matters, and until its resets have
emptied the command queues no task receives one. -/
def Noticed (s : State) : Action → Prop
  | .service _ =>
    ∀ after ∈ looking s.pc, s.pipelineIdle = true →
      ∀ generation ∈ received s, ¬ Matters s after generation
  | .reader .receive =>
    ∀ after ∈ resetting s.pc, ∀ generation ∈ s.readerCmd, ¬ Matters s after generation
  | .decoder .receive =>
    ∀ after ∈ resetting s.pc, ∀ generation ∈ s.decoderCmd, ¬ Matters s after generation
  | _ => True

instance (s : State) : ∀ a, Decidable (Noticed s a)
  | .service _ => inferInstanceAs (Decidable (∀ after ∈ looking s.pc, s.pipelineIdle = true →
      ∀ generation ∈ received s, ¬ Matters s after generation))
  | .reader .receive => inferInstanceAs (Decidable (∀ after ∈ resetting s.pc,
      ∀ generation ∈ s.readerCmd, ¬ Matters s after generation))
  | .decoder .receive => inferInstanceAs (Decidable (∀ after ∈ resetting s.pc,
      ∀ generation ∈ s.decoderCmd, ¬ Matters s after generation))
  | .timeout | .post _ | .setMode _ _ | .reader .clearBit | .reader (.windowed ..)
  | .reader .finish | .decoder .clearBit | .decoder (.decoded ..) | .decoder .finish
  | .decoder .complete => isTrue trivial

/-- A step beside the service task keeps a stop halted: a session that begins
during the resets does not matter. -/
theorem halted_beside (ha : a.byService = false) (h : step s a = some t) (hC : Noticed s a)
    (hpc : resetting s.pc = some after ∨ (s.readerCmd = none ∧ s.decoderCmd = none))
    (hs : Halted s after) : Halted t after := by
  intro g hg
  have hmatters : Matters t after g → Matters s after g :=
    fun hm => hm.imp_left ((beside_step ha h).shouldStop g).symm.trans
  refine fun hm => ?_
  rcases (bystander_step ha h).sessions g hg with hold | ⟨rfl, hcmd⟩ | ⟨rfl, hcmd⟩
  · exact hs g hold (hmatters hm)
  · rcases hpc with hpc | ⟨hnone, -⟩
    · exact hC after hpc g hcmd (hmatters hm)
    · rw [hnone] at hcmd
      cases hcmd
  · rcases hpc with hpc | ⟨-, hnone⟩
    · exact hC after hpc g hcmd (hmatters hm)
    · rw [hnone] at hcmd
      cases hcmd

theorem Quiet.beside (hq : Quiet s) (ha : a.byService = false) (h : step s a = some t) :
    Quiet t := by
  have hby := bystander_step ha h
  refine ⟨fun g hg => ?_, none_of_mem hby.readerCmd hq.readerCmd,
    none_of_mem hby.decoderCmd hq.decoderCmd⟩
  rcases hby.sessions g hg with hold | ⟨-, hcmd⟩ | ⟨-, hcmd⟩
  · exact hq.sessions g hold
  · rw [hq.readerCmd] at hcmd
    cases hcmd
  · rw [hq.decoderCmd] at hcmd
    cases hcmd

theorem paused_of_session {p q : Service} (h : session q = session p) : q.paused = p.paused :=
  congrArg (fun x => x.2.1) h

theorem requested_of_session {p q : Service} (h : session q = session p) :
    q.stopRequested = p.stopRequested := congrArg (fun x => x.2.2.2.2) h

theorem inv_beside (ha : a.byService = false) (h : step s a = some t) (hC : Noticed s a)
    (hs : Inv s) : Inv t := by
  have hbeside := beside_step ha h
  have hby := bystander_step ha h
  have hpaused := paused_of_session hbeside.session
  refine ⟨?_, fun track hp hl => ?_⟩
  · have hstage := hs.stage
    unfold Stage at hstage ⊢
    rw [hbeside.pc, hbeside.lastStop, hpaused, requested_of_session hbeside.session]
    split
    · next after hpc =>
      simpa only [hpc] using hstage
    · next after hpc =>
      simp only [hpc] at hstage
      exact halted_beside ha h hC (.inl (by rw [hpc]; rfl)) hstage
    · next after hpc =>
      simp only [hpc] at hstage
      exact ⟨halted_beside ha h hC (.inl (by rw [hpc]; rfl)) hstage.1, none_of_mem hby.readerCmd hstage.2⟩
    · next after hpc =>
      simp only [hpc] at hstage
      obtain ⟨timedOut, hlast, hclean⟩ := hstage
      refine ⟨timedOut, hlast, fun hout => ?_⟩
      obtain ⟨hhalted, hr, hd⟩ := hclean hout
      exact ⟨halted_beside ha h hC (.inr ⟨hr, hd⟩) hhalted, none_of_mem hby.readerCmd hr,
        none_of_mem hby.decoderCmd hd⟩
    on_goal -1 => trivial
    all_goals
      next hpc =>
      simpa only [hpc] using hstage
  · rw [hbeside.lastStop] at hl
    exact (hs.paused track (hpaused.symm.trans hp) hl).beside ha h

/-! ## Every session has a number -/

theorem nextGeneration_ne_zero (generation : Nat) : nextGeneration generation ≠ 0 := by
  unfold nextGeneration
  dsimp only
  split
  · exact one_ne_zero
  · assumption

theorem numbered_init (resumeRtc : Option ResumeState) (resumeNvs : Option ResumeBlob) :
    Numbered (initState resumeRtc resumeNvs) := by
  constructor
  · rintro g (hg | hg)
    · cases hg
    · cases hg
  · intro g hg
    cases hg
  · intro g hg
    cases hg
  · intro hstart
    cases hstart

theorem numbered_beside (ha : a.byService = false) (h : step s a = some t) (hs : Numbered s) :
    Numbered t := by
  have hby := bystander_step ha h
  have hbeside := beside_step ha h
  have hsession := hbeside.session
  simp only [session, Prod.mk.injEq] at hsession
  refine ⟨fun g hg => ?_, fun g hg => ?_, fun g hg => ?_, fun hstart => ?_⟩
  · rcases hby.sessions g hg with hold | ⟨-, hcmd⟩ | ⟨-, hcmd⟩
    · exact hs.sessions g hold
    · exact hs.readerCmd g hcmd
    · exact hs.decoderCmd g hcmd
  · exact hs.readerCmd g (hby.readerCmd g hg)
  · exact hs.decoderCmd g (hby.decoderCmd g hg)
  · rw [hbeside.pc] at hstart
    rw [hsession.2.2.1]
    exact hs.starting hstart

/-- A move that leaves the tasks alone, and begins no start. -/
theorem Numbered.keep (hs : Numbered s)
    (hsame : (t.reader, t.decoder) = (s.reader, s.decoder))
    (hreader : ∀ g ∈ t.readerCmd, g ∈ s.readerCmd)
    (hdecoder : ∀ g ∈ t.decoderCmd, g ∈ s.decoderCmd)
    (hstart : startUnderWay t.pc = true → t.service.activeGeneration ≠ 0) : Numbered t := by
  obtain ⟨hr, hd⟩ := Prod.mk.inj hsame
  refine ⟨fun g hg => hs.sessions g ?_, fun g hg => hs.readerCmd g (hreader g hg),
    fun g hg => hs.decoderCmd g (hdecoder g hg), hstart⟩
  unfold InSession readerSession decoderSession at hg ⊢
  rwa [hr, hd] at hg

theorem numbered_service {env : Env} (h : ServiceMove env s t) (hs : Numbered s) : Numbered t := by
  have hstarting := hs.starting
  cases h with
  | handled | wentOn =>
    refine hs.keep rfl (fun _ => id) (fun _ => id) fun hstart => ?_
    rw [startUnderWay_next] at hstart
    cases hstart
  | foundIdle | requested | waited | waitedFailed | refused | checked | decoderFull | readerFull
  | restoreChecked | restored =>
    exact hs.keep rfl (fun _ => id) (fun _ => id) fun hstart => by cases hstart
  | readerReset for_ hpc =>
    refine hs.keep rfl (fun _ hg => by cases hg) (fun _ => id) fun hstart => ?_
    rw [hpc] at hstarting
    cases for_ with
    | start => exact hstarting rfl
    | stop _ _ | failedStart | restore => cases hstart
  | decoderReset for_ hpc =>
    rw [hpc] at hstarting
    cases for_ with
    | start => exact hs.keep rfl (fun _ => id) (fun _ hg => by cases hg) fun _ => hstarting rfl
    | stop _ _ | failedStart | restore =>
      exact hs.keep rfl (fun _ => id) (fun _ hg => by cases hg) fun hstart => by cases hstart
  | begun index chunk p hpc hload =>
    have hnew := session_beginTrack env index chunk p
    simp only [session, Prod.mk.injEq] at hnew
    refine hs.keep rfl (fun _ => id) (fun _ => id) fun _ => ?_
    rw [hnew.2.2.1]
    exact nextGeneration_ne_zero _
  | decoderSent hpc =>
    have hactive := hstarting (by rw [hpc]; rfl)
    exact ⟨hs.sessions, hs.readerCmd, fun g hg => Option.some.inj hg ▸ hactive, fun _ => hactive⟩
  | readerSent hpc =>
    have hactive := hstarting (by rw [hpc]; rfl)
    exact ⟨hs.sessions, fun g hg => Option.some.inj hg ▸ hactive, hs.decoderCmd,
      fun hstart => by cases hstart⟩

theorem numbered_step (hs : Numbered s) (h : step s a = some t) : Numbered t := by
  cases hby : a.byService with
  | false => exact numbered_beside hby h hs
  | true =>
    cases a with
    | service env => exact numbered_service (serviceMove_of_step h) hs
    | timeout =>
      rcases timeout_cases h with ⟨after, hpc, rfl⟩ | ⟨hpc, rfl⟩
      all_goals exact hs.keep rfl (fun _ => id) (fun _ => id) fun hstart => by cases hstart
    | post _ | reader _ | decoder _ | setMode _ _ => cases hby

/-! ## Steps of the service task -/

theorem inserted_of_restorePaused {env : Env} {p : Service} {index chunk : Nat}
    (h : (afterStop env p after).2 = .restorePaused index chunk) : after = .inserted := by
  cases after with
  | inserted => rfl
  | start _ | seek | removed | pause _ => cases h
  | previous =>
    rw [afterStop] at h
    split at h <;> cases h

/-- A handler that goes on does so with a wait, a stop or a start. -/
theorem stage_next {p : Service} {rest : List Msg} {next : Next}
    (h : ∀ index chunk, next = .restorePaused index chunk →
      ∃ timedOut, s.lastStop = some (.inserted, timedOut)) :
    Stage { s with service := p, cmdQueue := rest, pc := Next.pc next } := by
  cases next with
  | done | stop _ | start _ _ => trivial
  | restorePaused index chunk => exact h index chunk rfl

/-- A move that leaves the tasks and their commands alone, and pauses nothing. -/
theorem Inv.keep (hs : Inv s)
    (hsame : (t.reader, t.decoder, t.readerCmd, t.decoderCmd, t.lastStop) =
      (s.reader, s.decoder, s.readerCmd, s.decoderCmd, s.lastStop))
    (hpaused : t.service.paused = true → s.service.paused = true) (hstage : Stage t) : Inv t := by
  simp only [Prod.mk.injEq] at hsame
  obtain ⟨hreader, hdecoder, hrcmd, hdcmd, hlast⟩ := hsame
  refine ⟨hstage, fun track hp hl => ?_⟩
  obtain ⟨hsessions, hr, hd⟩ := hs.paused track (hpaused hp) (hlast ▸ hl)
  refine ⟨fun g hg => hsessions g ?_, hrcmd.trans hr, hdcmd.trans hd⟩
  unfold InSession readerSession decoderSession at hg ⊢
  rwa [hreader, hdecoder] at hg

theorem inv_readerReset {for_ : ResetFor} (hpc : s.pc = .resetReader for_) (hs : Inv s) :
    Inv { s with readerCmd := none, pc := .resetDecoder for_ } := by
  have hstage := hs.stage
  rw [Stage, hpc] at hstage
  refine ⟨?_, fun track hp hl => ?_⟩
  · cases for_ with
    | stop after timedOut =>
      cases timedOut with
      | true => trivial
      | false => exact ⟨hstage, rfl⟩
    | failedStart | restore => trivial
    | start => exact hstage
  · obtain ⟨hsessions, -, hd⟩ := hs.paused track hp hl
    exact ⟨hsessions, rfl, hd⟩

/-- The second reset ends a stop: if it was clean, nothing that matters is left. -/
theorem inv_decoderReset {for_ : ResetFor} (hpc : s.pc = .resetDecoder for_) (hs : Inv s) :
    Inv ({ s with decoderCmd := none }.afterReset for_) := by
  have hstage := hs.stage
  rw [Stage, hpc] at hstage
  have hkeep (track : _) (hp : s.service.paused = true)
      (hl : s.lastStop = some (.pause track, false)) : Quiet { s with decoderCmd := none } := by
    obtain ⟨hsessions, hr, -⟩ := hs.paused track hp hl
    exact ⟨hsessions, hr, rfl⟩
  cases for_ with
  | stop after timedOut =>
    cases timedOut with
    | true => exact ⟨⟨true, rfl, fun h => by cases h⟩, fun _ _ hl => by cases hl⟩
    | false =>
      refine ⟨⟨false, rfl, fun _ => ⟨hstage.1, hstage.2, rfl⟩⟩, fun track _ hl => ?_⟩
      cases hl
      exact ⟨fun g hg => hstage.1 g hg (.inr rfl), hstage.2, rfl⟩
  | failedStart | restore =>
    refine ⟨trivial, fun track hp hl => ?_⟩
    obtain ⟨hsessions, hr, hd⟩ := hkeep track hp hl
    exact ⟨hsessions, hr, hd⟩
  | start =>
    refine ⟨hstage, fun track hp hl => ?_⟩
    obtain ⟨hsessions, hr, hd⟩ := hkeep track hp hl
    exact ⟨hsessions, hr, hd⟩

/-- The handler that paused goes on: its stop has left nothing. -/
theorem inv_wentOn (env : Env) (hpc : s.pc = .stopped after) (hs : Inv s) :
    Inv { s with
      service := (afterStop env s.service after).1
      pc := Next.pc (afterStop env s.service after).2 } := by
  have hstage := hs.stage
  rw [Stage, hpc] at hstage
  obtain ⟨timedOut, hlast, hclean⟩ := hstage
  refine ⟨stage_next fun index chunk hnext => ?_, fun track _ hl => ?_⟩
  · cases inserted_of_restorePaused hnext
    exact ⟨timedOut, hlast⟩
  · have hsame : some (after, timedOut) = some (AfterStop.pause track, false) := hlast.symm.trans hl
    cases hsame
    obtain ⟨hhalted, hr, hd⟩ := hclean rfl
    exact ⟨fun g hg => hhalted g hg (.inr rfl), hr, hd⟩

theorem inv_service {env : Env} (h : ServiceMove env s t)
    (hC : ∀ after, looking s.pc = some after → s.pipelineIdle = true →
      ∀ generation ∈ received s, ¬ Matters s after generation)
    (hnumbered : Numbered s) (hs : Inv s) : Inv t := by
  have hstage := hs.stage
  unfold Stage at hstage
  cases h with
  | handled msg rest hpc hqueue =>
    refine hs.keep rfl (frame_handle env s.service msg).paused (stage_next fun index chunk hnext => ?_)
    exact absurd hnext (handle_ne_restorePaused env s.service msg index chunk)
  | foundIdle after hpc hidle =>
    have hlook : looking s.pc = some after := by rw [hpc]; rfl
    exact hs.keep rfl id fun g hg => hC after hlook hidle g (received_of_idle hidle hg)
  | waited after hpc hidle =>
    simp only [hpc] at hstage
    refine hs.keep rfl id fun g hg => ?_
    cases hpauses : pauses after with
    | true =>
      have hlook : looking s.pc = some after := by rw [hpc, looking, if_pos hpauses]
      exact hC after hlook hidle g (received_of_idle hidle hg)
    | false =>
      -- the request has been seen by all that are there
      have hstops : s.shouldStop g = true := by
        rw [State.shouldStop, if_neg (hnumbered.sessions g hg), hstage]
        rfl
      rintro (hrunning | hpaused)
      · exact absurd (hstops.symm.trans hrunning) Bool.noConfusion
      · exact absurd (hpauses.symm.trans hpaused) Bool.noConfusion
  | requested after hpc => exact hs.keep rfl id rfl
  | waitedFailed hpc | refused _ _ hpc | checked _ _ hpc _
  | decoderFull hpc => exact hs.keep rfl id trivial
  | readerReset for_ hpc => exact inv_readerReset hpc hs
  | decoderReset for_ hpc => exact inv_decoderReset hpc hs
  | wentOn after hpc => exact inv_wentOn env hpc hs
  | begun index chunk p hpc hload => exact ⟨rfl, fun _ h => by cases h⟩
  | decoderSent hpc =>
    simp only [hpc] at hstage
    exact ⟨hstage, fun _ hp => by cases hstage.symm.trans hp⟩
  | readerFull hpc => exact hs.keep rfl id trivial
  | readerSent hpc =>
    simp only [hpc] at hstage
    have hpaused := paused_of_session (session_finishStart env s.service)
    exact ⟨trivial, fun _ hp => by cases (hpaused.trans hstage).symm.trans hp⟩
  | restoreChecked index chunk hpc hchecks =>
    simp only [hpc] at hstage
    exact hs.keep rfl id hstage
  | restored index chunk p hpc hrestore =>
    simp only [hpc] at hstage
    obtain ⟨timedOut, hlast⟩ := hstage
    exact ⟨trivial, fun track _ hl => by cases hlast.symm.trans hl⟩

theorem inv_step (hnumbered : Numbered s) (hs : Inv s) (hC : Noticed s a)
    (h : step s a = some t) : Inv t := by
  cases hby : a.byService with
  | false => exact inv_beside hby h hC hs
  | true =>
    cases a with
    | service env =>
      exact inv_service (serviceMove_of_step h) hC hnumbered hs
    | timeout =>
      rcases timeout_cases h with ⟨after, hpc, rfl⟩ | ⟨hpc, rfl⟩
      all_goals exact hs.keep rfl id trivial
    | post _ | reader _ | decoder _ | setMode _ _ => cases hby

/-! ## What a stop waits for -/

/-- **A stop stops the pipeline** in every run in which no stop overlooks a
session: when it has returned without its warning, every session there is sees
the stop, and while `PAUSE` has set `s_paused` after such a stop there is no
session at all and a resume finds both idle bits set. -/
theorem stop_stops_pipeline (resumeRtc : Option ResumeState) (resumeNvs : Option ResumeBlob)
    {as : List Action} {s : State} (hC : Along step Noticed (initState resumeRtc resumeNvs) as)
    (hrun : run step (initState resumeRtc resumeNvs) as = some s) :
    (∀ after generation, s.pc = .stopped after → s.lastStop = some (after, false) →
        InSession s generation → s.shouldStop generation = true) ∧
      ∀ track, s.service.paused = true → s.lastStop = some (.pause track, false) →
        (∀ generation, ¬ InSession s generation) ∧ s.pipelineIdle = true := by
  have hinit : Inv (initState resumeRtc resumeNvs) := ⟨trivial, fun _ h => by cases h⟩
  obtain ⟨hinv, -⟩ := run_invariant
    (fun _ _ _ hs hC h => And.intro (inv_step hs.2 hs.1 hC h) (numbered_step hs.2 h))
    ⟨hinit, numbered_init resumeRtc resumeNvs⟩ hC hrun
  refine ⟨fun after generation hpc hlast hg => ?_, fun track hpaused hlast => ?_⟩
  · have hstage := hinv.stage
    rw [Stage, hpc] at hstage
    obtain ⟨timedOut, hlast', hclean⟩ := hstage
    cases hlast'.symm.trans hlast
    have hmatters := (hclean rfl).1 generation hg
    cases hstop : s.shouldStop generation with
    | true => rfl
    | false => exact absurd (.inl hstop) hmatters
  · have hquiet := hinv.paused track hpaused hlast
    exact ⟨hquiet.sessions, idle_of_no_session hquiet.sessions⟩

/-! ## A pause right after the start -/

/-- The last stop was that of a `PAUSE`, and ended without the warning. -/
def pausedLast (s : State) : Bool := s.lastStop.any fun stop => pauses stop.1 && !stop.2

theorem pause_of_pausedLast (h : pausedLast s = true) :
    ∃ track, s.lastStop = some (.pause track, false) := by
  unfold pausedLast at h
  obtain ⟨⟨after, timedOut⟩, hlast, hstop⟩ := (Option.any_eq_true ..).mp h
  cases after with
  | pause track =>
    cases timedOut with
    | false => exact ⟨track, hlast⟩
    | true => cases hstop
  | start _ | previous | seek | inserted | removed => cases hstop

/-- Both tasks receive their start command, `PAUSE` is handled, and both clear
their idle bit. -/
def overtaken : List Action :=
  inserted ++ [.reader .receive, .decoder .receive, .post (.control .pause)] ++ idleStop ++
    [.reader .clearBit, .decoder .clearBit]

/-- Both tasks run when `PAUSE` is handled, and end their sessions. -/
def noticed : List Action :=
  inserted ++ [.reader .receive, .decoder .receive, .reader .clearBit, .decoder .clearBit,
    .post (.control .pause), .service calmEnv, .service calmEnv, .reader .finish,
    .decoder .finish] ++ List.replicate 4 (.service calmEnv)

theorem stop_stops_pipeline_noticed :
    ∃ s, run step (initState none none) noticed = some s ∧ s.service.paused = true ∧
      (∀ generation, ¬ InSession s generation) ∧ s.pipelineIdle = true := by
  have hchecked : ((run step (initState none none) noticed).map fun s =>
      (s.service.paused, pausedLast s)) = some (true, true) := by
    decide +kernel
  obtain ⟨s, hrun, hs⟩ := Option.map_eq_some_iff.mp hchecked
  obtain ⟨hpaused, hlast⟩ := Prod.mk.inj hs
  obtain ⟨track, hlast⟩ := pause_of_pausedLast hlast
  have hC : Along step Noticed (initState none none) noticed := by decide +kernel
  exact ⟨s, hrun, hpaused,
    (stop_stops_pipeline none none hC hrun).2 track hpaused hlast⟩

/-- **A pause right after the start leaves the track playing**: the stop finds
both idle bits set although both tasks have their start command, resets the
empty command queues and returns, and both sessions run while the player is
paused. -/
theorem pause_overtakes_start :
    ¬ ∀ (resumeRtc : Option ResumeState) (resumeNvs : Option ResumeBlob) (as : List Action)
      (s : State), run step (initState resumeRtc resumeNvs) as = some s →
      (∀ after generation, s.pc = .stopped after → s.lastStop = some (after, false) →
          InSession s generation → s.shouldStop generation = true) ∧
        ∀ track, s.service.paused = true → s.lastStop = some (.pause track, false) →
          (∀ generation, ¬ InSession s generation) ∧ s.pipelineIdle = true := by
  intro h
  have hchecked : ((run step (initState none none) overtaken).map fun s =>
      (s.service.paused, pausedLast s, s.pipelineIdle)) = some (true, true, false) := by
    decide +kernel
  obtain ⟨s, hrun, hs⟩ := Option.map_eq_some_iff.mp hchecked
  simp only [Prod.mk.injEq] at hs
  obtain ⟨hpaused, hlast, hbusy⟩ := hs
  obtain ⟨track, hlast⟩ := pause_of_pausedLast hlast
  have hidle := ((h none none overtaken s hrun).2 track hpaused hlast).2
  cases hidle.symm.trans hbusy

end Jukeboy.Player.StopPipeline
