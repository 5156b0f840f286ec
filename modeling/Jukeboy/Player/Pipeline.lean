import Jukeboy.Player.StateInvariant

/-! # The service task and the pipeline tasks

The service task, the reader task and the decoder task run side by side. A
pipeline task receives its start command and clears its idle bit in two steps,
so that the bit lags behind the queue; the service task looks at the bits, asks
for a stop, waits, and resets the command queues in steps of its own. When a
decoder session ends, the decoder sets its bit and then queues the completion
with a zero timeout. -/
namespace Jukeboy.Player.Pipeline

open Jukeboy.Base Jukeboy.Base.Runs Jukeboy.Formats.Jbm
open Jukeboy.Player.Track Jukeboy.Player.State Jukeboy.Player.Service

/-- `PLAYER_SVC_QUEUE_DEPTH`. -/
def queueDepth : Nat := 8

/-! ## The tasks -/

/-- What `player_service_wait_for_playback_stop` is called for: a stop, or a
start whose reader command could not be queued. -/
inductive WaitFor where
  | stop (after : AfterStop)
  | failedStart
deriving DecidableEq, Repr

/-- What `player_service_reset_pipeline` is called for. `timedOut` says that the
wait of the stop ended with its warning. -/
inductive ResetFor where
  | stop (after : AfterStop) (timedOut : Bool)
  | failedStart
  | start
  | restore
deriving DecidableEq, Repr

/-- Where the service task is: waiting for a message, in
`player_service_stop_playback` and past it, in a reset of the two command
queues, in `player_service_start_track` or `player_service_restore_paused_track`. -/
inductive ServicePc where
  | waiting
  | stopping (after : AfterStop)
  | awaitingIdle (for_ : WaitFor)
  | resetReader (for_ : ResetFor)
  | resetDecoder (for_ : ResetFor)
  | stopped (after : AfterStop)
  | starting (index chunk : Nat)
  | loading (index chunk : Nat)
  | sendDecoder
  | sendReader
  | restoring (index chunk : Nat)
  | restoreLoading (index chunk : Nat)
deriving DecidableEq, Repr

/-- Where the reader task is: blocked on its command queue, past the receive
with its idle bit still set, or in a session. -/
inductive ReaderPc where
  | idle
  | received (generation : Nat)
  | running (generation : Nat)
deriving DecidableEq, Repr

/-- Where the decoder task is; `finishing` is
`player_service_queue_track_complete_when_reader_idle` past its first line, where
`endedLive` records that the session ended with its generation active and not
cancelled. -/
inductive DecoderPc where
  | idle
  | received (generation : Nat)
  | running (generation : Nat)
  | finishing (generation : Nat) (endedLive : Bool)
deriving DecidableEq, Repr

/-- `PLAYER_SVC_READER_IDLE_BIT`. -/
def ReaderPc.idleBit : ReaderPc → Bool
  | .running _ => false
  | _ => true

/-- `PLAYER_SVC_DECODER_IDLE_BIT`. -/
def DecoderPc.idleBit : DecoderPc → Bool
  | .running _ => false
  | _ => true

/-- The variables, the tasks and the queues between them. A command is the
generation to start. `lastStop` records the last `player_service_stop_playback`
that returned, and whether its wait ended with the warning, and `foundIdle`
whether the last one found both idle bits set as it began. -/
structure State where
  service : Service
  pc : ServicePc
  cmdQueue : List Msg
  readerCmd : Option Nat
  decoderCmd : Option Nat
  reader : ReaderPc
  decoder : DecoderPc
  lastStop : Option (AfterStop × Bool)
  foundIdle : Bool

namespace State

variable (s : State)

/-- `player_service_pipeline_idle`. -/
def pipelineIdle : Bool := s.reader.idleBit && s.decoder.idleBit

/-- `player_service_should_stop`. -/
def shouldStop (generation : Nat) : Bool :=
  if generation = 0 then false
  else s.service.stopRequested || generation != s.service.activeGeneration

/-- The generation is the active one and was not cancelled. -/
def live (generation : Nat) : Bool :=
  generation == s.service.activeGeneration && generation != s.service.cancelledGeneration

/-- `xQueueSend(s_cmd_queue, &msg, 0)`: the message is dropped when the queue is full. -/
def queueMsg (msg : Msg) : State :=
  if s.cmdQueue.length < queueDepth then { s with cmdQueue := s.cmdQueue ++ [msg] } else s

end State

/-- Where a handler goes on. -/
def Next.pc : Next → ServicePc
  | .done => .waiting
  | .stop after => .stopping after
  | .start index chunk => .starting index chunk
  | .restorePaused index chunk => .restoring index chunk

/-- A start that failed: its caller clears `s_playing` and returns. -/
def State.startFailed (s : State) : State :=
  { s with service := { s.service with playing := false }, pc := .waiting }

/-- The service task past a reset. -/
def State.afterReset (s : State) : ResetFor → State
  | .stop after timedOut => { s with pc := .stopped after, lastStop := some (after, timedOut) }
  | .failedStart => { s with pc := .waiting }
  | .start => { s with pc := .sendDecoder }
  | .restore => { s with pc := .waiting }

/-- The checks of a start on the index and the idle bits. -/
def State.refusesStart (s : State) (index : Nat) : Bool :=
  decide (index ≥ s.service.playlist.count) || !s.pipelineIdle

/-- One step of the service task. -/
def serviceStep (env : Env) (s : State) : Option State :=
  match s.pc with
  | .waiting =>
    match s.cmdQueue with
    | [] => none
    | msg :: rest =>
      let (p, next) := handle env s.service msg
      some { s with service := p, cmdQueue := rest, pc := Next.pc next }
  | .stopping after =>
    if s.pipelineIdle then some { s with pc := .resetReader (.stop after false), foundIdle := true }
    else
      some { s with
        service := requestStop s.service
        pc := .awaitingIdle (.stop after)
        foundIdle := false }
  | .awaitingIdle for_ =>
    if s.pipelineIdle then
      match for_ with
      | .stop after => some { s with pc := .resetReader (.stop after false) }
      | .failedStart => some { s with pc := .resetReader .failedStart }
    else none
  | .resetReader for_ => some { s with readerCmd := none, pc := .resetDecoder for_ }
  | .resetDecoder for_ => some ({ s with decoderCmd := none }.afterReset for_)
  | .stopped after =>
    let (p, next) := afterStop env s.service after
    some { s with service := p, pc := Next.pc next }
  | .starting index chunk =>
    if s.refusesStart index then some s.startFailed else some { s with pc := .loading index chunk }
  | .loading index chunk =>
    match ensureTrackLoaded env index s.service with
    | .error _ => some s.startFailed
    | .ok p => some { s with service := beginTrack env index chunk p, pc := .resetReader .start }
  | .sendDecoder =>
    match s.decoderCmd with
    | some _ => some { s with service := decoderSendFailed s.service, pc := .waiting }
    | none =>
      some { s with decoderCmd := some s.service.activeGeneration, pc := .sendReader }
  | .sendReader =>
    match s.readerCmd with
    | some _ =>
      some { s with service := readerSendFailed s.service, pc := .awaitingIdle .failedStart }
    | none =>
      some { s with
        readerCmd := some s.service.activeGeneration
        service := finishStart env s.service
        pc := .waiting }
  | .restoring index chunk =>
    if s.refusesStart index then some s.startFailed
    else some { s with pc := .restoreLoading index chunk }
  | .restoreLoading index chunk =>
    match restorePausedTrack { env with idleAtStart := true } index chunk s.service with
    | (.ok, p) => some { s with service := p, pc := .resetReader .restore }
    | (_, _) => some s.startFailed

/-- The wait for the idle bits ends with its warning. -/
def timeoutStep (s : State) : Option State :=
  match s.pc with
  | .awaitingIdle (.stop after) => some { s with pc := .resetReader (.stop after true) }
  | .awaitingIdle .failedStart => some { s with pc := .resetReader .failedStart }
  | _ => none

/-- The steps of the reader task; a session may end at any time. -/
inductive ReaderLabel where
  | receive
  | clearBit
  | windowed (file : List UInt8) (io : WindowIo) (chunk : Nat)
  | finish

def readerStep (s : State) : ReaderLabel → Option State
  | .receive =>
    match s.reader, s.readerCmd with
    | .idle, some generation => some { s with reader := .received generation, readerCmd := none }
    | _, _ => none
  | .clearBit =>
    match s.reader with
    | .received generation => some { s with reader := .running generation }
    | _ => none
  | .windowed file io chunk =>
    match s.reader with
    | .running _ =>
      some { s with
        service := { s.service with trackInfo := (ensureWindow file io s.service.trackInfo chunk).2 } }
    | _ => none
  | .finish =>
    match s.reader with
    | .running _ => some { s with reader := .idle }
    | _ => none

/-- The steps of the decoder task. A session ends by the end of the file, a
stop, or a decoder that cannot be opened; the completion is queued when the
reader is idle or the wait for it times out. -/
inductive DecoderLabel where
  | receive
  | clearBit
  | decoded (cart : Cartridge) (chunk : Nat) (crcOk : Bool)
  | finish
  | complete

def decoderStep (s : State) : DecoderLabel → Option State
  | .receive =>
    match s.decoder, s.decoderCmd with
    | .idle, some generation => some { s with decoder := .received generation, decoderCmd := none }
    | _, _ => none
  | .clearBit =>
    match s.decoder with
    | .received generation => some { s with decoder := .running generation }
    | _ => none
  | .decoded cart chunk crcOk =>
    match s.decoder with
    | .running _ => some { s with service := decodeChunk cart chunk crcOk s.service }
    | _ => none
  | .finish =>
    match s.decoder with
    | .running generation =>
      some { s with decoder := .finishing generation (s.live generation) }
    | _ => none
  | .complete =>
    match s.decoder with
    | .finishing generation _ =>
      some ({ s with decoder := .idle }.queueMsg (.trackComplete generation))
    | _ => none

/-- Any task may queue a command or a cartridge message; completions come from
the decoder only. -/
inductive Action where
  | service (env : Env)
  | timeout
  | post (msg : Msg)
  | reader (l : ReaderLabel)
  | decoder (l : DecoderLabel)
  | setMode (mode : PlaybackMode) (random : Nat → Nat)

def Msg.isComplete : Msg → Bool
  | .trackComplete _ => true
  | _ => false

/-- One step of the system. -/
def step (s : State) : Action → Option State
  | .service env => serviceStep env s
  | .timeout => timeoutStep s
  | .post msg => if Msg.isComplete msg then none else some (s.queueMsg msg)
  | .reader l => readerStep s l
  | .decoder l => decoderStep s l
  | .setMode mode random => some { s with service := setPlaybackMode random mode s.service }

/-- The tasks were just created. -/
def initState (resumeRtc : Option ResumeState) (resumeNvs : Option ResumeBlob) : State where
  service := .init resumeRtc resumeNvs
  pc := .waiting
  cmdQueue := []
  readerCmd := none
  decoderCmd := none
  reader := .idle
  decoder := .idle
  lastStop := none
  foundIdle := false

/-! ## The start of a run -/

/-- The service task handles one message that leads to a stop of an idle
pipeline: the handler, the look at the idle bits, the two resets, the rest. -/
def idleStop : List Action := List.replicate 5 (.service StateInvariant.calmEnv)

/-- A cartridge is inserted and its first track starts. -/
def inserted : List Action :=
  [.post .cartridgeInserted] ++ idleStop ++ List.replicate 6 (.service StateInvariant.calmEnv)

/-! ## What the pieces of a handler do to the session -/

variable {env : Env} {p q : Service} {index chunk : Nat}

/-- The flags and the generations. -/
def session (p : Service) :=
  (p.playing, p.paused, p.activeGeneration, p.cancelledGeneration, p.stopRequested)

theorem session_resumeOnly (h : p.ResumeOnly q) : session q = session p :=
  h.eq session fun _ _ => rfl

theorem session_nextIndex (manual : Bool) (p : Service) :
    session (nextIndex manual p).2 = session p := by
  obtain ⟨pos, h⟩ := nextIndex_touches manual p
  rw [h]
  rfl

theorem session_prevIndex (p : Service) : session (prevIndex p).2 = session p := by
  obtain ⟨pos, h⟩ := prevIndex_touches p
  rw [h]
  rfl

theorem session_sync (index : Nat) (p : Service) :
    session (syncShufflePosition index p) = session p := by
  obtain ⟨pos, h⟩ := sync_touches index p
  rw [h]
  rfl

theorem session_setPlaybackMode (random : Nat → Nat) (mode : PlaybackMode) (p : Service) :
    session (setPlaybackMode random mode p) = session p := by
  obtain ⟨l, pos, -, h⟩ := setPlaybackMode_touches random mode p
  rw [h]
  rfl

theorem session_decodeChunk (cart : Cartridge) (chunk : Nat) (crcOk : Bool) (p : Service) :
    session (decodeChunk cart chunk crcOk p) = session p := by
  obtain ⟨emitted, posted, h⟩ := decodeChunk_touches cart chunk crcOk p
  rw [h]
  rfl

theorem session_scanPlaylist (env : Env) (p : Service) :
    session (scanPlaylist env p) = session p := by
  unfold scanPlaylist
  dsimp only
  split <;> rfl

theorem session_finishStart (env : Env) (p : Service) :
    session (finishStart env p) = session p := by
  have h := session_resumeOnly (@Service.resumeOnly_cache p env)
  exact h

theorem session_ensureTrackLoaded (h : ensureTrackLoaded env index p = .ok q) :
    session q = session p := by
  obtain ⟨info, rfl⟩ := ensureTrackLoaded_touches h
  rfl

/-- A start takes a new generation, and plays. -/
theorem session_beginTrack (env : Env) (index chunk : Nat) (p : Service) :
    session (beginTrack env index chunk p) =
      (true, false, SeekRace.nextGeneration p.activeGeneration, p.cancelledGeneration, false) := by
  unfold beginTrack
  dsimp only
  have h := session_sync index
    { p with
      countablePlayEmitted :=
        (decide (index = p.playlistIndex) && decide (p.clampChunk chunk > 0) &&
          (p.playing || p.paused)) && p.countablePlayEmitted
      activeGeneration := SeekRace.nextGeneration p.activeGeneration
      playlistIndex := index }
  simp only [session, Prod.mk.injEq] at h ⊢
  exact ⟨trivial, trivial, h.2.2.1, h.2.2.2.1, trivial⟩

/-- A paused restore keeps the generations. -/
theorem session_restorePausedTrack (h : restorePausedTrack env index chunk p = (.ok, q)) :
    session q = (true, true, p.activeGeneration, p.cancelledGeneration, false) := by
  unfold restorePausedTrack at h
  split at h
  · next err hprep =>
    obtain ⟨rfl, -⟩ := Prod.mk.inj h
    exact absurd hprep StateInvariant.prepareStart_ne_error_ok
  · next r hprep =>
    obtain ⟨-, hr, -⟩ := StateInvariant.prepareStart_ok hprep
    obtain ⟨-, rfl⟩ := Prod.mk.inj h
    have hs := session_sync index { r with countablePlayEmitted := false, playlistIndex := index }
    refine (session_resumeOnly Service.resumeOnly_cache).trans ?_
    simp only [session, Prod.mk.injEq] at hs ⊢
    rw [hr] at hs ⊢
    exact ⟨trivial, trivial, hs.2.2.1, hs.2.2.2.1, trivial⟩

/-- A handler up to its stop or its start sets neither flag and leaves the
generations alone; one that returns leaves the pause as it is while playing. -/
structure HandlerFrame (p : Service) (r : Service × Next) : Prop where
  playing : r.1.playing = true → p.playing = true
  paused : r.1.paused = true → p.paused = true
  active : r.1.activeGeneration = p.activeGeneration
  cancelled : r.1.cancelledGeneration = p.cancelledGeneration
  done : r.2 = .done → r.1.playing = true → r.1.paused = p.paused

theorem HandlerFrame.of_session {next : Next} (h : session q = session p) :
    HandlerFrame p (q, next) := by
  simp only [session, Prod.mk.injEq] at h
  obtain ⟨hplaying, hpaused, hactive, hcancelled, -⟩ := h
  exact ⟨fun hp => hplaying ▸ hp, fun hp => hpaused ▸ hp, hactive, hcancelled,
    fun _ _ => hpaused⟩

/-- The pause ends on the way to a stop. -/
theorem HandlerFrame.of_unpaused {after : AfterStop} (h : session q = session p) :
    HandlerFrame p ({ q with paused := false }, .stop after) := by
  simp only [session, Prod.mk.injEq] at h
  obtain ⟨hplaying, -, hactive, hcancelled, -⟩ := h
  exact ⟨fun hp => hplaying ▸ hp, fun h => (by cases h), hactive, hcancelled, fun h => by cases h⟩

theorem frame_seekTo (env : Env) (target : Nat) (p : Service) :
    HandlerFrame p (seekTo env target p) := by
  unfold seekTo
  split
  · exact .of_session rfl
  · dsimp only
    split
    · exact .of_session rfl
    · have h := session_resumeOnly (@Service.resumeOnly_cache
        { p with resumeChunk := target, trackInfo := invalidateLookupWindow p.trackInfo } env)
      exact .of_session h

theorem frame_handleTrackComplete (env : Env) (generation : Nat) (p : Service) :
    HandlerFrame p (handleTrackComplete env generation p) := by
  by_cases hlive : generation = p.activeGeneration ∧ generation ≠ p.cancelledGeneration
  · obtain ⟨rfl, hcancelled⟩ := hlive
    obtain ⟨posted, heq⟩ := StateInvariant.handleTrackComplete_live env hcancelled
    rw [heq]
    split
    · exact ⟨fun h => (by cases h), id, rfl, rfl, fun _ h => by cases h⟩
    · exact .of_session (session_nextIndex ..)
  · rw [StateInvariant.handleTrackComplete_stale env hlive]
    exact .of_session rfl

theorem frame_handle (env : Env) (p : Service) (msg : Msg) :
    HandlerFrame p (handle env p msg) := by
  cases msg with
  | cartridgeInserted | cartridgeRemoved => exact .of_session rfl
  | persistForShutdown => exact .of_session (session_resumeOnly Service.resumeOnly_persist)
  | trackComplete generation => exact frame_handleTrackComplete env generation p
  | playIndex _ =>
    rw [handle]
    split
    · exact .of_session rfl
    · exact .of_unpaused rfl
  | seekAbsolute _ =>
    rw [handle]
    split
    · exact .of_session rfl
    · exact frame_seekTo ..
  | control control =>
    rw [handle]
    cases control with
    | next =>
      rw [handleControl]
      split
      · exact .of_session rfl
      · exact .of_unpaused (session_nextIndex ..)
    | previous =>
      rw [handleControl]
      split
      · exact .of_session rfl
      · exact .of_unpaused rfl
    | fastForward | fastBackward =>
      rw [handleControl]
      split
      · exact .of_session rfl
      · exact frame_seekTo ..
    | volumeUp | volumeDown =>
      rw [handleControl]
      refine .of_session ?_
      split <;> rfl
    | pause =>
      rw [handleControl]
      split
      · exact .of_session rfl
      · split
        · exact .of_session rfl
        · exact .of_session rfl

/-- No handler restores a paused track before its stop. -/
theorem handle_ne_restorePaused (env : Env) (p : Service) (msg : Msg) (index chunk : Nat) :
    (handle env p msg).2 ≠ .restorePaused index chunk := by
  have hseek (target : Nat) : (seekTo env target p).2 ≠ .restorePaused index chunk := by
    unfold seekTo
    split
    · intro h
      cases h
    · dsimp only
      split
      all_goals
        intro h
        cases h
  cases msg with
  | cartridgeInserted | cartridgeRemoved | persistForShutdown =>
    intro h
    cases h
  | trackComplete generation =>
    by_cases hlive : generation = p.activeGeneration ∧ generation ≠ p.cancelledGeneration
    · obtain ⟨rfl, hcancelled⟩ := hlive
      obtain ⟨posted, heq⟩ := StateInvariant.handleTrackComplete_live env hcancelled
      rw [handle, heq]
      split
      all_goals
        intro h
        cases h
    · rw [handle, StateInvariant.handleTrackComplete_stale env hlive]
      intro h
      cases h
  | playIndex _ =>
    rw [handle]
    split
    all_goals
      intro h
      cases h
  | seekAbsolute _ =>
    rw [handle]
    split
    · intro h
      cases h
    · exact hseek _
  | control control =>
    rw [handle]
    cases control with
    | next | previous =>
      rw [handleControl]
      split
      all_goals
        intro h
        cases h
    | fastForward | fastBackward =>
      rw [handleControl]
      split
      · intro h
        cases h
      · exact hseek _
    | volumeUp | volumeDown =>
      intro h
      cases h
    | pause =>
      rw [handleControl]
      split
      · intro h
        cases h
      · split
        all_goals
          intro h
          cases h

/-- The completion of the active session, once handled, is followed by a start or
leaves nothing playing. -/
theorem handle_live_complete (env : Env) (h : p.activeGeneration ≠ p.cancelledGeneration) :
    (handle env p (.trackComplete p.activeGeneration)).2 = .done →
      (handle env p (.trackComplete p.activeGeneration)).1.playing = false := by
  obtain ⟨posted, heq⟩ := StateInvariant.handleTrackComplete_live env h
  rw [handle, heq]
  split
  · exact fun _ => rfl
  · intro h
    cases h

/-- A handler past its stop sets no flag but the pause of `PAUSE`, leaves the
generations alone, and returns either paused or not playing. -/
structure AfterStopFrame (after : AfterStop) (p : Service) (r : Service × Next) : Prop where
  playing : r.1.playing = true → p.playing = true
  paused : r.1.paused = true → p.paused = true ∨ ∃ track, after = .pause track
  active : r.1.activeGeneration = p.activeGeneration
  cancelled : r.1.cancelledGeneration = p.cancelledGeneration
  done : r.2 = .done → r.1.playing = true → r.1.paused = true

theorem AfterStopFrame.of_session {after : AfterStop} {next : Next} (h : session q = session p)
    (hnext : next ≠ .done) : AfterStopFrame after p (q, next) := by
  simp only [session, Prod.mk.injEq] at h
  obtain ⟨hplaying, hpaused, hactive, hcancelled, -⟩ := h
  exact ⟨fun hp => hplaying ▸ hp, fun hp => .inl (hpaused ▸ hp), hactive, hcancelled,
    fun hdone => absurd hdone hnext⟩

/-- The player is stopped. -/
theorem AfterStopFrame.of_stopped {after : AfterStop} {next : Next}
    (h : session q = session { p with playing := false, paused := false }) :
    AfterStopFrame after p (q, next) := by
  simp only [session, Prod.mk.injEq] at h
  obtain ⟨hplaying, hpaused, hactive, hcancelled, -⟩ := h
  exact ⟨fun hp => (by cases hplaying.symm.trans hp),
    fun hp => (by cases hpaused.symm.trans hp), hactive, hcancelled,
    fun _ hp => by cases hplaying.symm.trans hp⟩

theorem frame_afterStop (env : Env) (p : Service) (after : AfterStop) :
    AfterStopFrame after p (afterStop env p after) := by
  cases after with
  | start _ | seek => exact .of_session rfl (fun h => by cases h)
  | previous =>
    rw [afterStop]
    split
    · exact .of_session rfl (fun h => by cases h)
    · exact .of_session (session_prevIndex p) (fun h => by cases h)
  | removed => exact .of_stopped rfl
  | pause track =>
    have h := session_resumeOnly (@Service.resumeOnly_cache { p with paused := true } env)
    simp only [session, Prod.mk.injEq] at h
    obtain ⟨hplaying, hpaused, hactive, hcancelled, -⟩ := h
    exact ⟨fun hp => hplaying ▸ hp, fun _ => .inr ⟨track, rfl⟩, hactive, hcancelled,
      fun _ _ => hpaused⟩
  | inserted =>
    rw [afterStop, afterInserted]
    dsimp only
    split
    · exact .of_stopped rfl
    · have hscan := session_scanPlaylist env
        { p with trackInfo := .zero, paused := false, playing := false, trackStartedUnix := 0 }
      generalize scanPlaylist env _ = r at hscan ⊢
      split
      · simp only [session, Prod.mk.injEq] at hscan
        obtain ⟨-, hpaused, hactive, hcancelled, hstop⟩ := hscan
        refine .of_stopped ?_
        simp only [session, hpaused, hactive, hcancelled, hstop]
      · have hload := (session_resumeOnly (@Service.resumeOnly_loadSaved r env)).trans hscan
        split
        all_goals
          next heq =>
          rw [heq] at hload
          exact .of_stopped hload

/-! ## Steps beside the service task -/

/-- The service task takes the step. -/
def Action.byService : Action → Bool
  | .service _ | .timeout => true
  | _ => false

/-- What a step beside the service task leaves alone. -/
structure Beside (s t : State) : Prop where
  pc : t.pc = s.pc
  lastStop : t.lastStop = s.lastStop
  foundIdle : t.foundIdle = s.foundIdle
  session : Pipeline.session t.service = Pipeline.session s.service

theorem Beside.refl (s : State) : Beside s s := ⟨rfl, rfl, rfl, rfl⟩

theorem Beside.queueMsg {s t : State} (h : Beside s t) (msg : Msg) :
    Beside s (t.queueMsg msg) := by
  unfold State.queueMsg
  split
  · exact ⟨h.pc, h.lastStop, h.foundIdle, h.session⟩
  · exact h

theorem Beside.shouldStop {s t : State} (h : Beside s t) (generation : Nat) :
    t.shouldStop generation = s.shouldStop generation := by
  have hs := h.session
  simp only [Pipeline.session, Prod.mk.injEq] at hs
  simp only [State.shouldStop, hs.2.2.1, hs.2.2.2.2]

theorem beside_reader {s t : State} {l : ReaderLabel} (h : readerStep s l = some t) :
    Beside s t := by
  cases l with
  | receive =>
    simp only [readerStep] at h
    split at h
    · cases h
      exact ⟨rfl, rfl, rfl, rfl⟩
    · cases h
  | clearBit | windowed _ _ _ | finish =>
    simp only [readerStep] at h
    split at h
    · cases h
      exact ⟨rfl, rfl, rfl, rfl⟩
    · cases h

theorem beside_decoder {s t : State} {l : DecoderLabel} (h : decoderStep s l = some t) :
    Beside s t := by
  cases l with
  | receive | clearBit | finish =>
    simp only [decoderStep] at h
    split at h
    · cases h
      exact ⟨rfl, rfl, rfl, rfl⟩
    · cases h
  | decoded cart chunk crcOk =>
    simp only [decoderStep] at h
    split at h
    · cases h
      exact ⟨rfl, rfl, rfl, session_decodeChunk cart chunk crcOk s.service⟩
    · cases h
  | complete =>
    simp only [decoderStep] at h
    split at h
    · cases h
      have hidle : Beside s { s with decoder := .idle } := ⟨rfl, rfl, rfl, rfl⟩
      exact hidle.queueMsg _
    · cases h

theorem beside_step {s t : State} {a : Action} (ha : a.byService = false) (h : step s a = some t) :
    Beside s t := by
  cases a with
  | service env | timeout => cases ha
  | post msg =>
    simp only [step] at h
    split at h
    · cases h
    · cases h
      exact (Beside.refl s).queueMsg msg
  | reader l => exact beside_reader h
  | decoder l => exact beside_decoder h
  | setMode mode random =>
    cases h
    exact ⟨rfl, rfl, rfl, session_setPlaybackMode random mode s.service⟩

/-! ## Steps of the service task -/

/-- A start has taken its generation and is not through yet. -/
def startUnderWay : ServicePc → Bool
  | .resetReader .start | .resetDecoder .start | .sendDecoder | .sendReader => true
  | _ => false

theorem startUnderWay_next (next : Next) : startUnderWay (Next.pc next) = false := by
  cases next <;> rfl

/-- What a step of the service task can do. -/
inductive ServiceMove (env : Env) (s : State) : State → Prop
  | handled (msg : Msg) (rest : List Msg) (hpc : s.pc = .waiting)
      (hqueue : s.cmdQueue = msg :: rest) :
      ServiceMove env s
        { s with
          service := (handle env s.service msg).1
          cmdQueue := rest
          pc := Next.pc (handle env s.service msg).2 }
  | foundIdle (after : AfterStop) (hpc : s.pc = .stopping after) (hidle : s.pipelineIdle = true) :
      ServiceMove env s { s with pc := .resetReader (.stop after false), foundIdle := true }
  | requested (after : AfterStop) (hpc : s.pc = .stopping after) :
      ServiceMove env s
        { s with
          service := requestStop s.service
          pc := .awaitingIdle (.stop after)
          foundIdle := false }
  | waited (after : AfterStop) (hpc : s.pc = .awaitingIdle (.stop after))
      (hidle : s.pipelineIdle = true) : ServiceMove env s { s with pc := .resetReader (.stop after false) }
  | waitedFailed (hpc : s.pc = .awaitingIdle .failedStart) :
      ServiceMove env s { s with pc := .resetReader .failedStart }
  | readerReset (for_ : ResetFor) (hpc : s.pc = .resetReader for_) :
      ServiceMove env s { s with readerCmd := none, pc := .resetDecoder for_ }
  | decoderReset (for_ : ResetFor) (hpc : s.pc = .resetDecoder for_) :
      ServiceMove env s ({ s with decoderCmd := none }.afterReset for_)
  | wentOn (after : AfterStop) (hpc : s.pc = .stopped after) :
      ServiceMove env s
        { s with
          service := (afterStop env s.service after).1
          pc := Next.pc (afterStop env s.service after).2 }
  | refused (index chunk : Nat)
      (hpc : s.pc = .starting index chunk ∨ s.pc = .loading index chunk ∨
        s.pc = .restoring index chunk ∨ s.pc = .restoreLoading index chunk) :
      ServiceMove env s s.startFailed
  | checked (index chunk : Nat) (hpc : s.pc = .starting index chunk)
      (hchecks : s.refusesStart index = false) : ServiceMove env s { s with pc := .loading index chunk }
  | begun (index chunk : Nat) (p : Service) (hpc : s.pc = .loading index chunk)
      (hload : ensureTrackLoaded env index s.service = .ok p) :
      ServiceMove env s { s with service := beginTrack env index chunk p, pc := .resetReader .start }
  | decoderFull (hpc : s.pc = .sendDecoder) :
      ServiceMove env s { s with service := decoderSendFailed s.service, pc := .waiting }
  | decoderSent (hpc : s.pc = .sendDecoder) :
      ServiceMove env s
        { s with decoderCmd := some s.service.activeGeneration, pc := .sendReader }
  | readerFull (hpc : s.pc = .sendReader) :
      ServiceMove env s { s with service := readerSendFailed s.service, pc := .awaitingIdle .failedStart }
  | readerSent (hpc : s.pc = .sendReader) :
      ServiceMove env s
        { s with
          readerCmd := some s.service.activeGeneration
          service := finishStart env s.service
          pc := .waiting }
  | restoreChecked (index chunk : Nat) (hpc : s.pc = .restoring index chunk)
      (hchecks : s.refusesStart index = false) :
      ServiceMove env s { s with pc := .restoreLoading index chunk }
  | restored (index chunk : Nat) (p : Service) (hpc : s.pc = .restoreLoading index chunk)
      (hrestore : restorePausedTrack { env with idleAtStart := true } index chunk s.service = (.ok, p)) :
      ServiceMove env s { s with service := p, pc := .resetReader .restore }

theorem serviceMove_of_step {s t : State} (h : serviceStep env s = some t) :
    ServiceMove env s t := by
  unfold serviceStep at h
  split at h
  · next hpc =>
    split at h
    · cases h
    · next msg rest hqueue =>
      cases h
      exact .handled msg rest hpc hqueue
  · next after hpc =>
    split at h
    · next hidle =>
      cases h
      exact .foundIdle after hpc hidle
    · cases h
      exact .requested after hpc
  · next for_ hpc =>
    split at h
    · next hidle =>
      cases for_ with
      | stop after =>
        cases h
        exact .waited after hpc hidle
      | failedStart =>
        cases h
        exact .waitedFailed hpc
    · cases h
  · next for_ hpc =>
    cases h
    exact .readerReset for_ hpc
  · next for_ hpc =>
    cases h
    exact .decoderReset for_ hpc
  · next after hpc =>
    cases h
    exact .wentOn after hpc
  · next index chunk hpc =>
    split at h
    · cases h
      exact .refused index chunk (.inl hpc)
    · next hchecks =>
      cases h
      exact .checked index chunk hpc (Bool.eq_false_iff.mpr hchecks)
  · next index chunk hpc =>
    split at h
    · cases h
      exact .refused index chunk (.inr (.inl hpc))
    · next p hload =>
      cases h
      exact .begun index chunk p hpc hload
  · next hpc =>
    split at h
    · cases h
      exact .decoderFull hpc
    · cases h
      exact .decoderSent hpc
  · next hpc =>
    split at h
    · cases h
      exact .readerFull hpc
    · cases h
      exact .readerSent hpc
  · next index chunk hpc =>
    split at h
    · cases h
      exact .refused index chunk (.inr (.inr (.inl hpc)))
    · next hchecks =>
      cases h
      exact .restoreChecked index chunk hpc (Bool.eq_false_iff.mpr hchecks)
  · next index chunk hpc =>
    split at h
    · next p hrestore =>
      cases h
      exact .restored index chunk p hpc hrestore
    · cases h
      exact .refused index chunk (.inr (.inr (.inr hpc)))

theorem timeout_cases {s t : State} (h : timeoutStep s = some t) :
    (∃ after, s.pc = .awaitingIdle (.stop after) ∧
      t = { s with pc := .resetReader (.stop after true) }) ∨
    (s.pc = .awaitingIdle .failedStart ∧ t = { s with pc := .resetReader .failedStart }) := by
  unfold timeoutStep at h
  split at h
  · next after hpc =>
    cases h
    exact .inl ⟨after, hpc, rfl⟩
  · next hpc =>
    cases h
    exact .inr ⟨hpc, rfl⟩
  · cases h

end Jukeboy.Player.Pipeline
