import Jukeboy.Base.Runs
import Jukeboy.Player.State
import Jukeboy.Player.SeekRace

/-! # The player service task

Starting a track and the handlers of the seven messages. A handler runs up to
its call of `player_service_stop_playback`, then past it, and ends with at most
one call of a start: these pieces are separate, so that a turn of the task can
compose them and the pipeline can interleave with them. -/
namespace Jukeboy.Player.Service

open Jukeboy.Base Jukeboy.Base.Runs Jukeboy.Base.CyclicOrder Jukeboy.Formats.Jbm
open Jukeboy.Player.Track Jukeboy.Player.State
open Jukeboy.Player.SeekRace (nextGeneration)
open Jukeboy.PlayHistory.Cache (TrackEvent)

/-! ## Messages -/

/-- `player_service_control_t`. -/
inductive Control where
  | next | previous | fastForward | fastBackward | volumeUp | volumeDown | pause
deriving DecidableEq, Repr

/-- `player_service_msg_t`. -/
inductive Msg where
  | cartridgeInserted
  | cartridgeRemoved
  | trackComplete (generation : Nat)
  | control (control : Control)
  | playIndex (trackIndex : Nat)
  | seekAbsolute (seconds : Nat)
  | persistForShutdown
deriving DecidableEq, Repr

/-- What a handler does after `player_service_stop_playback` returned. -/
inductive AfterStop where
  | start (index : Nat)
  | previous
  | seek
  | pause (track : Option TrackEvent)
  | inserted
  | removed
deriving DecidableEq, Repr

/-- What a handler does next: return, call `player_service_stop_playback`, or
end with `player_service_start_track` or `player_service_restore_paused_track`. -/
inductive Next where
  | done
  | stop (after : AfterStop)
  | start (index chunk : Nat)
  | restorePaused (index chunk : Nat)
deriving DecidableEq, Repr

/-! ## Next and previous -/

def sequentialNext (p : Service) : Nat :=
  if p.playlistIndex + 1 < p.playlist.count then p.playlistIndex + 1 else 0

/-- `player_service_next_index`. A playlist of two or more tracks always has its
shuffle order, so the fallback for a missing one has no counterpart. -/
def nextIndex (manual : Bool) (p : Service) : Nat × Service :=
  if p.playlist.count = 0 then (0, p)
  else match p.playbackMode with
  | .singleRepeat => (if manual then sequentialNext p else p.playlistIndex, p)
  | .shuffle =>
    if p.playlist.count = 1 then (0, p)
    else
      let pos := nextPos p.playlist.count p.shufflePosition
      (p.playlist.shuffleOrder.getD pos 0, { p with shufflePosition := some pos })
  | .sequential => (sequentialNext p, p)

/-- `player_service_prev_index`. -/
def prevIndex (p : Service) : Nat × Service :=
  if p.playlist.count = 0 then (0, p)
  else if p.playbackMode = .shuffle ∧ p.playlist.count > 1 then
    let pos := prevPos p.playlist.count p.shufflePosition
    (p.playlist.shuffleOrder.getD pos 0, { p with shufflePosition := some pos })
  else (if p.playlistIndex > 0 then p.playlistIndex - 1 else p.playlist.count - 1, p)

/-- `player_service_set_playback_mode`. -/
def setPlaybackMode (random : Nat → Nat) (mode : PlaybackMode) (p : Service) : Service :=
  let p := { p with playbackMode := mode }
  if mode = .shuffle then
    { p with
      shufflePosition := none
      playlist :=
        if p.playlist.count = 0 then p.playlist
        else buildShuffleOrder random p.playlist.count p.playlistIndex }
  else p

/-! ## Starting a track -/

/-- `player_service_ensure_track_loaded`. -/
def ensureTrackLoaded (env : Env) (index : Nat) (p : Service) : Except EspErr Service :=
  if index ≥ p.playlist.count then .error .invalidArg
  else match p.playlistFilename env.cartridge index with
  | none => .error .invalidArg
  | some filename =>
    if p.trackInfo.filename = some filename then .ok p
    else match loadTrackInfo filename env.loadIo (env.file filename) with
    | .ok info => .ok { p with trackInfo := info }
    | .error err => .error err

/-- The checks both starts begin with: the index, the idle pipeline, the track. -/
def prepareStart (env : Env) (index : Nat) (p : Service) : Except EspErr Service :=
  if index ≥ p.playlist.count then .error .invalidArg
  else if !env.idleAtStart then .error .invalidState
  else ensureTrackLoaded env index p

/-- Brings `s_shuffle_position` in step with the track that starts. -/
def syncShufflePosition (index : Nat) (p : Service) : Service :=
  if p.playbackMode = .shuffle then
    match p.playlist.shuffleOrder.idxOf? index with
    | some i => { p with shufflePosition := some i }
    | none => p
  else p

/-- `player_service_current_unix_time_or_zero`. -/
def unixTimeOrZero (now : Int) : UInt32 :=
  if now ≤ 0 ∨ now > 2 ^ 32 - 1 then 0 else .ofInt now

/-- `player_service_resolve_track_started_unix`. -/
def resolveTrackStartedUnix (time : Int) (startChunk : Nat) : UInt32 :=
  let now := unixTimeOrZero time
  if now = 0 then 0
  else if startChunk ≥ now.toNat then now
  else now - .ofNat startChunk

/-- `player_service_start_track` from a loaded track to the start commands. -/
def beginTrack (env : Env) (index chunk : Nat) (p : Service) : Service :=
  let startChunk := p.clampChunk chunk
  let sameListen :=
    decide (index = p.playlistIndex) && decide (startChunk > 0) && (p.playing || p.paused)
  let p := syncShufflePosition index
    { p with
      countablePlayEmitted := sameListen && p.countablePlayEmitted
      activeGeneration := nextGeneration p.activeGeneration
      playlistIndex := index }
  { p with
    playing := true
    paused := false
    stopRequested := false
    resumeChunk := startChunk
    currentChunk := startChunk
    trackStartedUnix := resolveTrackStartedUnix env.time startChunk }

/-- The decoder's start command could not be queued. -/
def decoderSendFailed (p : Service) : Service := { p with playing := false, trackStartedUnix := 0 }

/-- The reader's start command could not be queued. -/
def readerSendFailed (p : Service) : Service :=
  { p with
    cancelledGeneration := p.activeGeneration
    stopRequested := true
    playing := false
    trackStartedUnix := 0 }

/-- The end of a `player_service_start_track` that succeeds. -/
def finishStart (env : Env) (p : Service) : Service :=
  let p := p.cacheCurrentPlaybackStatus env
  p.post (.trackStarted (p.fillCurrentTrackEvent env.cartridge))

/-- `player_service_start_track`. -/
def startTrack (env : Env) (index chunk : Nat) (p : Service) : EspErr × Service :=
  match prepareStart env index p with
  | .error err => (err, p)
  | .ok p =>
    let p := beginTrack env index chunk p
    if !env.sendDecoder then (.noMem, decoderSendFailed p)
    else if !env.sendReader then (.noMem, readerSendFailed p)
    else (.ok, finishStart env p)

/-- `player_service_restore_paused_track`. -/
def restorePausedTrack (env : Env) (index chunk : Nat) (p : Service) : EspErr × Service :=
  match prepareStart env index p with
  | .error err => (err, p)
  | .ok p =>
    let startChunk := p.clampChunk chunk
    let p := syncShufflePosition index
      { p with countablePlayEmitted := false, playlistIndex := index }
    let p :=
      { p with
        playing := true
        paused := true
        stopRequested := false
        resumeChunk := startChunk
        currentChunk := startChunk
        trackStartedUnix := resolveTrackStartedUnix env.time startChunk }
    (.ok, p.cacheCurrentPlaybackStatus env)

/-! ## Handlers up to the stop -/

/-- The chunk a seek command asks for. -/
def fastSeekTarget (forward : Bool) (p : Service) : Nat :=
  getSeekTarget p.trackInfo.lookupTableLen p.positionChunk forward

/-- The chunk a seek target is compared with. -/
def seekBase (p : Service) : Nat :=
  if p.paused then p.resumeChunk else p.clampChunk p.currentChunk

/-- What `FAST_FORWARD`, `FAST_BACKWARD` and `player_service_handle_seek_absolute`
do with their target. -/
def seekTo (env : Env) (target : Nat) (p : Service) : Service × Next :=
  if target = seekBase p then (p, .done)
  else
    let p :=
      { p with resumeChunk := target, trackInfo := invalidateLookupWindow p.trackInfo }
    if !p.paused then (p, .stop .seek) else (p.cacheCurrentPlaybackStatus env, .done)

/-- `player_service_handle_control`. -/
def handleControl (env : Env) (p : Service) : Control → Service × Next
  | .next =>
    if p.playlist.count = 0 then (p, .done)
    else
      let (target, p) := nextIndex true p
      ({ p with paused := false }, .stop (.start target))
  | .previous =>
    if p.playlist.count = 0 then (p, .done)
    else ({ p with paused := false }, .stop .previous)
  | .fastForward =>
    if !p.playing || p.trackInfo.lookupTableLen == 0 then (p, .done)
    else seekTo env (fastSeekTarget true p) p
  | .fastBackward =>
    if !p.playing || p.trackInfo.lookupTableLen == 0 then (p, .done)
    else seekTo env (fastSeekTarget false p) p
  | .volumeUp =>
    (if p.volumeLevel + 1 < volumeLevelCount then { p with volumeLevel := p.volumeLevel + 1 } else p,
      .done)
  | .volumeDown =>
    (if p.volumeLevel > 0 then { p with volumeLevel := p.volumeLevel - 1 } else p, .done)
  | .pause =>
    if !p.playing then (p, .done)
    else if p.paused then (p, .start p.playlistIndex p.resumeChunk)
    else
      let p := { p with resumeChunk := p.clampChunk p.currentChunk }
      (p, .stop (.pause (p.fillCurrentTrackEvent env.cartridge)))

/-- `player_service_handle_track_complete`. -/
def handleTrackComplete (env : Env) (generation : Nat) (p : Service) : Service × Next :=
  if generation = p.cancelledGeneration then (p, .done)
  else if generation ≠ p.activeGeneration then (p, .done)
  else
    let track := p.fillCurrentTrackEvent env.cartridge
    let p := if p.playing then p.post (.trackFinished track) else p
    if p.playlist.count = 0 then ({ p with playing := false }, .done)
    else
      let (target, p) := nextIndex false p
      (p, .start target 0)

/-- The handlers, each up to its call of `player_service_stop_playback` or of a
start. -/
def handle (env : Env) (p : Service) : Msg → Service × Next
  | .cartridgeInserted => (p, .stop .inserted)
  | .cartridgeRemoved => (p, .stop .removed)
  | .trackComplete generation => handleTrackComplete env generation p
  | .control control => handleControl env p control
  | .playIndex trackIndex =>
    if p.playlist.count = 0 ∨ trackIndex ≥ p.playlist.count then (p, .done)
    else ({ p with paused := false }, .stop (.start trackIndex))
  | .seekAbsolute seconds =>
    if !p.playing || p.trackInfo.lookupTableLen == 0 then (p, .done)
    else seekTo env (p.clampChunk seconds) p
  | .persistForShutdown => ((p.persistCurrentPlaybackStatus env).2, .done)

/-! ## Handlers past the stop -/

/-- `player_service_stop_playback` of a pipeline whose idle bits are not both
set, up to its wait. -/
def requestStop (p : Service) : Service :=
  { p with cancelledGeneration := p.activeGeneration, stopRequested := true }

def freePlaylist (p : Service) : Service :=
  { p with playlist := .empty, shufflePosition := some 0 }

/-- `player_service_scan_playlist`. -/
def scanPlaylist (env : Env) (p : Service) : Service :=
  let count := env.cartridge.getMetadataTrackCount
  let p := { freePlaylist p with playlistIndex := 0 }
  if count = 0 ∨ count > maxTrackFiles then p
  else
    { p with
      playlist := buildShuffleOrder env.random count p.playlistIndex
      shufflePosition := none }.post (.playlistReady count)

/-- `player_service_handle_cartridge_inserted` past the stop. -/
def afterInserted (env : Env) (p : Service) : Service × Next :=
  let p := { p with trackInfo := .zero, paused := false, playing := false, trackStartedUnix := 0 }
  if !env.playable || !env.cartridge.isMounted then (p, .done)
  else
    let p := scanPlaylist env p
    if p.playlist.count = 0 then ({ p with playing := false }, .done)
    else match p.loadSavedPlaybackStatus env with
    | (none, p) => (p, .start 0 0)
    | (some (index, chunk, false), p) => (p, .start index chunk)
    | (some (index, chunk, true), p) => (p, .restorePaused index chunk)

/-- The handlers past their call of `player_service_stop_playback`. -/
def afterStop (env : Env) (p : Service) : AfterStop → Service × Next
  | .start index => (p, .start index 0)
  | .previous =>
    if p.shouldRestartCurrentTrack then (p, .start p.playlistIndex 0)
    else
      let (target, p) := prevIndex p
      (p, .start target 0)
  | .seek => (p, .start p.playlistIndex p.resumeChunk)
  | .pause track =>
    (({ p with paused := true }.cacheCurrentPlaybackStatus env).post (.trackPaused track), .done)
  | .inserted => afterInserted env p
  | .removed =>
    ({ freePlaylist { p with trackInfo := .zero } with paused := false, playing := false }, .done)

/-! ## Turns -/

/-- What one message leaves: the state, and the start it led to with its result. -/
structure Outcome where
  service : Service
  started : Option (Nat × EspErr)

/-- `player_service_stop_playback` of a task that is not interrupted. -/
def stopPlayback (env : Env) (p : Service) : Service :=
  if env.idleAtStop then p else { requestStop p with currentChunk := env.chunkAtStop }

/-- The start that ends a handler; every caller clears `s_playing` when it fails. -/
def runStart (env : Env) : Service × Next → Outcome
  | (p, .start index chunk) =>
    let (err, p) := startTrack env index chunk p
    ⟨if err = .ok then p else { p with playing := false }, some (index, err)⟩
  | (p, .restorePaused index chunk) =>
    let (err, p) := restorePausedTrack env index chunk p
    ⟨if err = .ok then p else { p with playing := false }, some (index, err)⟩
  | (p, _) => ⟨p, none⟩

/-- A handler that is not interrupted, past its first piece. -/
def finishHandler (env : Env) : Service × Next → Outcome
  | (p, .stop after) => runStart env (afterStop env (stopPlayback env p) after)
  | (p, next) => runStart env (p, next)

/-- The handling of one message by `player_service_task`. -/
def turn (env : Env) (msg : Msg) (p : Service) : Outcome := finishHandler env (handle env p msg)

/-! ## Runs -/

/-- `player_service_post_countable_track_event`. -/
def postCountableTrackEvent (cart : Cartridge) (p : Service) : Service :=
  if p.countablePlayEmitted then p
  else match p.fillCurrentTrackEvent cart with
  | none => p
  | some track => { p with countablePlayEmitted := true }.post (.trackBecameCountable track)

/-- What the decoder does to the service's variables for one chunk. -/
def decodeChunk (cart : Cartridge) (chunk : Nat) (crcOk : Bool) (p : Service) : Service :=
  let p := { p with currentChunk := chunk }
  if crcOk && p.shouldRestartCurrentTrack then postCountableTrackEvent cart p else p

/-- A message is handled, the playback mode is set from another task, the
decoder takes a chunk, or the reader makes sure of the lookup window. -/
inductive Action where
  | message (msg : Msg) (env : Env)
  | setMode (mode : PlaybackMode) (random : Nat → Nat)
  | decoded (cart : Cartridge) (chunk : Nat) (crcOk : Bool)
  | windowed (file : List UInt8) (io : WindowIo) (chunk : Nat)

/-- The service with the cartridge that its current track was started on. -/
structure State where
  service : Service
  startedOn : Cartridge

def step (s : State) : Action → Option State
  | .message msg env =>
    let o := turn env msg s.service
    some ⟨o.service,
      if o.started.any fun start => start.2 == .ok then env.cartridge else s.startedOn⟩
  | .setMode mode random => some { s with service := setPlaybackMode random mode s.service }
  | .decoded cart chunk crcOk => some { s with service := decodeChunk cart chunk crcOk s.service }
  | .windowed file io chunk =>
    some { s with
      service := { s.service with trackInfo := (ensureWindow file io s.service.trackInfo chunk).2 } }

/-- The state at power-on. -/
def initState (resumeRtc : Option ResumeState) (resumeNvs : Option ResumeBlob)
    (cart : Cartridge) : State :=
  ⟨.init resumeRtc resumeNvs, cart⟩

/-! ## What the pieces touch -/

variable {env : Env} {p q : Service} {index : Nat}

theorem nextIndex_touches (manual : Bool) (p : Service) :
    ∃ pos, (nextIndex manual p).2 = { p with shufflePosition := pos } := by
  unfold nextIndex
  split
  · exact ⟨_, rfl⟩
  · split
    · exact ⟨_, rfl⟩
    · split <;> exact ⟨_, rfl⟩
    · exact ⟨_, rfl⟩

theorem prevIndex_touches (p : Service) :
    ∃ pos, (prevIndex p).2 = { p with shufflePosition := pos } := by
  unfold prevIndex
  split
  · exact ⟨_, rfl⟩
  · split <;> exact ⟨_, rfl⟩

theorem sync_touches (index : Nat) (p : Service) :
    ∃ pos, syncShufflePosition index p = { p with shufflePosition := pos } := by
  unfold syncShufflePosition
  split
  · split <;> exact ⟨_, rfl⟩
  · exact ⟨_, rfl⟩

/-- A playlist that is shuffled again keeps its tracks. -/
theorem setPlaybackMode_touches (random : Nat → Nat) (mode : PlaybackMode) (p : Service) :
    ∃ l pos, l.count = p.playlist.count ∧
      setPlaybackMode random mode p =
        { p with playbackMode := mode, playlist := l, shufflePosition := pos } := by
  unfold setPlaybackMode
  dsimp only
  split
  · refine ⟨_, _, ?_, rfl⟩
    split <;> rfl
  · exact ⟨_, _, rfl, rfl⟩

theorem decodeChunk_touches (cart : Cartridge) (chunk : Nat) (crcOk : Bool) (p : Service) :
    ∃ emitted posted, decodeChunk cart chunk crcOk p =
      { p with currentChunk := chunk, countablePlayEmitted := emitted, posted := posted } := by
  unfold decodeChunk
  dsimp only
  split
  · unfold postCountableTrackEvent
    split
    · exact ⟨_, _, rfl⟩
    · split <;> exact ⟨_, _, rfl⟩
  · exact ⟨_, _, rfl⟩

theorem ensureTrackLoaded_touches (h : ensureTrackLoaded env index p = .ok q) :
    ∃ info, q = { p with trackInfo := info } := by
  unfold ensureTrackLoaded at h
  split at h
  · cases h
  split at h
  · cases h
  · split at h
    · cases h
      exact ⟨_, rfl⟩
    · split at h
      · cases h
        exact ⟨_, rfl⟩
      · cases h

/-! ## What the handlers touch -/

/-- The track of a countable play. -/
def countableOf : Event → Option TrackEvent
  | .trackBecameCountable track => some track
  | _ => none

/-- What a handler may write before its stop or its start: neither the playlist
nor the generations, and no countable play. -/
def Handled (p q : Service) : Prop :=
  ∃ playing paused resumeChunk info volume pos rtc nvs posted,
    posted.filterMap countableOf = [] ∧
      q = { p with
        playing := playing, paused := paused, resumeChunk := resumeChunk, trackInfo := info
        volumeLevel := volume, shufflePosition := pos, resumeRtc := rtc, resumeNvs := nvs
        posted := p.posted ++ posted }

/-- What a handler may write past its stop: no generation either, and no
countable play. -/
def Concluded (p q : Service) : Prop :=
  ∃ playing paused playlist index info pos started rtc nvs posted,
    posted.filterMap countableOf = [] ∧
      q = { p with
        playing := playing, paused := paused, playlist := playlist, playlistIndex := index
        trackInfo := info, shufflePosition := pos, trackStartedUnix := started
        resumeRtc := rtc, resumeNvs := nvs, posted := p.posted ++ posted }

theorem handled_silent {playing paused : Bool} {resumeChunk volume : Nat} {info : TrackInfo}
    {pos : Option Nat} {rtc : Option ResumeState} {nvs : Option ResumeBlob} :
    Handled p { p with
      playing := playing, paused := paused, resumeChunk := resumeChunk, trackInfo := info
      volumeLevel := volume, shufflePosition := pos, resumeRtc := rtc, resumeNvs := nvs } :=
  ⟨_, _, _, _, _, _, _, _, [], rfl, by rw [List.append_nil]⟩

theorem handled_seekTo (env : Env) (target : Nat) (p : Service) :
    Handled p (seekTo env target p).1 := by
  unfold seekTo
  split
  · exact handled_silent
  · dsimp only
    split
    · exact handled_silent
    · obtain ⟨rtc, nvs, h⟩ := @Service.resumeOnly_cache
        { p with resumeChunk := target, trackInfo := invalidateLookupWindow p.trackInfo } env
      rw [h]
      exact handled_silent

theorem handled_handleTrackComplete (env : Env) (generation : Nat) (p : Service) :
    Handled p (handleTrackComplete env generation p).1 := by
  unfold handleTrackComplete
  split
  · exact handled_silent
  split
  · exact handled_silent
  dsimp only
  have hpost : ∃ posted, posted.filterMap countableOf = [] ∧
      (if p.playing then p.post (.trackFinished (p.fillCurrentTrackEvent env.cartridge)) else p) =
        { p with posted := p.posted ++ posted } := by
    split
    · exact ⟨[_], rfl, rfl⟩
    · exact ⟨[], rfl, by rw [List.append_nil]⟩
  obtain ⟨posted, hsilent, heq⟩ := hpost
  rw [heq]
  split
  · exact ⟨_, _, _, _, _, _, _, _, posted, hsilent, rfl⟩
  · obtain ⟨pos, hpos⟩ := nextIndex_touches false { p with posted := p.posted ++ posted }
    dsimp only
    rw [hpos]
    exact ⟨_, _, _, _, _, _, _, _, posted, hsilent, rfl⟩

theorem handled_handle (env : Env) (p : Service) (msg : Msg) : Handled p (handle env p msg).1 := by
  cases msg with
  | cartridgeInserted | cartridgeRemoved => exact handled_silent
  | persistForShutdown =>
    obtain ⟨rtc, nvs, h⟩ := @Service.resumeOnly_persist p env
    rw [handle, h]
    exact handled_silent
  | trackComplete generation => exact handled_handleTrackComplete env generation p
  | playIndex _ =>
    rw [handle]
    split <;> exact handled_silent
  | seekAbsolute _ =>
    rw [handle]
    split
    · exact handled_silent
    · exact handled_seekTo ..
  | control control =>
    rw [handle]
    cases control with
    | next =>
      rw [handleControl]
      split
      · exact handled_silent
      · obtain ⟨pos, h⟩ := nextIndex_touches true p
        dsimp only
        rw [h]
        exact handled_silent
    | previous =>
      rw [handleControl]
      split <;> exact handled_silent
    | fastForward | fastBackward =>
      rw [handleControl]
      split
      · exact handled_silent
      · exact handled_seekTo ..
    | volumeUp | volumeDown =>
      rw [handleControl]
      split <;> exact handled_silent
    | pause =>
      rw [handleControl]
      split
      · exact handled_silent
      · split <;> exact handled_silent

theorem concluded_silent {playing paused : Bool} {playlist : Playlist} {playlistIndex : Nat}
    {info : TrackInfo} {pos : Option Nat} {started : UInt32} {rtc : Option ResumeState}
    {nvs : Option ResumeBlob} :
    Concluded p { p with
      playing := playing, paused := paused, playlist := playlist, playlistIndex := playlistIndex
      trackInfo := info, shufflePosition := pos, trackStartedUnix := started
      resumeRtc := rtc, resumeNvs := nvs } :=
  ⟨_, _, _, _, _, _, _, _, _, [], rfl, by rw [List.append_nil]⟩

theorem scanPlaylist_touches (env : Env) (p : Service) :
    ∃ playlist pos posted, posted.filterMap countableOf = [] ∧
      scanPlaylist env p = { p with
        playlist := playlist, playlistIndex := 0, shufflePosition := pos
        posted := p.posted ++ posted } := by
  unfold scanPlaylist
  dsimp only
  split
  · exact ⟨_, _, [], rfl, by rw [List.append_nil]; rfl⟩
  · exact ⟨_, _, [_], rfl, rfl⟩

theorem concluded_afterStop (env : Env) (p : Service) (after : AfterStop) :
    Concluded p (afterStop env p after).1 := by
  cases after with
  | start _ | seek | removed => exact concluded_silent
  | previous =>
    rw [afterStop]
    split
    · exact concluded_silent
    · obtain ⟨pos, h⟩ := prevIndex_touches p
      dsimp only
      rw [h]
      exact concluded_silent
  | pause track =>
    obtain ⟨rtc, nvs, h⟩ := @Service.resumeOnly_cache { p with paused := true } env
    rw [afterStop, h]
    exact ⟨_, _, _, _, _, _, _, _, _, [_], rfl, rfl⟩
  | inserted =>
    rw [afterStop, afterInserted]
    dsimp only
    split
    · exact concluded_silent
    · obtain ⟨playlist, pos, posted, hsilent, hscan⟩ := scanPlaylist_touches env
        { p with trackInfo := .zero, paused := false, playing := false, trackStartedUnix := 0 }
      rw [hscan]
      split
      · exact ⟨_, _, _, _, _, _, _, _, _, posted, hsilent, rfl⟩
      · -- loading the record touches its two copies
        generalize hr : Service.mk .. = r
        obtain ⟨rtc, nvs, hload⟩ := @Service.resumeOnly_loadSaved r env
        split
        all_goals
          next heq =>
          rw [heq] at hload
          dsimp only at hload ⊢
          rw [hload, ← hr]
          exact ⟨_, _, _, _, _, _, _, _, _, posted, hsilent, rfl⟩

/-! ## The handlers that race with the reader

`SeekRace` has the handlers of the seeks and the start on the variables that the reader sees
too. They do to these what the handlers here do. -/

section
variable (env p) (s : SeekRace.State)

/-- What a seek and the reader see of the service. -/
def seen : SeekRace.State :=
  { s with
    info := p.trackInfo
    playing := p.playing
    paused := p.paused
    stopRequested := p.stopRequested
    activeGeneration := p.activeGeneration
    resumeChunk := p.resumeChunk
    currentChunk := p.currentChunk }

/-- The message of a seek. -/
def seekMsg : SeekRace.Seek → Msg
  | .fastForward => .control .fastForward
  | .fastBackward => .control .fastBackward
  | .seekAbsolute seconds => .seekAbsolute seconds

theorem seen_resumeOnly {p q : Service} (h : p.ResumeOnly q) : seen q s = seen p s := by
  obtain ⟨rtc, nvs, rfl⟩ := h
  rfl

/-- A handler of a seek with its target. -/
theorem handle_seekMsg (seek : SeekRace.Seek) :
    handle env p (seekMsg seek) =
      if !p.playing || p.trackInfo.lookupTableLen == 0 then (p, .done)
      else seekTo env ((seen p s).seekTarget seek) p := by
  cases seek <;> rfl

theorem seekTo_seen {target : Nat} (htarget : target ≠ seekBase p) :
    seen (seekTo env target p).1 s =
        { seen p s with resumeChunk := target, info := invalidateLookupWindow p.trackInfo } ∧
      (seekTo env target p).2 = if p.paused then .done else .stop .seek := by
  rw [seekTo, if_neg htarget]
  dsimp only
  split
  · next hnot => exact ⟨rfl, by rw [if_neg (by simpa using hnot)]⟩
  · next hpaused =>
    exact ⟨seen_resumeOnly s Service.resumeOnly_cache, by rw [if_pos (by simpa using hpaused)]⟩

/-- **A seek in the race** is the handler of its message. -/
theorem handleSeek_seen (hwaiting : s.service = .waiting) (seek : SeekRace.Seek) :
    (seen p s).handleSeek seek =
      { seen (handle env p (seekMsg seek)).1 s with
        service := if (handle env p (seekMsg seek)).2 = .stop .seek then .stopping .restart
          else .waiting } := by
  have hstays : seen p s = { seen p s with service := .waiting } := by
    rw [← hwaiting]
    rfl
  have hmoves : (seen p s).seekMoves seek = (p.playing && p.trackInfo.lookupTableLen != 0 &&
      (seen p s).seekTarget seek != seekBase p) := rfl
  rw [handle_seekMsg env p s, SeekRace.State.handleSeek, hmoves]
  generalize (seen p s).seekTarget seek = target
  by_cases hactive : (!p.playing || p.trackInfo.lookupTableLen == 0) = true
  · have hnot : ¬ (p.playing && p.trackInfo.lookupTableLen != 0 &&
        target != seekBase p) = true := by
      rcases Bool.or_eq_true_iff.mp hactive with hplaying | hlen
      · simp [(Bool.not_eq_true' _).mp hplaying]
      · simp [beq_iff_eq.mp hlen]
    rw [if_neg hnot, if_pos hactive]
    exact hstays
  · rw [if_neg hactive]
    by_cases htarget : target = seekBase p
    · rw [if_neg (by simp [htarget]), seekTo, if_pos htarget]
      exact hstays
    · obtain ⟨hseen, hnext⟩ := seekTo_seen env p s htarget
      have hmoved : (p.playing && p.trackInfo.lookupTableLen != 0 &&
          target != seekBase p) = true := by
        simp only [Bool.or_eq_true, Bool.not_eq_true', beq_iff_eq, not_or] at hactive
        simp [hactive.1, hactive.2, htarget]
      rw [if_pos hmoved, hseen, hnext]
      cases hpaused : p.paused <;> simp [seen, hpaused]

theorem seen_finishStart : seen (finishStart env p) s = seen p s :=
  show seen (p.cacheCurrentPlaybackStatus env) s = seen p s from
    seen_resumeOnly s Service.resumeOnly_cache

/-- A start of the loaded track. -/
theorem seen_beginTrack : seen (beginTrack env p.playlistIndex p.resumeChunk p) s =
    { seen p s with
      activeGeneration := nextGeneration p.activeGeneration
      playing := true
      paused := false
      stopRequested := false
      resumeChunk := p.clampChunk p.resumeChunk
      currentChunk := p.clampChunk p.resumeChunk } := by
  unfold beginTrack
  dsimp only
  obtain ⟨pos, hsync⟩ := sync_touches p.playlistIndex
    { p with
      countablePlayEmitted := (decide (p.playlistIndex = p.playlistIndex) &&
        decide (p.clampChunk p.resumeChunk > 0) && (p.playing || p.paused)) &&
          p.countablePlayEmitted
      activeGeneration := nextGeneration p.activeGeneration
      playlistIndex := p.playlistIndex }
  rw [hsync]
  rfl

/-- **A start in the race** is the start of the loaded track whose commands are queued. -/
theorem startTrack_seen (hidle : (seen p s).pipelineIdle = env.idleAtStart)
    (hindex : p.playlistIndex < p.playlist.count)
    (hloaded : ensureTrackLoaded env p.playlistIndex p = .ok p)
    (hdecoder : env.sendDecoder = true) (hreader : env.sendReader = true) :
    (seen p s).startTrack =
      { seen (runStart env (p, .start p.playlistIndex p.resumeChunk)).service s with
        readerCmd := if env.idleAtStart then
            some (nextGeneration p.activeGeneration, p.clampChunk p.resumeChunk)
          else s.readerCmd } := by
  rw [SeekRace.State.startTrack, hidle, runStart, startTrack, prepareStart,
    if_neg (Nat.not_le.mpr hindex)]
  cases env.idleAtStart with
  | false => rfl
  | true =>
    simp only [Bool.not_true, Bool.false_eq_true, if_false, if_true, hloaded, hdecoder, hreader,
      seen_finishStart, seen_beginTrack]
    rfl

end

end Jukeboy.Player.Service
