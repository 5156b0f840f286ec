import Jukeboy.Base.Runs

/-! # Now playing

The player's events arm and stop two timers, the timers queue commands, and the service
task works the commands off. Stopping a timer leaves its callback alone once it has fired,
and leaves every command already queued. The event handlers, the timer callbacks and the
calls run in one piece; an update waits for the rate limit and again for its response. -/
namespace Jukeboy.Lastfm.NowPlaying

open Jukeboy.Base.Runs

/-- `lastfm_track_ref_t`. -/
structure TrackRef where
  albumChecksum : UInt32
  trackIndex : UInt32
deriving DecidableEq, Repr

/-- `lastfm_cmd_payload_t`, as far as now playing is concerned. -/
inductive Command where
  | updateNowPlaying (track : TrackRef)
  | clearNowPlaying (track : TrackRef)
  | logout
  /-- A token or an authorisation request. -/
  | other
deriving DecidableEq, Repr

/-- `LASTFM_SERVICE_CMD_QUEUE_LENGTH`. -/
def cmdQueueLength : Nat := 8

/-- A one-shot `esp_timer`. It is `due` when it has fired and its callback has not run. -/
structure Timer where
  armed : Bool
  due : Bool
deriving DecidableEq, Repr

/-- `lastfm_service_stop_timer`. -/
def Timer.stop (timer : Timer) : Timer := { timer with armed := false }

/-- `lastfm_service_start_timer_once`; `starts` is whether `esp_timer_start_once` succeeds. -/
def Timer.startOnce (starts : Bool) (timer : Timer) : Timer := { timer with armed := starts }

def Timer.running (timer : Timer) : Bool := timer.armed || timer.due

inductive TimerId where
  | nowPlaying
  | pauseClear
deriving DecidableEq, Repr

inductive PlayerEvent where
  | started
  | paused
  | finished
deriving DecidableEq, Repr

/-- Where the service task is in an update: not in one, past the checks of
`lastfm_service_process_now_playing_track`, and past its request. -/
inductive Pc where
  | idle
  | checked (track : TrackRef)
  | requesting (track : TrackRef)
deriving DecidableEq, Repr

def Pc.isChecked : Pc → Bool
  | .checked _ => true
  | _ => false

/-- `lastEvent` is the last player event, `lastUpdated` the track of the last update that
succeeded; the code keeps neither. -/
structure State where
  enabled : Bool
  track : TrackRef
  trackValid : Bool
  active : Bool
  nowPlayingTimer : Timer
  pauseClearTimer : Timer
  commands : List Command
  pc : Pc
  lastEvent : Option PlayerEvent
  lastUpdated : Option TrackRef
deriving DecidableEq, Repr

def noTrack : TrackRef := ⟨0, 0⟩

/-- After the start; `enabled` is the stored flag. -/
def initial (enabled : Bool) : State where
  enabled := enabled
  track := noTrack
  trackValid := false
  active := false
  nowPlayingTimer := ⟨false, false⟩
  pauseClearTimer := ⟨false, false⟩
  commands := []
  pc := .idle
  lastEvent := none
  lastUpdated := none

/-! ## Commands and timers -/

/-- `lastfm_service_enqueue_command`: a command that finds the queue full is lost. -/
def enqueueCommand (s : State) (command : Command) : State :=
  if s.commands.length < cmdQueueLength then { s with commands := s.commands ++ [command] } else s

/-- `lastfm_service_reset_now_playing_state`. -/
def resetNowPlayingState (s : State) : State :=
  { s with track := noTrack, trackValid := false, active := false }

/-- The two calls of `lastfm_service_stop_timer` before the state is reset. -/
def stopTimers (s : State) : State :=
  { s with nowPlayingTimer := s.nowPlayingTimer.stop, pauseClearTimer := s.pauseClearTimer.stop }

/-- `lastfm_service_now_playing_timer_cb`. -/
def nowPlayingTimerCb (s : State) : State :=
  if s.trackValid then enqueueCommand s (.updateNowPlaying s.track) else s

/-- `lastfm_service_pause_clear_timer_cb`. -/
def pauseClearTimerCb (s : State) : State :=
  if s.trackValid then enqueueCommand s (.clearNowPlaying s.track) else s

/-! ## The player's events -/

/-- `lastfm_service_handle_track_started_event`. -/
def handleTrackStartedEvent (s : State) (event : Option TrackRef) (playbackPositionSec : UInt32)
    (starts : Bool) : State :=
  if !s.enabled then resetNowPlayingState (stopTimers s)
  else match event with
  | none => resetNowPlayingState (stopTimers s)
  | some track =>
    let sameTrack := s.trackValid && s.track == track
    let isResume := decide (playbackPositionSec > 0)
    let s := { s with pauseClearTimer := s.pauseClearTimer.stop }
    if sameTrack && s.active && isResume then s
    else { s with
      nowPlayingTimer := s.nowPlayingTimer.stop.startOnce starts
      track := track
      trackValid := true
      active := false }

/-- The track and its validity once `lastfm_service_handle_track_paused_event` has read the
event. -/
def adoptTrack (s : State) : Option TrackRef → State
  | none => s
  | some track => { s with track := track, trackValid := true }

/-- `lastfm_service_handle_track_paused_event`. -/
def handleTrackPausedEvent (s : State) (event : Option TrackRef) (starts : Bool) : State :=
  if !s.enabled then resetNowPlayingState (stopTimers s)
  else
    let s := adoptTrack { s with nowPlayingTimer := s.nowPlayingTimer.stop } event
    if s.active then { s with pauseClearTimer := s.pauseClearTimer.startOnce starts } else s

/-- `lastfm_service_handle_track_finished_event`. -/
def handleTrackFinishedEvent (s : State) : State := resetNowPlayingState (stopTimers s)

/-- `lastfm_service_set_now_playing_enabled`; `stored` is whether the flag could be stored. -/
def setNowPlayingEnabled (s : State) (enabled stored : Bool) : State :=
  if !stored then s
  else if enabled then { s with enabled := true }
  else resetNowPlayingState (stopTimers { s with enabled := false })

/-! ## The service task -/

/-- `lastfm_service_process_now_playing_track` up to its wait for the rate limit. -/
def processNowPlayingTrack (s : State) (track : TrackRef) (online resolves : Bool) : State :=
  if !s.enabled then s
  else if !s.trackValid || track != s.track || s.active then s
  else if !online then s
  else if !resolves then s
  else { s with pc := .checked track }

/-- `lastfm_service_process_now_playing_clear`. -/
def processNowPlayingClear (s : State) (track : TrackRef) : State :=
  if !s.trackValid || track != s.track then s else { s with active := false }

/-- `lastfm_service_process_command`. -/
def processCommand (s : State) (online resolves : Bool) : Command → State
  | .updateNowPlaying track => processNowPlayingTrack s track online resolves
  | .clearNowPlaying track => processNowPlayingClear s track
  | .logout => handleTrackFinishedEvent s
  | .other => s

/-- `lastfm_service_process_now_playing_track` past its request. -/
def processResponse (s : State) (track : TrackRef) (ok : Bool) : State :=
  if !ok then s
  else
    let s := { s with lastUpdated := some track }
    if s.trackValid && track == s.track then { s with active := true } else s

inductive Action where
  /-- `PLAYER_SVC_EVENT_TRACK_STARTED`; `event` is what its data says, where there is any. -/
  | trackStarted (event : Option TrackRef) (playbackPositionSec : UInt32) (starts : Bool)
  | trackPaused (event : Option TrackRef) (starts : Bool)
  | trackFinished
  | setEnabled (enabled stored : Bool)
  /-- A timer runs out. -/
  | expire (timer : TimerId)
  /-- The timer task runs the callback of a timer that ran out. -/
  | callback (timer : TimerId)
  | queueLogout
  | queueOther
  /-- The service task takes the next command. -/
  | receive (online resolves : Bool)
  /-- The wait for the rate limit is over; `ready` is whether the request can be made. -/
  | request (ready : Bool)
  /-- The response to the request. -/
  | respond (ok : Bool)
deriving DecidableEq, Repr

def State.seen (s : State) (event : PlayerEvent) : State := { s with lastEvent := some event }

def step (s : State) : Action → Option State
  | .trackStarted event pos starts =>
    some ((handleTrackStartedEvent s event pos starts).seen .started)
  | .trackPaused event starts => some ((handleTrackPausedEvent s event starts).seen .paused)
  | .trackFinished => some ((handleTrackFinishedEvent s).seen .finished)
  | .setEnabled enabled stored => some (setNowPlayingEnabled s enabled stored)
  | .expire timer =>
    -- one timer task runs the callbacks, one after the other
    if s.nowPlayingTimer.due || s.pauseClearTimer.due then none
    else match timer with
    | .nowPlaying =>
      if s.nowPlayingTimer.armed then some { s with nowPlayingTimer := ⟨false, true⟩ } else none
    | .pauseClear =>
      if s.pauseClearTimer.armed then some { s with pauseClearTimer := ⟨false, true⟩ } else none
  | .callback .nowPlaying =>
    if s.nowPlayingTimer.due then
      some (nowPlayingTimerCb { s with nowPlayingTimer := { s.nowPlayingTimer with due := false } })
    else none
  | .callback .pauseClear =>
    if s.pauseClearTimer.due then
      some (pauseClearTimerCb { s with pauseClearTimer := { s.pauseClearTimer with due := false } })
    else none
  | .queueLogout => some (enqueueCommand s .logout)
  | .queueOther => some (enqueueCommand s .other)
  | .receive online resolves =>
    match s.pc, s.commands with
    | .idle, command :: rest =>
      some (processCommand { s with commands := rest } online resolves command)
    | _, _ => none
  | .request ready =>
    match s.pc with
    | .checked track => some { s with pc := if ready then .requesting track else .idle }
    | _ => none
  | .respond ok =>
    match s.pc with
    | .requesting track => some (processResponse { s with pc := .idle } track ok)
    | _ => none

/-! ## What is asked of a run -/

/-- The last player event was a pause or a finish. -/
def State.stopped (s : State) : Prop :=
  s.lastEvent = some .paused ∨ s.lastEvent = some .finished

/-- The step sends a request. -/
def Sends (s : State) (a : Action) : Prop := s.pc.isChecked ∧ a = .request true

/-- No request is sent while the player is stopped. -/
def SentWhilePlaying (s : State) (a : Action) : Prop := Sends s a → ¬ s.stopped

/-- Now playing is active only for the track of the last update, and only while enabled. -/
def ActiveAsUpdated (s : State) : Prop :=
  s.active → s.lastUpdated = some s.track ∧ s.enabled

/-- After a pause, with no timer and no command left, now playing is not active. -/
def ClearedAfterPause (s : State) : Prop :=
  s.lastEvent = some .paused → s.nowPlayingTimer.running = false →
    s.pauseClearTimer.running = false → s.commands = [] → s.active = false

/-- Now playing tracks the player throughout a run, and in the state it ends in. -/
def TracksPlayer (enabled : Bool) (as : List Action) : Prop :=
  Along step SentWhilePlaying (initial enabled) as ∧
    ∀ t, run step (initial enabled) as = some t → ActiveAsUpdated t ∧ ClearedAfterPause t

end Jukeboy.Lastfm.NowPlaying
