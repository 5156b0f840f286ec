import Jukeboy.Base.CyclicOrder
import Jukeboy.PlayHistory.Cache
import Jukeboy.Player.Track

/-! # The state of the player service

The variables the service task owns, the playlist with its shuffle order, and
the resume record with its copies in RTC memory and in NVS. -/
namespace Jukeboy.Player.State

open Jukeboy.Base Jukeboy.Base.CyclicOrder Jukeboy.Formats.Jbm Jukeboy.Player.Track
open Jukeboy.PlayHistory.Cache (TrackEvent)

def volumeLevelCount : Nat := 11
def previousRestartSeconds : Nat := 7
def resumeStateVersion : UInt32 := 2

/-! ## Playlist -/

/-- `player_service_playback_mode_t`. -/
inductive PlaybackMode where
  | sequential
  | singleRepeat
  | shuffle
deriving DecidableEq, Repr

/-- `s_playlist_count` with `s_shuffle_order`. The order is built together with
the playlist and holds every index once; it is `NULL` only for no tracks. -/
structure Playlist where
  count : Nat
  shuffleOrder : List Nat
  isPerm : shuffleOrder.Perm (List.range count)
deriving DecidableEq, Repr

/-- The playlist `player_service_free_playlist` leaves. -/
def Playlist.empty : Playlist := ⟨0, [], .refl _⟩

theorem Playlist.length_shuffleOrder (l : Playlist) : l.shuffleOrder.length = l.count := by
  rw [l.isPerm.length_eq, List.length_range]

theorem Playlist.nodup_shuffleOrder (l : Playlist) : l.shuffleOrder.Nodup :=
  l.isPerm.nodup_iff.mpr List.nodup_range

/-- `player_service_build_shuffle_order` with the values `esp_random` gives:
draw `i` for the swap of entry `i`, draw 0 for the corrective swap. -/
def shuffledOrder (random : Nat → Nat) (count index : Nat) : List Nat :=
  let order := shuffleFrom random (count - 1) (List.range count)
  if 1 < count then avoidFirst index (1 + random 0 % (count - 1)) order else order

theorem shuffledOrder_perm (random : Nat → Nat) (count index : Nat) :
    (shuffledOrder random count index).Perm (List.range count) := by
  unfold shuffledOrder
  dsimp only
  split
  · exact (avoidFirst_perm ..).trans (shuffleFrom_perm ..)
  · exact shuffleFrom_perm ..

def buildShuffleOrder (random : Nat → Nat) (count index : Nat) : Playlist :=
  ⟨count, shuffledOrder random count index, shuffledOrder_perm random count index⟩

/-- `player_service_format_track_filename`: the number `NNN.jba` is printed from. -/
def formatTrackFilename (fileNum : UInt32) : Option Nat :=
  if fileNum.toNat > maxTrackFiles then none else some fileNum.toNat

/-- The bytes of `NNN.jba`. -/
def filenameBytes (fileNum : Nat) : List UInt8 :=
  ([48 + fileNum / 100, 48 + fileNum / 10 % 10, 48 + fileNum % 10].map UInt8.ofNat) ++
    [46, 106, 98, 97]

/-! ## The resume record -/

/-- `player_service_resume_state_t`. -/
structure ResumeState where
  version : UInt32
  cartridgeChecksum : UInt32
  trackCount : UInt32
  currentTrackNum : UInt32
  currentSec : UInt32
  paused : UInt8
deriving DecidableEq, Repr

/-- What the NVS key holds; a blob of another size is `malformed`. -/
inductive ResumeBlob where
  | record (status : ResumeState)
  | malformed
deriving DecidableEq, Repr

/-- What the NVS calls of one message return. -/
structure NvsIo where
  openWrite : EspErr := .ok
  getBlob : EspErr := .ok
  setBlob : EspErr := .ok
  eraseKey : EspErr := .ok
  commit : EspErr := .ok

/-! ## The service's variables -/

/-- Events of the player service; the payload is missing when the cartridge has
no entry for the current track. -/
inductive Event where
  | playlistReady (count : Nat)
  | trackStarted (track : Option TrackEvent)
  | trackFinished (track : Option TrackEvent)
  | trackPaused (track : Option TrackEvent)
  | trackBecameCountable (track : TrackEvent)
deriving DecidableEq, Repr

/-- The static variables of `player_service.c` that the service task reads and
writes. `shufflePosition` is `none` for `SIZE_MAX`; `resumeRtc` is the RTC copy
while its magic number is there; `posted` lists the events so far. -/
structure Service where
  playing : Bool
  paused : Bool
  playlist : Playlist
  playlistIndex : Nat
  resumeChunk : Nat
  currentChunk : Nat
  trackInfo : TrackInfo
  stopRequested : Bool
  activeGeneration : Nat
  cancelledGeneration : Nat
  volumeLevel : Nat
  playbackMode : PlaybackMode
  shufflePosition : Option Nat
  countablePlayEmitted : Bool
  trackStartedUnix : UInt32
  resumeRtc : Option ResumeState
  resumeNvs : Option ResumeBlob
  posted : List Event

/-- The variables as the program starts, with what RTC memory and NVS retained. -/
def Service.init (resumeRtc : Option ResumeState) (resumeNvs : Option ResumeBlob) : Service where
  playing := false
  paused := false
  playlist := .empty
  playlistIndex := 0
  resumeChunk := 0
  currentChunk := 0
  trackInfo := .zero
  stopRequested := false
  activeGeneration := 0
  cancelledGeneration := 0
  volumeLevel := volumeLevelCount - 1
  playbackMode := .sequential
  shufflePosition := some 0
  countablePlayEmitted := false
  trackStartedUnix := 0
  resumeRtc := resumeRtc
  resumeNvs := resumeNvs
  posted := []

/-- What the calls of the service task into its surroundings answer while it
handles one message: the cartridge service, the file system, the clock,
`esp_random`, NVS, and the pipeline tasks, whose idle bits are read by
`player_service_stop_playback` and again by the start that follows, and whose
decoder has left `s_current_chunk` at `chunkAtStop` once they stopped. `playable`
is the cartridge status `CARTRIDGE_STATUS_READY`. -/
structure Env where
  cartridge : Cartridge
  playable : Bool
  file : Nat → List UInt8
  loadIo : LoadIo
  time : Int
  random : Nat → Nat
  nvs : NvsIo
  idleAtStop : Bool
  chunkAtStop : Nat
  idleAtStart : Bool
  sendDecoder : Bool
  sendReader : Bool

namespace Service

variable (p : Service) (env : Env)

def post (e : Event) : Service := { p with posted := p.posted ++ [e] }

/-- `player_service_playlist_filename`. -/
def playlistFilename (cart : Cartridge) (index : Nat) : Option Nat :=
  if index ≥ p.playlist.count then none
  else (cart.getMetadataTrack index).bind fun track => formatTrackFilename track.fileNum

def clampChunk (chunk : Nat) : Nat := clampChunkIndex p.trackInfo.lookupTableLen chunk

/-- `s_paused ? s_resume_chunk : s_current_chunk`. -/
def positionChunk : Nat := if p.paused then p.resumeChunk else p.currentChunk

/-- `player_service_current_second`. -/
def currentSecond : Nat :=
  if p.trackInfo.lookupTableLen = 0 then 0 else p.clampChunk p.positionChunk

/-- `player_service_should_restart_current_track`. -/
def shouldRestartCurrentTrack : Bool :=
  if p.trackInfo.lookupTableLen ≤ previousRestartSeconds then false
  else decide (p.clampChunk p.positionChunk > previousRestartSeconds)

/-- `player_service_fill_current_track_event`. -/
def fillCurrentTrackEvent (cart : Cartridge) : Option TrackEvent :=
  if p.playlistIndex ≥ p.playlist.count then none
  else do
    let header ← cart.getMetadataHeader
    let track ← cart.getMetadataTrack p.playlistIndex
    return {
      cartridgeChecksum := header.checksum
      trackIndex := .ofNat p.playlistIndex
      trackFileNum := track.fileNum
      startedAtUnix := p.trackStartedUnix
      playbackPositionSec := .ofNat p.currentSecond
      filename := ((p.playlistFilename cart p.playlistIndex).map filenameBytes).getD [] }

/-! ## Saving and loading the resume record -/

/-- `player_service_build_resume_state`. -/
def buildResumeState (cart : Cartridge) : Option ResumeState :=
  match cart.getMetadataHeader with
  | none => none
  | some header =>
    if !cart.isMounted || p.playlist.count == 0 || (!p.playing && !p.paused) then none
    else some {
      version := resumeStateVersion
      cartridgeChecksum := header.checksum
      trackCount := header.trackCount
      currentTrackNum := .ofNat p.playlistIndex
      currentSec := .ofNat p.currentSecond
      paused := if p.paused then 1 else 0 }

/-- `player_service_cache_current_playback_status`. -/
def cacheCurrentPlaybackStatus : Service :=
  match p.buildResumeState env.cartridge with
  | none => p
  | some status => { p with resumeRtc := some status }

/-- `player_service_persist_current_playback_status`. -/
def persistCurrentPlaybackStatus : EspErr × Service :=
  match p.buildResumeState env.cartridge with
  | none => (.ok, p)
  | some status =>
    let p := { p with resumeRtc := some status }
    if env.nvs.openWrite ≠ .ok then (env.nvs.openWrite, p)
    else if env.nvs.setBlob ≠ .ok then (env.nvs.setBlob, p)
    else (env.nvs.commit, { p with resumeNvs := some (.record status) })

/-- `player_service_erase_saved_playback_status_locked` together with the RTC
copy, as every caller clears it. -/
def discardSaved : Service :=
  { p with
    resumeRtc := none
    resumeNvs := if env.nvs.eraseKey = .ok then none else p.resumeNvs }

/-- `player_service_clear_saved_playback_status`. -/
def clearSavedPlaybackStatus : Service :=
  if env.nvs.openWrite ≠ .ok then { p with resumeRtc := none } else p.discardSaved env

/-- `player_service_validate_resume_state`: the index, the chunk and the paused
flag of an acceptable record. -/
def validateResumeState (cart : Cartridge) (status : ResumeState) : Option (Nat × Nat × Bool) :=
  match cart.getMetadataHeader with
  | none => none
  | some header =>
    if !cart.isMounted || status.version != resumeStateVersion ||
        status.cartridgeChecksum != header.checksum || status.trackCount != header.trackCount ||
        decide (status.currentTrackNum.toNat ≥ cart.getMetadataTrackCount) ||
        decide (status.currentTrackNum.toNat ≥ p.playlist.count) then none
    else some (status.currentTrackNum.toNat, status.currentSec.toNat, status.paused != 0)

/-- `nvs_get_blob` of the resume key. -/
def getResumeBlob : Except EspErr ResumeBlob :=
  if env.nvs.getBlob ≠ .ok then .error env.nvs.getBlob
  else match p.resumeNvs with
  | none => .error .nvsNotFound
  | some blob => .ok blob

/-- The NVS half of `player_service_load_saved_playback_status`. -/
def loadSavedNvs (header : JbmHeader) : Option (Nat × Nat × Bool) × Service :=
  if env.nvs.openWrite ≠ .ok then (none, p)
  else match p.getResumeBlob env with
  | .error .nvsNotFound => (none, p)
  | .error _ | .ok .malformed => (none, p.discardSaved env)
  | .ok (.record status) =>
    if status.version ≠ resumeStateVersion then (none, p.discardSaved env)
    else if status.cartridgeChecksum ≠ header.checksum then (none, p.discardSaved env)
    else match p.validateResumeState env.cartridge status with
    | none => (none, p.discardSaved env)
    | some found => (some found, { p with resumeRtc := some status })

/-- `player_service_load_saved_playback_status`. -/
def loadSavedPlaybackStatus : Option (Nat × Nat × Bool) × Service :=
  match env.cartridge.getMetadataHeader with
  | none => (none, p)
  | some header =>
    if !env.cartridge.isMounted then (none, p)
    else match p.resumeRtc with
    | none => p.loadSavedNvs env header
    | some status =>
      match p.validateResumeState env.cartridge status with
      | some found => (some found, p)
      | none =>
        if status.version = resumeStateVersion ∧ status.cartridgeChecksum ≠ header.checksum then
          (none, p.clearSavedPlaybackStatus env)
        else
          { p with resumeRtc := none }.loadSavedNvs env header

/-! ## What the resume record touches -/

/-- The two states differ in the copies of the resume record at most. -/
def ResumeOnly (p q : Service) : Prop :=
  ∃ rtc nvs, q = { p with resumeRtc := rtc, resumeNvs := nvs }

variable {p env}

theorem resumeOnly_refl : p.ResumeOnly p := ⟨p.resumeRtc, p.resumeNvs, rfl⟩

/-- What does not depend on the record's copies is the same in both states. -/
theorem ResumeOnly.eq {α : Type} {q : Service} (h : p.ResumeOnly q) (f : Service → α)
    (hf : ∀ rtc nvs, f { p with resumeRtc := rtc, resumeNvs := nvs } = f p) : f q = f p := by
  obtain ⟨rtc, nvs, rfl⟩ := h
  exact hf rtc nvs

theorem resumeOnly_cache : p.ResumeOnly (p.cacheCurrentPlaybackStatus env) := by
  unfold cacheCurrentPlaybackStatus
  split
  · exact resumeOnly_refl
  · exact ⟨_, _, rfl⟩

theorem resumeOnly_persist : p.ResumeOnly (p.persistCurrentPlaybackStatus env).2 := by
  unfold persistCurrentPlaybackStatus
  split
  · exact resumeOnly_refl
  · dsimp only
    split
    · exact ⟨_, _, rfl⟩
    · split <;> exact ⟨_, _, rfl⟩

theorem resumeOnly_clearSaved : p.ResumeOnly (p.clearSavedPlaybackStatus env) := by
  unfold clearSavedPlaybackStatus
  split <;> exact ⟨_, _, rfl⟩

theorem resumeOnly_loadSavedNvs {header : JbmHeader} :
    p.ResumeOnly (p.loadSavedNvs env header).2 := by
  unfold loadSavedNvs
  split
  · exact resumeOnly_refl
  · split
    · exact resumeOnly_refl
    · exact ⟨_, _, rfl⟩
    · exact ⟨_, _, rfl⟩
    · split
      · exact ⟨_, _, rfl⟩
      · split
        · exact ⟨_, _, rfl⟩
        · split <;> exact ⟨_, _, rfl⟩

theorem resumeOnly_loadSaved : p.ResumeOnly (p.loadSavedPlaybackStatus env).2 := by
  unfold loadSavedPlaybackStatus
  split
  · exact resumeOnly_refl
  · split
    · exact resumeOnly_refl
    · split
      · exact resumeOnly_loadSavedNvs
      · split
        · exact resumeOnly_refl
        · split
          · exact resumeOnly_clearSaved
          · obtain ⟨rtc, nvs, h⟩ := @resumeOnly_loadSavedNvs { p with resumeRtc := none } env ‹_›
            exact ⟨rtc, nvs, h⟩

/-- A record that loads names a track of the playlist. -/
theorem validateResumeState_lt {cart : Cartridge} {status : ResumeState}
    {index chunk : Nat} {paused : Bool} (h : p.validateResumeState cart status = some (index, chunk, paused)) :
    index < p.playlist.count := by
  unfold validateResumeState at h
  split at h
  · cases h
  · split at h
    · cases h
    · next hbad =>
      cases h
      simp only [Bool.or_eq_true, decide_eq_true_eq, not_or, Nat.not_le] at hbad
      exact hbad.2

end Service

end Jukeboy.Player.State
