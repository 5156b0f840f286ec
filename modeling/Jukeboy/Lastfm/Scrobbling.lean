import Jukeboy.Lastfm.ServiceTask
import Jukeboy.PlayHistory.Cache

/-! # Scrobbles on their way to Last.fm

The scrobble queue of the service task with what its payloads mean: a scrobble names
a track of the play history, its metadata is looked up when its turn comes, and a
scrobble that fails goes back to the front of the queue. -/
namespace Jukeboy.Lastfm.Scrobbling

open Jukeboy.Base Jukeboy.Base.SlotTable Jukeboy.Formats.Jbm Jukeboy.PlayHistory.Cache
open Jukeboy.Lastfm.ServiceTask (Pc TaskIo taskStep queueLength)

/-! ## The track a scrobble names -/

/-- The string at an offset of a structure. -/
def cStringAt (bytes : List UInt8) (offset : Nat) : List UInt8 :=
  (bytes.drop offset).takeWhile (· ≠ 0)

/-- The `track_name`, the `artists` and the album's `artist`. -/
def trackName (t : JbmTrack) : List UInt8 := cStringAt t.bytes 0

def trackArtists (t : JbmTrack) : List UInt8 := cStringAt t.bytes 128

def albumArtist (h : JbmHeader) : List UInt8 := cStringAt h.bytes 1160

/-- The tracks of an album, in slot order. -/
def albumTracks (s : Store) (checksum : UInt32) : List Track :=
  (records s.tracks).filter fun t => t.cartridgeChecksum == checksum

/-- `play_history_service_get_album_track_count`. -/
def getAlbumTrackCount (s : Store) (checksum : UInt32) : Nat := (albumTracks s checksum).length

/-- `play_history_service_get_album_track_record`. -/
def getAlbumTrackRecord (s : Store) (checksum : UInt32) (slot : Nat) : Option Track :=
  (albumTracks s checksum)[slot]?

/-- `play_history_service_get_album_record_by_checksum`. -/
def getAlbumRecordByChecksum (s : Store) (checksum : UInt32) : Option Album :=
  (findAlbumSlot s checksum).bind s.albums

/-- The loop of `lastfm_service_lookup_scrobble_track`: `count` slots from `slot` on. -/
def lookupLoop (s : Store) (checksum trackIndex : UInt32) : Nat → Nat → Option Track
  | 0, _ => none
  | count + 1, slot =>
    match getAlbumTrackRecord s checksum slot with
    | none => lookupLoop s checksum trackIndex count (slot + 1)
    | some candidate =>
      if candidate.trackIndex ≠ trackIndex then lookupLoop s checksum trackIndex count (slot + 1)
      else some candidate

/-- `lastfm_service_lookup_scrobble_track`. -/
def lookupScrobbleTrack (s : Store) (checksum trackIndex : UInt32) :
    Option (Track × Option Album) :=
  (lookupLoop s checksum trackIndex (getAlbumTrackCount s checksum) 0).map
    (·, getAlbumRecordByChecksum s checksum)

/-- `lastfm_service_resolve_track_metadata`: the artist and the name. -/
def resolveTrackMetadata (s : Store) (checksum trackIndex : UInt32) :
    Except EspErr (List UInt8 × List UInt8) :=
  match lookupScrobbleTrack s checksum trackIndex with
  | none => .error .notFound
  | some (track, album) =>
    let name := trackName track.metadata
    let artist :=
      if trackArtists track.metadata ≠ [] then trackArtists track.metadata
      -- the album record is zeroed where there is none
      else (album.map fun a => albumArtist a.metadata).getD []
    if name = [] ∨ artist = [] then .error .invalidResponse else .ok (artist, name)

/-! ## The service -/

/-- `lastfm_track_ref_t` of a scrobble that was accepted. The code does not number them. -/
structure Scrobble where
  albumChecksum : UInt32
  trackIndex : UInt32
  number : Nat
deriving DecidableEq, Repr

/-- What goes through the two queues. -/
inductive Payload where
  | command
  | scrobble (x : Scrobble)
deriving DecidableEq, Repr

def Payload.scrobbles : Payload → List Scrobble
  | .command => []
  | .scrobble x => [x]

/-- `tried` and `sent` are the scrobbles that were processed, and those whose request
succeeded; the code keeps neither. -/
structure State where
  task : ServiceTask.State Payload
  /-- `lastfm_scrobbling_enabled`. -/
  enabled : Bool
  history : Store
  accepted : Nat
  tried : List Scrobble
  sent : List Scrobble

/-- What becomes of a scrobble in `lastfm_service_process_scrobble_payload`: nothing, an
error before the request, or the result of the request. -/
inductive Outcome where
  | consumed
  | failed (err : EspErr)
  | requested (err : EspErr)
deriving DecidableEq, Repr

def Outcome.err : Outcome → EspErr
  | .consumed => .ok
  | .failed err => err
  | .requested err => err

/-- `lastfm_service_process_scrobble_payload`; `request` is what `lastfm_scrobble` returns. -/
def processScrobblePayload (s : State) (online : Bool) (request : EspErr) (x : Scrobble) :
    Outcome :=
  if !s.enabled then .consumed
  else match resolveTrackMetadata s.history x.albumChecksum x.trackIndex with
  | .error err => .failed err
  | .ok _ => if !online then .failed .invalidState else .requested request

/-- The scrobble the service task is about to process. -/
def State.turn (s : State) : Option Scrobble :=
  match s.task.pc with
  | .processingScrobble (.scrobble x) => some x
  | _ => none

inductive Action where
  /-- A step of `lastfm_service_task`, with what its calls answer. -/
  | task (online timedOut : Bool) (request : EspErr)
  /-- `lastfm_service_send_scrobble` with the mutex taken. -/
  | sendScrobble (albumChecksum trackIndex : UInt32)
  | sendDropped
  | enqueueCommand
  | setScrobblingEnabled (enabled : Bool)
  /-- The play history changes: a play, a sync, a clear. -/
  | changeHistory (history : Store)

/-- A step of the service task. -/
def taskTurn (s : State) (online timedOut : Bool) (request : EspErr) : Option State :=
  let outcome := s.turn.map (processScrobblePayload s online request)
  let failed := outcome.any fun o => o.err ≠ .ok
  (taskStep ⟨online, timedOut, failed⟩ s.task).map fun task => { s with
    task
    tried := s.tried ++ s.turn.toList
    sent := s.sent ++ if outcome = some (.requested .ok) then s.turn.toList else [] }

def step (s : State) : Action → Option State
  | .task online timedOut request => taskTurn s online timedOut request
  | .sendScrobble albumChecksum trackIndex =>
    if !s.enabled then some s
    else
      (ServiceTask.sendScrobble (.scrobble ⟨albumChecksum, trackIndex, s.accepted⟩) s.task).map
        fun task => { s with task, accepted := s.accepted + 1 }
  | .sendDropped => (ServiceTask.sendDropped s.task).map fun task => { s with task }
  | .enqueueCommand => some { s with task := ServiceTask.enqueueCommand .command s.task }
  | .setScrobblingEnabled enabled => some { s with enabled }
  | .changeHistory history => some { s with history }

def init (history : Store) : State where
  task := ServiceTask.initState
  enabled := true
  history := history
  accepted := 0
  tried := []
  sent := []

end Jukeboy.Lastfm.Scrobbling
