import Jukeboy.Base.EspErr
import Jukeboy.Base.SlotTable
import Jukeboy.Formats.Jbm

/-! # The play-history cache

The albums and tracks the service has seen, the counters beside them, and what
the four events do to them. -/
namespace Jukeboy.PlayHistory.Cache

open Jukeboy.Base Jukeboy.Base.SlotTable Jukeboy.Formats.Jbm

abbrev maxAlbums : Nat := 50

abbrev maxTracks : Nat := 1000

/-- `play_history_album_slot_t`; a slot that is not in use is `none`. -/
structure Album where
  checksum : UInt32
  trackCount : UInt32
  firstSeenSequence : UInt32
  lastSeenSequence : UInt32
  metadata : JbmHeader
deriving DecidableEq, Repr

/-- `play_history_track_slot_t`. -/
structure Track where
  cartridgeChecksum : UInt32
  trackIndex : UInt32
  trackFileNum : UInt32
  playCount : UInt32
  firstSeenSequence : UInt32
  lastSeenSequence : UInt32
  metadata : JbmTrack
deriving DecidableEq, Repr

/-- What a track is found by: the album's checksum and the index in the album. -/
abbrev TrackKey := UInt32 × UInt32

def Track.key (t : Track) : TrackKey := (t.cartridgeChecksum, t.trackIndex)

/-- `s_cache` and `s_dirty`. `wrapped` is whether the sequence counter has ever begun
anew: the code keeps no such flag and nothing below reads it. -/
structure Store where
  nextSequence : UInt32
  albumCount : Nat
  trackCount : Nat
  albums : Table maxAlbums Album
  tracks : Table maxTracks Track
  dirty : Bool
  wrapped : Bool

/-- `player_service_track_event_t`. -/
structure TrackEvent where
  cartridgeChecksum : UInt32
  trackIndex : UInt32
  trackFileNum : UInt32
  startedAtUnix : UInt32
  playbackPositionSec : UInt32
  filename : List UInt8
deriving DecidableEq, Repr

/-- `play_history_listen_count_event_t`. -/
structure ListenCountEvent where
  cartridgeChecksum : UInt32
  trackIndex : UInt32
  trackFileNum : UInt32
  playCount : UInt32
deriving DecidableEq, Repr

inductive Event where
  | syncCurrentCartridge
  | countablePlay (track : TrackEvent)
  | clear
  | rebuild
deriving DecidableEq, Repr

/-! ## Sequence numbers and reset -/

/-- The number drawn, and the store after it. -/
def nextSequence (s : Store) : UInt32 × Store :=
  let sequence := if s.nextSequence = 0 then 1 else s.nextSequence
  if sequence + 1 = 0 then
    (sequence, { s with nextSequence := 1, wrapped := true })
  else
    (sequence, { s with nextSequence := sequence + 1 })

def resetCache (s : Store) : Store :=
  { s with nextSequence := 1, albumCount := 0, trackCount := 0, albums := empty, tracks := empty }

/-! ## Searches -/

def findAlbumSlot (s : Store) (checksum : UInt32) : Option (Fin maxAlbums) :=
  find s.albums fun a => a.checksum == checksum

def findTrackSlot (s : Store) (checksum trackIndex : UInt32) : Option (Fin maxTracks) :=
  find s.tracks fun t => t.cartridgeChecksum == checksum && t.trackIndex == trackIndex

def findFreeAlbumSlot (s : Store) : Option (Fin maxAlbums) := free s.albums

def findFreeTrackSlot (s : Store) : Option (Fin maxTracks) := free s.tracks

def findOldestAlbumSlot (s : Store) (preserveChecksum : UInt32) (preserveCurrent : Bool) :
    Option (Fin maxAlbums) :=
  least s.albums (fun a => !(preserveCurrent && a.checksum == preserveChecksum))
    (fun a => a.firstSeenSequence.toNat) 0xFFFFFFFF

/-! ## Making room -/

def removeAlbum (s : Store) (slot : Fin maxAlbums) : Store :=
  match s.albums slot with
  | none => s
  | some album =>
    let kept := clearLoop (fun t => t.cartridgeChecksum == album.checksum)
      (List.finRange maxTracks) s.tracks s.trackCount
    { s with
      albums := SlotTable.clear s.albums slot
      albumCount := s.albumCount - 1
      tracks := kept.1
      trackCount := kept.2 }

def countMissingTracksForCurrentCartridge (cart : Cartridge) (s : Store) (checksum : UInt32) :
    Nat :=
  (List.range cart.getMetadataTrackCount).countP fun index =>
    (cart.getMetadataTrack index).isSome &&
      (findTrackSlot s checksum (UInt32.ofNat index)).isNone

/-- The loop of `play_history_ensure_capacity_locked`. Every turn but the last
frees an album slot, so `maxAlbums + 1` turns are enough. -/
def ensureCapacityLoop (preserveChecksum : UInt32) (preserveCurrent : Bool)
    (albumDelta trackDelta : Nat) : Nat → Store → Store × EspErr
  | 0, s => (s, .noMem)
  | turns + 1, s =>
    if maxAlbums < s.albumCount + albumDelta ∨ maxTracks < s.trackCount + trackDelta then
      let pruneSlot := match findOldestAlbumSlot s preserveChecksum preserveCurrent with
        | some slot => some slot
        | none => if preserveCurrent then findOldestAlbumSlot s 0 false else none
      match pruneSlot with
      | none => (s, .noMem)
      | some slot =>
        ensureCapacityLoop preserveChecksum preserveCurrent albumDelta trackDelta turns
          (removeAlbum s slot)
    else (s, .ok)

def ensureCapacity (preserveChecksum : UInt32) (preserveCurrent : Bool)
    (albumDelta trackDelta : Nat) (s : Store) : Store × EspErr :=
  ensureCapacityLoop preserveChecksum preserveCurrent albumDelta trackDelta (maxAlbums + 1) s

/-! ## Synchronising with the inserted cartridge -/

/-- The album slot a sync works on: the one found, or a free one filled with a
new record. -/
def openAlbum (checksum : UInt32) (found : Option (Fin maxAlbums)) (s : Store) :
    Option (Fin maxAlbums × Store) :=
  match found with
  | some slot => some (slot, s)
  | none =>
    match findFreeAlbumSlot s with
    | none => none
    | some slot =>
      let (sequence, s) := nextSequence s
      some (slot, { s with
        albums := set s.albums slot
          { checksum, trackCount := 0, firstSeenSequence := sequence, lastSeenSequence := 0,
            metadata := .zero }
        albumCount := s.albumCount + 1 })

/-- The fields of the album slot a sync rewrites. A slot that is not in use
stays so: what the code writes there is zeroed before the slot is used. -/
def updateAlbum (slot : Fin maxAlbums) (metadata : JbmHeader) (sequence : UInt32) (s : Store) :
    Store :=
  match s.albums slot with
  | none => s
  | some album =>
    { s with
      albums := set s.albums slot
        { album with
          trackCount := metadata.trackCount, lastSeenSequence := sequence, metadata } }

/-- The track slot a sync works on: the one found, or a free one filled with a
new record. -/
def openTrack (checksum trackIndex : UInt32) (s : Store) : Option (Fin maxTracks × Store) :=
  match findTrackSlot s checksum trackIndex with
  | some slot => some (slot, s)
  | none =>
    match findFreeTrackSlot s with
    | none => none
    | some slot =>
      let (sequence, s) := nextSequence s
      some (slot, { s with
        tracks := set s.tracks slot
          { cartridgeChecksum := checksum, trackIndex, trackFileNum := 0, playCount := 0,
            firstSeenSequence := sequence, lastSeenSequence := 0, metadata := .zero }
        trackCount := s.trackCount + 1 })

/-- The fields of a track slot in use that a sync rewrites. -/
def updateTrack (slot : Fin maxTracks) (metadata : JbmTrack) (sequence : UInt32) (s : Store) :
    Store :=
  match s.tracks slot with
  | none => s
  | some track =>
    { s with
      tracks := set s.tracks slot
        { track with
          trackFileNum := metadata.fileNum, lastSeenSequence := sequence, metadata } }

/-- The loop over the cartridge's tracks. -/
def syncTracks (cart : Cartridge) (checksum sequence : UInt32) :
    List Nat → Store → Store × EspErr
  | [], s => (s, .ok)
  | index :: rest, s =>
    match cart.getMetadataTrack index with
    | none => syncTracks cart checksum sequence rest s
    | some track =>
      match openTrack checksum (UInt32.ofNat index) s with
      | none => (s, .noMem)
      | some (slot, s) =>
        syncTracks cart checksum sequence rest (updateTrack slot track sequence s)

def syncCurrentCartridge (cart : Cartridge) (s : Store) : Store × EspErr :=
  if cart.isMounted = false then (s, .invalidState) else
  match cart.getMetadataHeader with
  | none => (s, .notFound)
  | some metadata =>
    let checksum := metadata.checksum
    let albumSlot := findAlbumSlot s checksum
    let albumDelta := if albumSlot.isNone then 1 else 0
    let trackDelta := countMissingTracksForCurrentCartridge cart s checksum
    match ensureCapacity checksum true albumDelta trackDelta s with
    | (s, .ok) =>
      match openAlbum checksum albumSlot s with
      | none => (s, .noMem)
      | some (slot, s) =>
        let (sequence, s) := nextSequence s
        match syncTracks cart checksum sequence (List.range cart.getMetadataTrackCount)
            (updateAlbum slot metadata sequence s) with
        | (s, .ok) => ({ s with dirty := true }, .ok)
        | (s, err) => (s, err)
    | (s, err) => (s, err)

/-! ## Counting a play -/

/-- The track slot of a countable play: the one found, or the one a sync with
the inserted cartridge makes, when it is the cartridge played. -/
def slotForPlay (cart : Cartridge) (event : TrackEvent) (s : Store) :
    Store × Except EspErr (Option (Fin maxTracks)) :=
  match findTrackSlot s event.cartridgeChecksum event.trackIndex with
  | some slot => (s, .ok (some slot))
  | none =>
    match cart.getMetadataHeader with
    | none => (s, .ok none)
    | some metadata =>
      if metadata.checksum = event.cartridgeChecksum then
        match syncCurrentCartridge cart s with
        | (s, .ok) => (s, .ok (findTrackSlot s event.cartridgeChecksum event.trackIndex))
        | (s, err) => (s, .error err)
      else (s, .ok none)

/-- The play counted in a track slot in use, and the count after it. -/
def countPlay (slot : Fin maxTracks) (event : TrackEvent) (s : Store) : Store × UInt32 :=
  let (sequence, s) := nextSequence s
  match s.tracks slot with
  | none => (s, 0)
  | some track =>
    ({ s with
        tracks := set s.tracks slot
          { track with
            playCount := track.playCount + 1, trackFileNum := event.trackFileNum,
            lastSeenSequence := sequence }
        albums := match findAlbumSlot s event.cartridgeChecksum with
          | none => s.albums
          | some albumSlot =>
            match s.albums albumSlot with
            | none => s.albums
            | some album => set s.albums albumSlot { album with lastSeenSequence := sequence }
        dirty := true },
      track.playCount + 1)

def applyCountablePlay (cart : Cartridge) (event : TrackEvent) (s : Store) :
    Store × Except EspErr ListenCountEvent :=
  match slotForPlay cart event s with
  | (s, .error err) => (s, .error err)
  | (s, .ok none) => (s, .error .notFound)
  | (s, .ok (some slot)) =>
    let (s, playCount) := countPlay slot event s
    (s, .ok ⟨event.cartridgeChecksum, event.trackIndex, event.trackFileNum, playCount⟩)

/-! ## One event -/

/-- The body of the loop in `play_history_service_process_once`: the store after
the event, the error it logs, and the listen count it reports. -/
def processEvent (cart : Cartridge) (event : Event) (s : Store) :
    Store × EspErr × Option ListenCountEvent :=
  match event with
  | .syncCurrentCartridge =>
    let (s, err) := syncCurrentCartridge cart s
    (s, err, none)
  | .countablePlay track =>
    match applyCountablePlay cart track s with
    | (s, .ok listen) => (s, .ok, some listen)
    | (s, .error err) => (s, err, none)
  | .clear => ({ resetCache s with dirty := true }, .ok, none)
  | .rebuild =>
    let (s, err) := syncCurrentCartridge cart { resetCache s with dirty := true }
    (s, err, none)

end Jukeboy.PlayHistory.Cache
