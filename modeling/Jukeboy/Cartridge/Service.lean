import Jukeboy.Base.Runs
import Jukeboy.Formats.JbmFile
import Jukeboy.Player.Track

/-! # The cartridge service

The SD card is mounted and unmounted, and while it is mounted the metadata of the album is in
memory once it has been loaded and has passed validation. Whoever asks for a field gets a
pointer into it, or NULL. -/
namespace Jukeboy.Cartridge.Service

open Jukeboy.Base Jukeboy.Base.Runs Jukeboy.Formats.Jbm Jukeboy.Formats.JbmFile
open Jukeboy.Player.Track (statSize)

/-! ## The state -/

/-- `cartridge_status_t`. -/
inductive Status where
  | empty | ready | invalid
deriving DecidableEq, Repr

/-- `cartridge_service_event_id_t`. -/
inductive Event where
  | started | inserted | mounted | unmounted
deriving DecidableEq, Repr

/-- `blob` is what `s_metadata_blob` with its length points to, and with it the pointers to
the header and the tracks. The code does not keep the `events` it has posted. -/
structure State where
  initialised : Bool
  mounted : Bool
  status : Status
  blob : Option (List UInt8)
  mountGeneration : UInt32
  events : List Event

def off : State where
  initialised := false
  mounted := false
  status := .empty
  blob := none
  mountGeneration := 1
  events := []

/-! ## Loading -/

def jbmMaxSizeBytes : Nat := headerBytes + maxTrackFiles * trackEntryBytes

/-- What the calls of `cartridge_service_load_metadata` answer; `jbm` is what is behind
`album.jbm` when it opens. -/
structure LoadIo where
  jbm : Option (List UInt8)
  seekEnd : Bool := true
  tells : Bool := true
  seekSet : Bool := true
  reads : Bool := true

variable (espRomCrc32Le : UInt32 → List UInt8 → UInt32)

/-- `cartridge_service_load_metadata`. -/
def loadMetadata (io : LoadIo) (s : State) : State × EspErr :=
  let s := { s with blob := none }
  let refused := { s with status := .invalid }
  if !s.mounted then ({ s with status := .empty }, .invalidState)
  else
    match io.jbm with
    | none => (refused, .notFound)
    | some file =>
      if !io.seekEnd then (refused, .fail)
      else
        let fileSize := if io.tells then statSize file.length else -1
        if fileSize ≤ 0 ∨ fileSize.toNat > jbmMaxSizeBytes then (refused, .invalidSize)
        else if !io.seekSet then (refused, .fail)
        else if !io.reads then (refused, .fail)
        else
          let (err, blob) := validateMetadata espRomCrc32Le (file.take fileSize.toNat)
          if err ≠ .ok then (refused, err)
          else ({ s with blob := some blob, status := .ready }, .ok)

/-! ## Mounting -/

def nextGeneration (generation : UInt32) : UInt32 :=
  if generation + 1 = 0 then 1 else generation + 1

/-- The card is another one, or none, from now on. -/
def State.change (s : State) (mounted : Bool) : State :=
  { s with mounted, mountGeneration := nextGeneration s.mountGeneration }

/-- `cartridge_service_mount`; `mounts` is what `esp_vfs_fat_sdmmc_mount` returns. -/
def mount (mounts : EspErr) (io : LoadIo) (s : State) : State × EspErr :=
  if !s.initialised then (s, .invalidState)
  else if s.mounted then ((loadMetadata espRomCrc32Le io s).1, .ok)
  else if mounts ≠ .ok then (s, mounts)
  else
    let s := (loadMetadata espRomCrc32Le io (s.change true)).1
    ({ s with events := s.events ++ [.mounted] }, .ok)

/-- `cartridge_service_unmount`. -/
def unmount (s : State) : State :=
  if !s.mounted then s
  else
    let s := s.change false
    { s with blob := none, status := .empty, events := s.events ++ [.unmounted] }

/-- What the calls of `cartridge_service_init` answer: whether its mutex, queue and task are
there or can be made, and what the mount of the card meets. -/
structure InitIo where
  creates : Bool
  mounts : EspErr
  load : LoadIo

/-- `cartridge_service_init` with a configuration; a card always counts as inserted. -/
def init (io : InitIo) (s : State) : State × EspErr :=
  let s := { s with initialised := true }
  if !io.creates then (s, .noMem)
  else
    let s := { s with status := .empty, events := s.events ++ [.started] }
    let (s, err) := mount espRomCrc32Le io.mounts io.load s
    let s := if err ≠ .ok then { s with status := .invalid } else s
    ({ s with events := s.events ++ [.inserted] }, .ok)

inductive Action where
  | init (io : InitIo)
  | mount (mounts : EspErr) (io : LoadIo)
  | unmount

def step (s : State) : Action → Option State
  | .init io => some (init espRomCrc32Le io s).1
  | .mount mounts io => some (mount espRomCrc32Le mounts io s).1
  | .unmount => some (unmount s)

/-! ## The fields -/

namespace State

variable (s : State) (index : Nat)

def trackCount : Nat :=
  match s.blob with
  | some blob => (u32At blob trackCountAt).toNat
  | none => 0

/-- A pointer into the header, or NULL. -/
def headerField (start : Nat) : Option Nat := s.blob.map fun _ => start

def getAlbumName : Option Nat := s.headerField albumNameAt
def getAlbumDescription : Option Nat := s.headerField albumDescriptionAt
def getAlbumArtist : Option Nat := s.headerField artistAt
def getAlbumGenre : Option Nat := s.headerField genreAt

def getAlbumTag : Option Nat :=
  if s.blob.isNone ∨ index ≥ tagCount then none else s.headerField (tagAt index)

/-- `cartridge_service_get_metadata_track`. -/
def getMetadataTrack : Option Nat :=
  if s.blob.isNone ∨ index ≥ s.trackCount then none else some (trackAt index)

def getTrackName : Option Nat := (s.getMetadataTrack index).map fun _ => trackNameAt index
def getTrackArtists : Option Nat := (s.getMetadataTrack index).map fun _ => trackArtistsAt index

/-- A number of the header; none is 0. -/
def headerNumber (start : Nat) : UInt32 :=
  match s.blob with
  | some blob => u32At blob start
  | none => 0

end State

/-- The C string behind a pointer into the blob, when it ends inside the blob. -/
def readString (blob : List UInt8) (start : Nat) : Option (List UInt8) :=
  if (blob.drop start).contains 0 then some ((blob.drop start).takeWhile (· != 0)) else none

/-! ## What is claimed -/

/-- The pointer is to a string of the blob that fits its field. -/
def State.Reads (s : State) (size start : Nat) : Prop :=
  ∃ blob text, s.blob = some blob ∧ readString blob start = some text ∧ text.length < size

/-- Whether a card has come or gone. -/
def Event.isChange (event : Event) : Bool := event == .mounted || event == .unmounted

/-- Fields are served exactly when the status says so, and then lie in the blob. Every mount
and unmount is posted, and their numbers do not repeat for as long as they can. -/
structure Safe (s : State) : Prop where
  ready : s.status = .ready ↔ s.blob.isSome = true
  mounted : s.status = .ready → s.mounted = true
  empty : s.mounted = true → s.status ≠ .empty
  trackCount : s.trackCount ≤ maxTrackFiles
  albumName : ∀ start, s.getAlbumName = some start → s.Reads albumNameBytes start
  albumDescription : ∀ start, s.getAlbumDescription = some start →
    s.Reads albumDescriptionBytes start
  artist : ∀ start, s.getAlbumArtist = some start → s.Reads artistBytes start
  genre : ∀ start, s.getAlbumGenre = some start → s.Reads genreBytes start
  tag : ∀ index start, s.getAlbumTag index = some start → s.Reads tagBytes start
  trackName : ∀ index start, s.getTrackName index = some start → s.Reads trackNameBytes start
  trackArtists : ∀ index start, s.getTrackArtists index = some start →
    s.Reads trackArtistsBytes start
  tracks : ∀ index start blob, s.getMetadataTrack index = some start → s.blob = some blob →
    start + trackEntryBytes ≤ blob.length
  posted : s.mounted = true ↔ (s.events.filter Event.isChange).getLast? = some .mounted
  generation : s.mountGeneration.toNat = s.events.countP Event.isChange % (2 ^ 32 - 1) + 1

end Jukeboy.Cartridge.Service
