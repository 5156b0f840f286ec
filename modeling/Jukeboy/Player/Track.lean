import Jukeboy.Base.EspErr
import Jukeboy.Formats.Jba

/-! # Track metadata and the lookup window

`player_service_load_track_info` and the sliding window over the lookup table
of a `.jba` file: the window holds up to 51 consecutive entries, so that it
bounds 50 chunks, or every chunk up to the last one of the track. -/
namespace Jukeboy.Player.Track
open Jukeboy.Base Jukeboy.Base.LittleEndian Jukeboy.Formats.Jba

def cartridgeReadBufSize : Nat := 64 * 1024
def chunkMaxBytes : Nat := 24 * 1024
def chunkCrcBytes : Nat := 4
def lookupWindowChunks : Nat := 50
def lookupWindowEntries : Nat := lookupWindowChunks + 1
def maxLookupEntries : Nat := 24 * 60 * 60

/-- `SIZE_MAX` of the 32-bit target. -/
def sizeMax : Nat := 2 ^ 32 - 1

/-- `player_service_track_info_t`. The file name `NNN.jba` is kept as the
number it is printed from; `none` is the empty name. -/
structure TrackInfo where
  filename : Option Nat
  lookupTableLen : Nat
  dataOffset : Nat
  totalFileSize : Nat
  lookupWindowStart : Nat
  lookupWindowEntryCount : Nat
  lookupWindow : List Nat
deriving DecidableEq, Repr

/-- The track information of `memset(&s_track_info, 0, ...)`. -/
def TrackInfo.zero : TrackInfo :=
  ⟨none, 0, 0, 0, 0, 0, List.replicate lookupWindowEntries 0⟩

/-- `info->total_file_size - info->data_offset`. -/
def TrackInfo.dataLen (info : TrackInfo) : Nat := info.totalFileSize - info.dataOffset

/-! ## Loading a track -/

/-- What the calls into the cartridge service and the file system answer. -/
structure LoadIo where
  readRequest : EspErr := .ok
  readResult : EspErr := .ok
  statOk : Bool := true

/-- `st.st_size` as the 32-bit `long` it is copied to. -/
def statSize (length : Nat) : Int :=
  let low : Nat := length % 2 ^ 32
  if low < 2 ^ 31 then low else (low : Int) - 2 ^ 32

def invalidateLookupWindow (info : TrackInfo) : TrackInfo :=
  { info with
    lookupWindowStart := 0
    lookupWindowEntryCount := 0
    lookupWindow := List.replicate lookupWindowEntries 0 }

/-- `jukeboy_jba_header_t`. -/
structure JbaHeader where
  version : Nat
  headerLenInBlocks : Nat
  lookupTableLen : Nat

def readHeader (buf : List UInt8) : JbaHeader where
  version := leNat (buf.take 1)
  headerLenInBlocks := leNat ((buf.drop 1).take 4)
  lookupTableLen := leNat ((buf.drop 5).take 4)

/-- `player_service_load_track_info` on a file with these bytes. -/
def loadTrackInfo (filename : Nat) (io : LoadIo) (file : List UInt8) :
    Except EspErr TrackInfo := do
  let buf := file.take cartridgeReadBufSize
  failIf (io.readRequest != .ok) io.readRequest
  failIf (io.readResult != .ok) io.readResult
  failIf (decide (buf.length < headerLen)) .fail
  let header := readHeader buf
  failIf (header.version != jbaVersion) .notSupported
  failIf (decide (header.lookupTableLen > (sizeMax - headerLen) / 4)) .invalidSize
  failIf (decide (header.lookupTableLen > maxLookupEntries)) .invalidSize
  let dataOffset := header.headerLenInBlocks * headerBlockSize
  failIf (decide (dataOffset = 0 ∨ dataOffset > sizeMax)) .invalidSize
  failIf (header.lookupTableLen == 0) .fail
  failIf (!io.statOk) .notFound
  let fileSize := statSize file.length
  failIf (decide (fileSize ≤ 0 ∨ fileSize ≤ (dataOffset : Int))) .fail
  failIf (decide (dataOffset < headerLen + header.lookupTableLen * 4)) .invalidSize
  return invalidateLookupWindow
    { TrackInfo.zero with
      filename := some filename
      lookupTableLen := header.lookupTableLen
      dataOffset := dataOffset
      totalFileSize := fileSize.toNat }

/-! ## The window -/

/-- Entry `i` of the lookup table of a file with these bytes. -/
def tableEntry (file : List UInt8) (i : Nat) : Nat :=
  leNat ((file.drop (headerLen + 4 * i)).take 4)

def lookupWindowContainsChunk (info : TrackInfo) (chunkIndex : Nat) : Bool :=
  if info.lookupWindowEntryCount = 0 ∨ chunkIndex ≥ info.lookupTableLen ∨
      chunkIndex < info.lookupWindowStart then
    false
  else
    let relativeIndex := chunkIndex - info.lookupWindowStart
    if relativeIndex + 1 < info.lookupWindowEntryCount then
      true
    else
      decide (chunkIndex + 1 = info.lookupTableLen) &&
        decide (relativeIndex + 1 = info.lookupWindowEntryCount)

/-- What the environment answers while a window is loaded: the two
`player_service_should_stop` calls, `fopen`, `fseek`, and whether `fread`
stopped early. -/
structure WindowIo where
  stopBefore : Bool := false
  openOk : Bool := true
  seekOk : Bool := true
  shortRead : Bool := false
  stopAfter : Bool := false

/-- No stop is requested and every file operation succeeds. -/
def WindowIo.good (io : WindowIo) : Prop :=
  io.stopBefore = false ∧ io.openOk = true ∧ io.seekOk = true ∧ io.shortRead = false ∧
    io.stopAfter = false

/-- The three checks on one chunk of a loaded window. -/
def chunkValid (totalDataBytes chunkStart chunkEnd : Nat) : Bool :=
  !(decide (chunkStart > totalDataBytes) || decide (chunkEnd > totalDataBytes) ||
      decide (chunkEnd < chunkStart)) &&
    !decide (chunkEnd - chunkStart ≤ chunkCrcBytes) &&
    !decide (chunkEnd - chunkStart > chunkMaxBytes)

/-- The end of chunk `index` of a window with `entryCount` entries: the next
entry, or the end of the data after the last one. -/
def windowChunkEnd (window : List Nat) (entryCount totalDataBytes index : Nat) : Nat :=
  if index + 1 < entryCount then window.getD (index + 1) 0 else totalDataBytes

def windowEntryCount (lookupTableLen startChunk : Nat) : Nat :=
  min (lookupTableLen - startChunk) lookupWindowEntries

/-- How many chunks of a fresh window are validated: the last entry only
bounds the chunk before it, unless the table ends there. -/
def windowChunkCount (lookupTableLen startChunk : Nat) : Nat :=
  let entryCount := windowEntryCount lookupTableLen startChunk
  if startChunk + entryCount < lookupTableLen then entryCount - 1 else entryCount

/-- The information after `fread`, before the entries are checked. -/
def readWindow (file : List UInt8) (info : TrackInfo) (startChunk : Nat) : TrackInfo :=
  let entryCount := windowEntryCount info.lookupTableLen startChunk
  { info with
    lookupWindowStart := startChunk
    lookupWindowEntryCount := entryCount
    lookupWindow := ((List.range entryCount).map fun k => tableEntry file (startChunk + k)) ++
      info.lookupWindow.drop entryCount }

/-- The checks of the validation loop on entry `index` of the window. -/
def windowChunkValid (info : TrackInfo) (index : Nat) : Bool :=
  chunkValid info.dataLen (info.lookupWindow.getD index 0)
    (windowChunkEnd info.lookupWindow info.lookupWindowEntryCount info.dataLen index)

/-- The part of `player_service_load_lookup_window` whose failures all
invalidate the window: the range check, the read and the checks on its entries. -/
def fillLookupWindow (file : List UInt8) (io : WindowIo) (info : TrackInfo) (startChunk : Nat) :
    Except EspErr TrackInfo := do
  let entryCount := windowEntryCount info.lookupTableLen startChunk
  let lookupByteOffset := headerLen + startChunk * 4
  let lookupBytes := entryCount * 4
  failIf (decide (lookupByteOffset > info.dataOffset ∨
    lookupBytes > info.dataOffset - lookupByteOffset)) .invalidSize
  failIf io.stopBefore .invalidState
  failIf (!io.openOk) .notFound
  failIf (!io.seekOk) .fail
  failIf io.stopAfter .invalidState
  failIf (io.shortRead || decide (file.length < lookupByteOffset + lookupBytes)) .fail
  let loaded := readWindow file info startChunk
  failIf (startChunk == 0 && loaded.lookupWindow.getD 0 0 != 0) .fail
  failIf (!(List.range (windowChunkCount info.lookupTableLen startChunk)).all
    (windowChunkValid loaded)) .fail
  return loaded

def loadLookupWindow (file : List UInt8) (io : WindowIo) (info : TrackInfo) (startChunk : Nat) :
    EspErr × TrackInfo :=
  if startChunk ≥ info.lookupTableLen then
    (.invalidArg, info)
  else
    match fillLookupWindow file io info startChunk with
    | .ok loaded => (.ok, loaded)
    | .error err => (err, invalidateLookupWindow info)

/-! ## Chunk bounds -/

/-- The first half of `player_service_get_chunk_bounds`: after it succeeds the
window contains the chunk. -/
def ensureWindow (file : List UInt8) (io : WindowIo) (info : TrackInfo) (chunkIndex : Nat) :
    EspErr × TrackInfo :=
  if chunkIndex ≥ info.lookupTableLen then
    (.invalidArg, info)
  else if lookupWindowContainsChunk info chunkIndex then
    (.ok, info)
  else
    loadLookupWindow file io info chunkIndex

/-- The second half: the entries of the chunk, read from the window. `none`
when the index lies outside the array. -/
def readBounds (info : TrackInfo) (chunkIndex : Nat) : Option (Nat × Nat) :=
  let relativeIndex := chunkIndex - info.lookupWindowStart
  (info.lookupWindow[relativeIndex]?).bind fun chunkStart =>
    if relativeIndex + 1 < info.lookupWindowEntryCount then
      (info.lookupWindow[relativeIndex + 1]?).map fun chunkEnd => (chunkStart, chunkEnd)
    else
      some (chunkStart, info.dataLen)

/-- `player_service_get_chunk_bounds`. -/
def getChunkBounds (file : List UInt8) (io : WindowIo) (info : TrackInfo) (chunkIndex : Nat) :
    Except EspErr (Option (Nat × Nat)) × TrackInfo :=
  match ensureWindow file io info chunkIndex with
  | (.ok, info') => (.ok (readBounds info' chunkIndex), info')
  | (err, info') => (.error err, info')

/-! ## Positions in the track -/

def fastSeekSeconds : Nat := 5

def clampChunkIndex (lookupTableLen chunkIndex : Nat) : Nat :=
  if lookupTableLen = 0 then 0
  else if chunkIndex ≥ lookupTableLen then lookupTableLen - 1
  else chunkIndex

def fastSeekStep (lookupTableLen : Nat) : Nat :=
  if lookupTableLen = 0 then 0 else fastSeekSeconds

/-- `player_service_get_seek_target`, from the chunk that is current or, while
paused, the one playback resumes at. -/
def getSeekTarget (lookupTableLen baseChunk : Nat) (forward : Bool) : Nat :=
  let step := fastSeekStep lookupTableLen
  let base := clampChunkIndex lookupTableLen baseChunk
  if lookupTableLen = 0 then 0
  else if forward then
    if base + step ≥ lookupTableLen then lookupTableLen - 1 else base + step
  else if step ≥ base then 0
  else base - step

end Jukeboy.Player.Track
