import Jukeboy.CompanionApi.Protocol

/-! # What the companion API shows and asks of the other services

`Services` is what the getters of the other services return while one request
is handled, and what the calls made for it return. A request that is answered
from it alone gives an `Answer`; nothing here depends on the session. -/
namespace Jukeboy.CompanionApi.ServiceHandlers
open Jukeboy.Base Jukeboy.CompanionApi.Tlv Jukeboy.CompanionApi.Protocol

/-! ## Records of the other services -/

/-- `player_service_snapshot_t`. -/
structure PlayerSnapshot where
  isPlaying : Bool
  isPaused : Bool
  cartridgeChecksum : UInt32
  trackIndex : UInt32
  trackCount : UInt32
  playbackPositionSec : UInt32
  trackStartedUnix : UInt32
  trackDurationSec : UInt32
  volumePercent : UInt8
  playbackMode : UInt8
  trackTitle : Bytes
  filename : Bytes
deriving Inhabited

/-- `player_service_playlist_track_info_t`, without the file name no page shows. -/
structure PlaylistTrack where
  trackIndex : UInt32
  trackTitle : Bytes
  trackArtists : Bytes
  durationSec : UInt32
  fileNum : UInt32
deriving Inhabited

/-- One `fopen` to `fclose` of a file: which calls succeed, and what they give. -/
structure FileView where
  opens : Bool
  seeksEnd : Bool
  /-- `ftell`; `none` is a negative result. -/
  tell : Option Nat
  seeksTo : Bool
  content : Bytes
  /-- How many bytes `fread` returns at most. -/
  readLimit : Nat
  ferror : Bool
deriving Inhabited

/-- `fread(chunk, 1, count, file)` at `offset`. -/
def FileView.read (f : FileView) (offset count : Nat) : Bytes :=
  (f.content.drop offset).take (min count f.readLimit)

structure Cartridge where
  status : UInt8
  isMounted : Bool
  metadataChecksum : UInt32
  metadataVersion : UInt32
  metadataTrackCount : UInt32
  mountPoint : Bytes
  albumName : Bytes
  albumArtist : Bytes
  albumDescription : Bytes
  albumYear : UInt32
  albumDurationSec : UInt32
  albumGenre : Bytes
  cover : FileView
deriving Inhabited

structure WifiAp where
  ssid : Bytes
  rssi : Int8
  primary : UInt8
  authmode : UInt8
deriving Inhabited

/-- `wifi_svc_slot_info_t`. -/
structure WifiSlot where
  configured : Bool
  preferred : Bool
  active : Bool
  ssid : Bytes
deriving Inhabited

structure Wifi where
  state : UInt8
  hasInternet : Bool
  autoreconnect : Bool
  /-- The slot indices; -1 when unset. -/
  activeSlot : Int
  preferredSlot : Int
  ipInfo : Option UInt32
  scanResults : Except EspErr (List WifiAp)
  savedSlots : Except EspErr (List WifiSlot)
deriving Inhabited

/-- `lastfm_service_status_t`, as far as the API shows it. -/
structure LastfmStatus where
  hasAuthUrl : Bool
  hasToken : Bool
  hasSession : Bool
  busy : Bool
  scrobblingEnabled : Bool
  nowPlayingEnabled : Bool
  pendingCommands : UInt32
  pendingScrobbles : UInt32
  successfulScrobbles : UInt32
  failedScrobbles : UInt32
  authUrl : Bytes
  username : Bytes
deriving Inhabited

structure HistoryAlbum where
  checksum : UInt32
  trackCount : UInt32
  firstSeenSequence : UInt32
  lastSeenSequence : UInt32
  albumName : Bytes
  artist : Bytes
deriving Inhabited

structure HistoryTrack where
  trackIndex : UInt32
  trackName : Bytes
  playCount : UInt32
  firstSeenSequence : UInt32
  lastSeenSequence : UInt32
deriving Inhabited

structure History where
  albumCount : UInt32
  trackCount : UInt32
  albumRecord : UInt32 → Option HistoryAlbum
  albumTrackCount : UInt32 → UInt32
  albumTrackRecord : UInt32 → UInt32 → Option HistoryTrack
deriving Inhabited

/-- `bluetooth_service_scan_entry_t`. -/
structure BtScanEntry where
  bda : Bytes
  name : Bytes
  rssi : Int8
  cod : UInt32
deriving Inhabited

structure Bluetooth where
  isA2dpConnected : Bool
  bondedDeviceCount : UInt32
  bondedDevices : Except EspErr (List Bytes)
  isDiscoveryRunning : Bool
  discoveryResults : Except EspErr (List BtScanEntry)
deriving Inhabited

/-- The outputs of the HID getters; zero when a getter fails. -/
structure Hid where
  buttonState : UInt32
  adcMainRaw : UInt16
  adcMiscRaw : UInt16
deriving Inhabited

/-- `script_service_run_result_t`, as far as the API shows it. -/
structure ScriptRun where
  runId : UInt32
  resolvedPath : Bytes
  message : Bytes
  output : Bytes
  exitCode : Int32
  scriptSizeBytes : UInt32
deriving Inhabited

/-- A directory entry, with what `stat` says of it when it succeeds. -/
structure DirEntry where
  name : Bytes
  stat : Option (Bool × Nat)
deriving Inhabited

structure Script where
  /-- The status snapshot: status, active run, last run; `none` when the getter fails. -/
  status : Option (UInt8 × Option ScriptRun × Option ScriptRun)
  rootPath : Bytes
  scriptDirectory : Bytes → Option Bytes
  directory : Bytes → Option (List DirEntry)
  logPath : Bytes → Option Bytes
  log : FileView
  started : ScriptRun
deriving Inhabited

/-! ## Calls -/

/-- `player_service_control_t`. -/
inductive PlayerControl where
  | next | previous | fastForward | fastBackward | volumeUp | volumeDown | pause
deriving DecidableEq, Repr

/-- The calls that change another service. -/
inductive ServiceCall where
  | playerRequestControl (control : PlayerControl)
  | playTrackByIndex (index : UInt32)
  | seekToSeconds (seconds : UInt32)
  | setVolumeAbsolute (volume : UInt8)
  | setPlaybackMode (mode : UInt32)
  | audioOutputSelect (target : UInt32)
  | wifiConnect (ssid password : Bytes)
  | wifiScan
  | wifiConnectSlot (slot : UInt8)
  | wifiDisconnect
  | wifiSetAutoreconnect (enabled : Bool)
  | wifiSaveSlot (slot : UInt8) (ssid password : Bytes)
  | wifiReconnect
  | lastfmSetAuthUrl (url : Bytes)
  | lastfmRequestToken
  | lastfmRequestAuth (username password : Bytes)
  | lastfmLogout
  | lastfmSetScrobblingEnabled (enabled : Bool)
  | lastfmSetNowPlayingEnabled (enabled : Bool)
  | historyRequestClear
  | btConnectLastBonded
  | btPairBest
  | btDisconnect
  | btStartDiscovery
  | btUnbond (addr : Bytes)
  | hidLedOff
  | hidLedSetBrightness (percent : UInt8)
  | hidLedSetRgb (r g b : UInt8)
  | scriptStart (name : Bytes) (argv : List Bytes)
  | scheduleReboot (downloadMode : Bool)
deriving DecidableEq, Repr

/-- The other services while one request is handled. -/
structure Services where
  /-- What a call returns. -/
  result : ServiceCall → EspErr
  playerSnapshot : Option PlayerSnapshot
  playlistTrackCount : UInt32
  playlistTrackInfo : UInt32 → Option PlaylistTrack
  outputTarget : UInt8
  cartridge : Cartridge
  wifi : Wifi
  lastfm : LastfmStatus
  history : History
  bluetooth : Bluetooth
  hid : Hid
  script : Script
deriving Inhabited

/-! ## Status TLVs -/

/-- A series of appends whose results the caller ignores. -/
def appendAll (w : Writer) (entries : List (TlvType × Bytes)) : Writer :=
  entries.foldl (fun w (type, value) => append w type value) w

/-- `companion_api_append_playback_status`. -/
def appendPlaybackStatus (sv : Services) (w : Writer) : Writer :=
  match sv.playerSnapshot with
  | none => w
  | some p => appendAll w
    [(.playing, boolBytes p.isPlaying), (.paused, boolBytes p.isPaused),
      (.cartridgeChecksum, u32Bytes p.cartridgeChecksum), (.trackIndex, u32Bytes p.trackIndex),
      (.trackCount, u32Bytes p.trackCount), (.positionSec, u32Bytes p.playbackPositionSec),
      (.startedAt, u32Bytes p.trackStartedUnix), (.durationSec, u32Bytes p.trackDurationSec),
      (.volumePercent, [p.volumePercent]), (.playbackMode, [p.playbackMode]),
      (.trackTitle, stringBytes p.trackTitle), (.trackFile, stringBytes p.filename),
      (.outputTarget, [sv.outputTarget])]

/-- `companion_api_append_cartridge_status`. -/
def appendCartridgeStatus (sv : Services) (w : Writer) : Writer :=
  appendAll w
    [(.cartridgeStatus, [sv.cartridge.status]),
      (.cartridgeMounted, boolBytes sv.cartridge.isMounted),
      (.cartridgeChecksum, u32Bytes sv.cartridge.metadataChecksum),
      (.metadataVersion, u32Bytes sv.cartridge.metadataVersion),
      (.trackCount, u32Bytes sv.cartridge.metadataTrackCount)]

/-- `companion_api_append_wifi_status`. -/
def appendWifiStatus (sv : Services) (w : Writer) : Writer :=
  let w := appendAll w
    [(.wifiState, [sv.wifi.state]), (.wifiInternet, boolBytes sv.wifi.hasInternet),
      (.wifiAutoreconnect, boolBytes sv.wifi.autoreconnect),
      (.wifiActiveSlot, [UInt8.ofInt (sv.wifi.activeSlot + 1)]),
      (.wifiPreferredSlot, [UInt8.ofInt (sv.wifi.preferredSlot + 1)])]
  match sv.wifi.ipInfo with
  | none => w
  | some addr => appendU32 w .wifiIp addr

/-- `companion_api_append_lastfm_status`. -/
def appendLastfmStatus (sv : Services) (w : Writer) : Writer :=
  appendAll w
    [(.lastfmHasAuthUrl, boolBytes sv.lastfm.hasAuthUrl),
      (.lastfmHasToken, boolBytes sv.lastfm.hasToken),
      (.lastfmHasSession, boolBytes sv.lastfm.hasSession), (.lastfmBusy, boolBytes sv.lastfm.busy),
      (.lastfmScrobbling, boolBytes sv.lastfm.scrobblingEnabled),
      (.lastfmNowPlaying, boolBytes sv.lastfm.nowPlayingEnabled),
      (.lastfmPendingCommands, u32Bytes sv.lastfm.pendingCommands),
      (.lastfmPendingScrobbles, u32Bytes sv.lastfm.pendingScrobbles),
      (.lastfmSuccessful, u32Bytes sv.lastfm.successfulScrobbles),
      (.lastfmFailed, u32Bytes sv.lastfm.failedScrobbles),
      (.lastfmAuthUrl, stringBytes sv.lastfm.authUrl),
      (.lastfmUsername, stringBytes sv.lastfm.username)]

/-- `companion_api_append_history_summary`. -/
def appendHistorySummary (sv : Services) (w : Writer) : Writer :=
  appendAll w
    [(.historyAlbumCount, u32Bytes sv.history.albumCount),
      (.historyTrackCount, u32Bytes sv.history.trackCount)]

/-- `companion_api_append_bt_audio_status`. -/
def appendBtAudioStatus (sv : Services) (w : Writer) : Writer :=
  appendAll w
    [(.btA2dpConnected, boolBytes sv.bluetooth.isA2dpConnected),
      (.btBondedCount, u32Bytes sv.bluetooth.bondedDeviceCount)]

/-- `companion_api_append_output_status`. -/
def appendOutputStatus (sv : Services) (w : Writer) : Writer :=
  appendAll w
    [(.outputTarget, [sv.outputTarget]),
      (.btA2dpConnected, boolBytes sv.bluetooth.isA2dpConnected)]

/-- `companion_api_append_script_run_result`. -/
def appendScriptRunResult (run : ScriptRun) (w : Writer) : Writer :=
  appendAll w
    [(.scriptRunId, u32Bytes run.runId), (.scriptResolvedPath, stringBytes run.resolvedPath),
      (.scriptMessage, stringBytes run.message), (.scriptOutput, stringBytes run.output),
      (.scriptExitCode, u32Bytes run.exitCode.toUInt32),
      (.scriptSize, u32Bytes run.scriptSizeBytes)]

/-- `companion_api_append_script_status`; a failed getter shows a zeroed snapshot. -/
def appendScriptStatus (sv : Services) (w : Writer) : Writer :=
  match sv.script.status with
  | none => appendU8 w .scriptState 0
  | some (status, some activeRun, _) =>
    appendScriptRunResult activeRun (appendBool (appendU8 w .scriptState status) .playing true)
  | some (status, none, some lastRun) =>
    appendScriptRunResult lastRun (appendBool (appendU8 w .scriptState status) .playing false)
  | some (status, none, none) => appendU8 w .scriptState status

/-! ## Answers -/

inductive AnswerBody where
  | error (e : ApiError)
  | ok (w : Writer)
  /-- The composite snapshot, under the opcode of the request. -/
  | snapshot

/-- What a handler does: calls into other services, then perhaps
`companion_api_touch_generation`, then the one frame it sends. -/
structure Answer where
  calls : List ServiceCall
  touch : Bool
  body : AnswerBody

def Answer.error (e : ApiError) : Answer := ⟨[], false, .error e⟩

def Answer.show (w : Writer) : Answer := ⟨[], false, .ok w⟩

/-- The tail most handlers share: a failed call is reported, a successful one
touches the generation and is answered with `body`. -/
def Answer.ofCall (sv : Services) (call : ServiceCall) (body : AnswerBody) : Answer :=
  if sv.result call = .ok then ⟨[call], true, body⟩
  else ⟨[call], false, .error (errorFromEsp (sv.result call))⟩

def statusOk : Writer := appendU16 [] .status ApiError.ok.code

/-! ## Playback and output -/

/-- `companion_api_playback_action_t`. -/
inductive PlaybackAction where
  | next | previous | pauseToggle | fastForward | rewind | playIndex | seekSeconds
  | setVolumePercent | setMode | setOutputTarget
deriving DecidableEq, Repr

def PlaybackAction.ofCode (code : UInt8) : Option PlaybackAction :=
  [.next, .previous, .pauseToggle, .fastForward, .rewind, .playIndex, .seekSeconds,
    .setVolumePercent, .setMode, .setOutputTarget][code.toNat - 1]?.filter fun _ => code != 0

def playbackCall (value : UInt32) : PlaybackAction → ServiceCall
  | .next => .playerRequestControl .next
  | .previous => .playerRequestControl .previous
  | .pauseToggle => .playerRequestControl .pause
  | .fastForward => .playerRequestControl .fastForward
  | .rewind => .playerRequestControl .fastBackward
  | .playIndex => .playTrackByIndex value
  | .seekSeconds => .seekToSeconds value
  | .setVolumePercent => .setVolumeAbsolute ((value * 127 + 50) / 100).toUInt8
  | .setMode => .setPlaybackMode value
  | .setOutputTarget => .audioOutputSelect value

/-- `companion_api_handle_playback_control`. -/
def handlePlaybackControl (sv : Services) (payload : Bytes) : Answer :=
  match tlvU8 payload .action with
  | none => .error .invalidArg
  | some code =>
    let value := (tlvU32 payload .value).getD 0
    match PlaybackAction.ofCode code with
    | none => .error .invalidArg
    | some .setVolumePercent =>
      if value > 100 then .error .invalidArg
      -- the volume setter returns nothing, so it cannot fail
      else ⟨[playbackCall value .setVolumePercent], true, .snapshot⟩
    | some action => .ofCall sv (playbackCall value action) .snapshot

/-- `companion_api_handle_output_status`. -/
def handleOutputStatus (sv : Services) : Answer := .show (appendOutputStatus sv [])

def audioOutputTargetBluetooth : UInt8 := 0
def audioOutputTargetI2s : UInt8 := 1

/-- `companion_api_handle_output_select`. -/
def handleOutputSelect (sv : Services) (payload : Bytes) : Answer :=
  match tlvU8 payload .outputTarget with
  | none => .error .invalidArg
  | some target =>
    if target ≠ audioOutputTargetBluetooth ∧ target ≠ audioOutputTargetI2s then .error .invalidArg
    else .ofCall sv (.audioOutputSelect target.toUInt32) (.ok (appendOutputStatus sv statusOk))

/-! ## Pages -/

/-- What the loop of a paged handler finds at a position. -/
inductive PageItem where
  | stop
  | skip
  | entry (tlvs : List (TlvType × Bytes))

/-- The loop of the paged handlers: `count` turns from `position` on. -/
def pageLoop (item : UInt32 → PageItem) : Nat → UInt32 → Writer → UInt32 → Writer × UInt32
  | 0, _, w, returned => (w, returned)
  | count + 1, position, w, returned =>
    match item position with
    | .stop => (w, returned)
    | .skip => pageLoop item count (position + 1) w returned
    | .entry tlvs =>
      match appendEntry w tlvs with
      | none => (w, returned)
      | some w' => pageLoop item count (position + 1) w' (returned + 1)

/-- The requested count, or `most` when none or more is requested. -/
def pageCount (payload : Bytes) (most : UInt32) : UInt32 :=
  let count := (tlvU32 payload .count).getD most
  if count > most then most else count

def pageOffset (payload : Bytes) : UInt32 := (tlvU32 payload .offset).getD 0

/-- A page: the TLVs before the loop, the entries, and how many there are. -/
def page (payload : Bytes) (most : UInt32) (head : Writer) (item : UInt32 → PageItem) : Answer :=
  let (w, returned) := pageLoop item (pageCount payload most).toNat (pageOffset payload) head 0
  .show (appendU32 w .returnedCount returned)

/-- `companion_api_handle_track_page`. -/
def handleTrackPage (sv : Services) (payload : Bytes) : Answer :=
  let total := sv.playlistTrackCount
  page payload 8
    (appendAll [] [(.offset, u32Bytes (pageOffset payload)), (.trackCount, u32Bytes total)])
    fun position =>
      if position < total then
        match sv.playlistTrackInfo position with
        | none => .stop
        | some t => .entry
          [(.trackIndex, u32Bytes t.trackIndex), (.trackTitle, stringBytes t.trackTitle),
            (.trackArtist, stringBytes t.trackArtists), (.durationSec, u32Bytes t.durationSec),
            (.trackFile, u32Bytes t.fileNum)]
      else .stop

/-- `companion_api_handle_wifi_scan_results`. -/
def handleWifiScanResults (sv : Services) (payload : Bytes) : Answer :=
  match sv.wifi.scanResults with
  | .error err => .error (errorFromEsp err)
  | .ok records =>
    page payload 8
      (appendAll [] [(.offset, u32Bytes (pageOffset payload)),
        (.count, u32Bytes (UInt32.ofNat records.length))])
      fun position =>
        match records[position.toNat]? with
        | none => .stop
        | some r => .entry
          [(.wifiSsid, stringBytes r.ssid), (.wifiRssi, u32Bytes (UInt32.ofInt r.rssi.toInt)),
            (.wifiChannel, [r.primary]), (.wifiAuthmode, [r.authmode])]

/-- `companion_api_handle_history_album_page`. -/
def handleHistoryAlbumPage (sv : Services) (payload : Bytes) : Answer :=
  let total := sv.history.albumCount
  page payload 4
    (appendAll [] [(.offset, u32Bytes (pageOffset payload)), (.historyAlbumCount, u32Bytes total)])
    fun position =>
      if position < total then
        match sv.history.albumRecord position with
        | none => .skip
        | some r => .entry
          [(.cartridgeChecksum, u32Bytes r.checksum), (.trackCount, u32Bytes r.trackCount),
            (.historyFirstSeen, u32Bytes r.firstSeenSequence),
            (.historyLastSeen, u32Bytes r.lastSeenSequence),
            (.albumName, stringBytes r.albumName), (.albumArtist, stringBytes r.artist)]
      else .stop

/-- `companion_api_handle_history_track_page`. -/
def handleHistoryTrackPage (sv : Services) (payload : Bytes) : Answer :=
  match tlvU32 payload .cartridgeChecksum with
  | none => .error .invalidArg
  | some checksum =>
    let total := sv.history.albumTrackCount checksum
    page payload 4
      (appendAll [] [(.cartridgeChecksum, u32Bytes checksum),
        (.offset, u32Bytes (pageOffset payload)), (.trackCount, u32Bytes total)])
      fun position =>
        if position < total then
          match sv.history.albumTrackRecord checksum position with
          | none => .skip
          | some r => .entry
            [(.trackIndex, u32Bytes r.trackIndex), (.trackTitle, stringBytes r.trackName),
              (.historyPlayCount, u32Bytes r.playCount),
              (.historyFirstSeen, u32Bytes r.firstSeenSequence),
              (.historyLastSeen, u32Bytes r.lastSeenSequence)]
        else .stop

/-- `companion_api_handle_history_clear`. -/
def handleHistoryClear (sv : Services) : Answer := .ofCall sv .historyRequestClear .snapshot

/-! ## Cartridge -/

def coverFilename : Bytes := ascii "cover.png"
def coverChunkMaxLen : Nat := 1024

/-- `companion_api_resolve_cartridge_path` into the 320 bytes of its callers. -/
def resolveCartridgePath (sv : Services) (filename : Bytes) : Option Bytes :=
  let path := sv.cartridge.mountPoint ++ ascii "/" ++ filename
  if sv.cartridge.isMounted ∧ sv.cartridge.mountPoint ≠ [] ∧ path.length < 320 then some path
  else none

/-- `companion_api_cover_exists`. -/
def coverExists (sv : Services) : Bool :=
  (resolveCartridgePath sv coverFilename).isSome && sv.cartridge.cover.opens

/-- `companion_api_handle_library_album`. -/
def handleLibraryAlbum (sv : Services) : Answer :=
  .show (appendAll (appendCartridgeStatus sv [])
    [(.albumName, stringBytes sv.cartridge.albumName),
      (.albumArtist, stringBytes sv.cartridge.albumArtist),
      (.albumDescription, stringBytes sv.cartridge.albumDescription),
      (.albumYear, u32Bytes sv.cartridge.albumYear),
      (.albumDuration, u32Bytes sv.cartridge.albumDurationSec),
      (.albumGenre, stringBytes sv.cartridge.albumGenre),
      (.albumHasCover, boolBytes (coverExists sv))])

/-- `companion_api_handle_library_cover`. -/
def handleLibraryCover (sv : Services) (payload : Bytes) : Answer :=
  let file := sv.cartridge.cover
  if ¬ sv.cartridge.isMounted then .error .invalidState
  else if (resolveCartridgePath sv coverFilename).isNone then .error .invalidState
  else if ¬ file.opens then .error .notFound
  else if ¬ file.seeksEnd then .error .internal
  else match file.tell with
  | none => .error .internal
  | some totalSize =>
    let count := min ((tlvU32 payload .count).getD (.ofNat coverChunkMaxLen)).toNat coverChunkMaxLen
    let offset := min (pageOffset payload).toNat totalSize
    let bytesToRead := min (totalSize - offset) count
    let chunk := file.read offset bytesToRead
    if totalSize ≥ 2 ^ 32 then .error .internal
    else if ¬ file.seeksTo then .error .internal
    else if bytesToRead > 0 ∧ chunk.length ≠ bytesToRead ∧ file.ferror then .error .internal
    else
      let w := appendAll []
        [(.offset, u32Bytes (.ofNat offset)), (.totalSize, u32Bytes (.ofNat totalSize)),
          (.returnedCount, u32Bytes (.ofNat chunk.length)),
          (.mimeType, stringBytes (ascii "image/png"))]
      .show (if chunk.length > 0 then append w .binaryData chunk else w)

/-! ## Wi-Fi -/

def wifiSlotCount : Nat := 3

/-- `companion_api_handle_wifi_connect`. -/
def handleWifiConnect (sv : Services) (payload : Bytes) : Answer :=
  match tlvString payload .wifiSsid 33 with
  | none => .error .invalidArg
  | some ssid =>
    .ofCall sv (.wifiConnect ssid ((tlvString payload .wifiPassword 65).getD [])) .snapshot

/-- `companion_api_handle_wifi_simple`, one case of its `switch` each. -/
def handleWifiScanStart (sv : Services) : Answer := .ofCall sv .wifiScan .snapshot

def handleWifiConnectSlot (sv : Services) (payload : Bytes) : Answer :=
  match tlvU32 payload .wifiSlot with
  | none => .error .invalidArg
  | some value => .ofCall sv (.wifiConnectSlot value.toUInt8) .snapshot

def handleWifiDisconnect (sv : Services) : Answer := .ofCall sv .wifiDisconnect .snapshot

def handleWifiAutoreconnect (sv : Services) (payload : Bytes) : Answer :=
  match tlvU32 payload .value with
  | none => .error .invalidArg
  | some value => .ofCall sv (.wifiSetAutoreconnect (value != 0)) .snapshot

/-- The TLVs of slot `i` in the slot list. -/
def wifiSlotEntry (i : Nat) (s : WifiSlot) : List (TlvType × Bytes) :=
  [(.wifiSlot, [UInt8.ofNat (i + 1)]), (.wifiSlotConfigured, boolBytes s.configured),
    (.wifiSlotPreferred, boolBytes s.preferred), (.wifiSlotActive, boolBytes s.active),
    (.wifiSsid, stringBytes s.ssid)]

/-- Entries appended one by one until one does not fit. -/
def appendEntries (w : Writer) : List (List (TlvType × Bytes)) → Writer
  | [] => w
  | entry :: entries =>
    match appendEntry w entry with
    | none => w
    | some w' => appendEntries w' entries

/-- `companion_api_handle_wifi_list_slots`. -/
def handleWifiListSlots (sv : Services) : Answer :=
  match sv.wifi.savedSlots with
  | .error err => .error (errorFromEsp err)
  | .ok slots =>
    .show (appendEntries (appendU32 [] .count (.ofNat wifiSlotCount))
      ((slots.take wifiSlotCount).mapIdx wifiSlotEntry))

/-- `companion_api_handle_wifi_save_slot`. -/
def handleWifiSaveSlot (sv : Services) (payload : Bytes) : Answer :=
  match tlvU32 payload .wifiSlot, tlvString payload .wifiSsid 33 with
  | some slot, some ssid =>
    if slot < 1 ∨ slot > .ofNat wifiSlotCount then .error .invalidArg
    else
      .ofCall sv (.wifiSaveSlot slot.toUInt8 ssid ((tlvString payload .wifiPassword 65).getD []))
        (.ok statusOk)
  | _, _ => .error .invalidArg

/-- `companion_api_handle_wifi_reconnect`. -/
def handleWifiReconnect (sv : Services) : Answer := .ofCall sv .wifiReconnect .snapshot

/-! ## Last.fm -/

/-- `companion_api_lastfm_action_t`. -/
inductive LastfmAction where
  | setAuthUrl | requestToken | auth | logout | setScrobbling | setNowPlaying
deriving DecidableEq, Repr

def LastfmAction.ofCode (code : UInt8) : Option LastfmAction :=
  [.setAuthUrl, .requestToken, .auth, .logout, .setScrobbling, .setNowPlaying][code.toNat - 1]?
    |>.filter fun _ => code != 0

/-- The call an action makes; `none` when a TLV it needs is missing. -/
def lastfmCall (payload : Bytes) : LastfmAction → Option ServiceCall
  | .setAuthUrl => (tlvString payload .lastfmAuthUrl 128).map .lastfmSetAuthUrl
  | .requestToken => some .lastfmRequestToken
  | .auth => do
    let username ← tlvString payload .lastfmUsername 128
    let password ← tlvString payload .wifiPassword 128
    return .lastfmRequestAuth username password
  | .logout => some .lastfmLogout
  | .setScrobbling => (tlvU32 payload .value).map fun v => .lastfmSetScrobblingEnabled (v != 0)
  | .setNowPlaying => (tlvU32 payload .value).map fun v => .lastfmSetNowPlayingEnabled (v != 0)

/-- `companion_api_handle_lastfm_control`. -/
def handleLastfmControl (sv : Services) (payload : Bytes) : Answer :=
  match tlvU8 payload .action >>= LastfmAction.ofCode >>= lastfmCall payload with
  | none => .error .invalidArg
  | some call => .ofCall sv call .snapshot

/-- `companion_api_handle_lastfm_request_token`. -/
def handleLastfmRequestToken (sv : Services) : Answer := .ofCall sv .lastfmRequestToken .snapshot

/-! ## Bluetooth -/

/-- `companion_api_bt_action_t`, as the call each action makes. -/
def btCall (code : UInt8) : Option ServiceCall :=
  if code = 1 then some .btConnectLastBonded
  else if code = 2 then some .btPairBest
  else if code = 3 then some .btDisconnect
  else none

/-- `companion_api_handle_bt_audio_control`. -/
def handleBtAudioControl (sv : Services) (payload : Bytes) : Answer :=
  match tlvU8 payload .action >>= btCall with
  | none => .error .invalidArg
  | some call => .ofCall sv call .snapshot

/-- `companion_api_handle_bt_scan_start`. -/
def handleBtScanStart (sv : Services) : Answer :=
  .ofCall sv .btStartDiscovery (.ok (appendBool statusOk .btScanRunning true))

/-- `companion_api_handle_bt_scan_results`. -/
def handleBtScanResults (sv : Services) : Answer :=
  match sv.bluetooth.discoveryResults with
  | .error err => .error (errorFromEsp err)
  | .ok entries =>
    .show (appendEntries
      (appendAll [] [(.btScanRunning, boolBytes sv.bluetooth.isDiscoveryRunning),
        (.count, u32Bytes (.ofNat (entries.take 8).length))])
      ((entries.take 8).map fun e =>
        [(.btAddr, e.bda), (.btName, stringBytes e.name),
          (.btRssi, u32Bytes (UInt32.ofInt e.rssi.toInt)), (.btCod, u32Bytes e.cod)]))

/-- `companion_api_handle_bt_bonded_list`. -/
def handleBtBondedList (sv : Services) : Answer :=
  match (if sv.bluetooth.bondedDeviceCount = 0 then .ok [] else sv.bluetooth.bondedDevices) with
  | .error err => .error (errorFromEsp err)
  | .ok devices =>
    .show (appendAll (appendU32 [] .btBondedCount (.ofNat (devices.take 16).length))
      ((devices.take 16).map fun addr => (.btAddr, addr)))

/-- `companion_api_handle_bt_unbond`. -/
def handleBtUnbond (sv : Services) (payload : Bytes) : Answer :=
  match findTlv payload .btAddr with
  | none => .error .invalidArg
  | some addr =>
    if addr.length ≠ 6 then .error .invalidArg
    else .ofCall sv (.btUnbond addr)
      (.ok (appendU32 statusOk .btBondedCount sv.bluetooth.bondedDeviceCount))

/-! ## HID -/

/-- `companion_api_handle_hid_status`. -/
def handleHidStatus (sv : Services) : Answer :=
  .show (appendAll []
    [(.hidButtonBitmap, u32Bytes sv.hid.buttonState),
      (.hidAdcRaw, u32Bytes sv.hid.adcMainRaw.toUInt32),
      (.hidAdcRaw, u32Bytes sv.hid.adcMiscRaw.toUInt32)])

/-- The calls made in turn while each before it succeeded. -/
def runCalls (sv : Services) : List ServiceCall → List ServiceCall × EspErr
  | [] => ([], .ok)
  | call :: calls =>
    if sv.result call = .ok then
      let (made, err) := runCalls sv calls
      (call :: made, err)
    else ([call], sv.result call)

/-- The calls `companion_api_handle_hid_led_set` makes; none is an invalid request. -/
def ledCalls (payload : Bytes) : List ServiceCall :=
  if ((tlvU8 payload .hidLedOff).getD 0) ≠ 0 then [.hidLedOff]
  else
    let brightness := match tlvU8 payload .hidLedBrightness with
      | some percent => [ServiceCall.hidLedSetBrightness percent]
      | none => []
    let color := match tlvU8 payload .hidLedR, tlvU8 payload .hidLedG, tlvU8 payload .hidLedB with
      | some r, some g, some b => [ServiceCall.hidLedSetRgb r g b]
      | _, _, _ => []
    brightness ++ color

/-- `companion_api_handle_hid_led_set`; the generation is not touched. -/
def handleHidLedSet (sv : Services) (payload : Bytes) : Answer :=
  match ledCalls payload with
  | [] => .error .invalidArg
  | calls =>
    let (made, err) := runCalls sv calls
    if err ≠ .ok then ⟨made, false, .error (errorFromEsp err)⟩ else ⟨made, false, .ok statusOk⟩

/-! ## Scripts -/

def scriptMaxPathLen : Nat := 256
def scriptLogChunkMaxLen : Nat := 512
def scriptMaxArgv : Nat := 8

/-- `companion_api_handle_script_status`. -/
def handleScriptStatus (sv : Services) : Answer := .show (appendScriptStatus sv [])

/-- The TLVs of a directory entry in the script list; none when it is skipped. -/
def scriptListEntry (dirPath : Bytes) (e : DirEntry) : Option (List (TlvType × Bytes)) :=
  if e.name.head? = some 0x2E then none
  else if (dirPath ++ ascii "/" ++ e.name).length ≥ scriptMaxPathLen then none
  else
    let kind : UInt8 := match e.stat with
      | some (true, _) => 1
      | _ => 0
    let size : Nat := match e.stat with
      | some (_, n) => if n < 2 ^ 32 then n else 0
      | none => 0
    some [(.scriptName, stringBytes e.name), (.scriptKind, [kind]),
      (.scriptSize, u32Bytes (.ofNat size))]

/-- The loop over the directory, with the number of entries it appended. -/
def scriptListLoop (w : Writer) (returned : UInt32) :
    List (List (TlvType × Bytes)) → Writer × UInt32
  | [] => (w, returned)
  | entry :: entries =>
    match appendEntry w entry with
    | none => (w, returned)
    | some w' => scriptListLoop w' (returned + 1) entries

/-- `companion_api_handle_script_list`. -/
def handleScriptList (sv : Services) (payload : Bytes) : Answer :=
  let name := (tlvString payload .scriptName scriptMaxPathLen).getD []
  let dirPath : Except ApiError Bytes :=
    if name ≠ [] then
      match sv.script.scriptDirectory name with
      | none => .error .notFound
      | some path => .ok path
    else if sv.script.rootPath = [] then .error .invalidState
    else .ok (sv.script.rootPath.take (scriptMaxPathLen - 1))
  match dirPath with
  | .error e => .error e
  | .ok dirPath =>
    match sv.script.directory dirPath with
    | none => .error .notFound
    | some entries =>
      let (w, returned) := scriptListLoop (appendString [] .scriptResolvedPath dirPath) 0
        (entries.filterMap (scriptListEntry dirPath))
      .show (appendU32 w .returnedCount returned)

/-- `companion_api_handle_script_log`. -/
def handleScriptLog (sv : Services) (payload : Bytes) : Answer :=
  let file := sv.script.log
  match tlvString payload .scriptName scriptMaxPathLen with
  | none | some [] => .error .invalidArg
  | some name =>
    match sv.script.logPath name with
    | none => .error .notFound
    | some logPath =>
      if ¬ file.opens then .error .notFound
      else if ¬ file.seeksEnd then .error .internal
      else match file.tell with
      | none => .error .internal
      | some totalSize =>
        let count := min ((tlvU32 payload .count).getD 1024).toNat scriptLogChunkMaxLen
        let offset := min (pageOffset payload).toNat totalSize
        let chunk := file.read offset (min (totalSize - offset) count)
        if ¬ file.seeksTo then .error .internal
        else
          let w := appendAll []
            [(.scriptName, stringBytes name), (.scriptResolvedPath, stringBytes logPath),
              (.offset, u32Bytes (.ofNat offset)), (.totalSize, u32Bytes (.ofNat totalSize)),
              (.returnedCount, u32Bytes (.ofNat chunk.length))]
          .show (if chunk.length > 0 then append w .binaryData chunk else w)

def isArgSeparator (c : UInt8) : Bool := c == 0x20 || c == 0x09

/-- The loop of `companion_api_split_args`: the buffer before the cursor, the
string from the cursor on, and the offsets in `argv` so far. A separator is
overwritten with NUL only when the cursor passes it on the way to a next word. -/
def splitArgsFrom : Nat → Bytes → Bytes → List Nat → Bytes × List Nat
  | 0, before, rest, argv => (before ++ rest, argv)
  | fuel + 1, before, rest, argv =>
    if rest = [] ∨ argv.length ≥ scriptMaxArgv then (before ++ rest, argv)
    else
      let skipped := rest.takeWhile isArgSeparator
      let before := before ++ List.replicate skipped.length 0
      let rest := rest.drop skipped.length
      if rest = [] then (before, argv)
      else
        let word := rest.takeWhile fun c => !isArgSeparator c
        splitArgsFrom fuel (before ++ word) (rest.drop word.length) (argv ++ [before.length])

/-- `companion_api_split_args`, as the C strings its `argv` points to. -/
def splitArgs (args : Bytes) : List Bytes :=
  let (buffer, argv) := splitArgsFrom (args.length + 1) [] args []
  argv.map fun start => cString (buffer.drop start)

/-- `companion_api_handle_script_run`. -/
def handleScriptRun (sv : Services) (payload : Bytes) : Answer :=
  match tlvString payload .scriptName scriptMaxPathLen with
  | none | some [] => .error .invalidArg
  | some name =>
    let argv := match tlvString payload .scriptArgs 256 with
      | some args => splitArgs args
      | none => []
    .ofCall sv (.scriptStart name argv)
      (.ok (appendScriptRunResult sv.script.started (appendString statusOk .scriptName name)))

/-- `companion_api_handle_system_reboot`; the generation is not touched. -/
def handleSystemReboot (sv : Services) (downloadMode : Bool) : Answer :=
  let err := sv.result (.scheduleReboot downloadMode)
  ⟨[.scheduleReboot downloadMode], false,
    if err ≠ .ok then .error (errorFromEsp err) else .ok statusOk⟩

end Jukeboy.CompanionApi.ServiceHandlers
