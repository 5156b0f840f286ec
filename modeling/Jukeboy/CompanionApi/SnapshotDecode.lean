import Jukeboy.CompanionApi.Task
import Jukeboy.CompanionApi.TlvRoundTrip

/-! # The snapshot, read back

`decode_snapshot` of `tools/companion.py` on the frame that
`companion_api_handle_snapshot` builds. A type that occurs twice is told apart by its
order, so the decoder needs the playback section to be there. -/
namespace Jukeboy.CompanionApi.SnapshotDecode

open Jukeboy.Base Jukeboy.Base.Utf8 Jukeboy.Base.LittleEndian
open Jukeboy.CompanionApi.Tlv Jukeboy.CompanionApi.Protocol
open Jukeboy.CompanionApi.ServiceHandlers Jukeboy.CompanionApi.RequestHandlers
open Jukeboy.CompanionApi.Task Jukeboy.CompanionApi.BleClient Jukeboy.CompanionApi.TlvRoundTrip
open Jukeboy.CompanionApi.RxBuffer (Request)

/-! ## Values -/

/-- `decode_slot`. -/
def decodeSlot (value : UInt8) : Option UInt8 := if value = 0 then none else some (value - 1)

/-- `decode_ip_address`: `inet_ntoa` of the four bytes. -/
def decodeIpAddress (value : UInt32) : String :=
  ".".intercalate ((u32Bytes value).map fun b => toString b.toNat)

/-- `ensure_track_index`. -/
def ensureTrackIndex (value : UInt32) : Option UInt32 :=
  if value = 0xFFFFFFFF then none else some value

/-- What `table.get(value, value)` gives: a name, or the number itself. -/
inductive Label where
  | name (name : String)
  | number (value : UInt8)
deriving DecidableEq, Repr

/-- `table.get(value, value)`. -/
def fromId (table : List (UInt8 × String)) (value : UInt8) : Label :=
  match table.lookup value with
  | some name => .name name
  | none => .number value

/-- `PLAYBACK_MODE_FROM_ID`. -/
def playbackModeFromId : List (UInt8 × String) :=
  [(0, "sequential"), (1, "single_repeat"), (2, "shuffle")]

/-- `OUTPUT_TARGET_FROM_ID`. -/
def outputTargetFromId : List (UInt8 × String) := [(0, "bluetooth"), (1, "i2s")]

/-- `WIFI_STATE_FROM_ID`. -/
def wifiStateFromId : List (UInt8 × String) :=
  [(0, "idle"), (1, "scanning"), (2, "connecting"), (3, "connected"), (4, "disconnected")]

/-- `CARTRIDGE_STATUS_FROM_ID`. -/
def cartridgeStatusFromId : List (UInt8 × String) := [(0, "empty"), (1, "ready"), (2, "invalid")]

/-- `BUTTON_ID_TO_NAME`. -/
def buttonIdToName : List (UInt8 × String) :=
  [(0, "main1"), (1, "main2"), (2, "main3"), (3, "misc1"), (4, "misc2"), (5, "misc3")]

/-- `button_sequence_names`. -/
def buttonSequenceNames (sequence : Bytes) : List String :=
  sequence.map fun value => (buttonIdToName.lookup value).getD ("unknown:" ++ toString value.toNat)

/-! ## The result -/

structure AuthInfo where
  authenticated : Bool := false
  clientId : Text := []
  trustedClientCount : UInt8 := 0
deriving DecidableEq

structure PairingInfo where
  pairingPending : Bool := false
  pairingProgress : UInt8 := 0
  pairingRequired : UInt8 := 0
  pendingClientId : Text := []
  pendingAppName : Text := []
  buttonSequence : List String := []
deriving DecidableEq

structure PlaybackInfo where
  playing : Bool := false
  paused : Bool := false
  cartridgeChecksum : Option UInt32 := none
  trackIndex : Option UInt32 := none
  trackCount : Option UInt32 := none
  positionSec : Option UInt32 := none
  startedAt : Option UInt32 := none
  durationSec : Option UInt32 := none
  volumePercent : Option UInt8 := none
  playbackMode : Option Label := none
  trackTitle : Text := []
  trackFile : Text := []
  outputTarget : Option Label := none
deriving DecidableEq

structure CartridgeInfo where
  status : Option Label := none
  mounted : Bool := false
  checksum : Option UInt32 := none
  metadataVersion : Option UInt32 := none
  trackCount : Option UInt32 := none
deriving DecidableEq

structure WifiInfo where
  state : Option Label := none
  internet : Bool := false
  autoreconnect : Bool := false
  activeSlot : Option UInt8 := none
  preferredSlot : Option UInt8 := none
  ip : Option String := none
deriving DecidableEq

structure LastfmInfo where
  hasAuthUrl : Bool := false
  hasToken : Bool := false
  hasSession : Bool := false
  busy : Bool := false
  scrobbling : Bool := false
  nowPlaying : Bool := false
  pendingCommands : UInt32 := 0
  pendingScrobbles : UInt32 := 0
  successful : UInt32 := 0
  failed : UInt32 := 0
  authUrl : Text := []
  username : Text := []
deriving DecidableEq

structure HistoryInfo where
  albumCount : UInt32 := 0
  trackCount : UInt32 := 0
deriving DecidableEq

structure BluetoothInfo where
  a2dpConnected : Bool := false
  bondedCount : UInt32 := 0
deriving DecidableEq

/-- The `result` of `decode_snapshot`; the defaults are what it starts with. -/
structure Snapshot where
  opcode : String
  requestId : UInt32
  generation : Option UInt32 := none
  uptimeMs : Option UInt32 := none
  auth : AuthInfo := {}
  pairing : PairingInfo := {}
  playback : PlaybackInfo := {}
  cartridge : CartridgeInfo := {}
  wifi : WifiInfo := {}
  lastfm : LastfmInfo := {}
  history : HistoryInfo := {}
  bluetooth : BluetoothInfo := {}
deriving DecidableEq

/-! ## The decoder -/

/-- The locals of the loop of `decode_snapshot`. -/
structure Decoding where
  result : Snapshot
  clientIdSeen : Nat := 0
  cartridgeChecksumSeen : Nat := 0
  trackCountSeen : Nat := 0

namespace Decoding

variable (d : Decoding)

def set (f : Snapshot → Snapshot) : Decoding := { d with result := f d.result }

def setAuth (f : AuthInfo → AuthInfo) : Decoding := d.set fun r => { r with auth := f r.auth }

def setPairing (f : PairingInfo → PairingInfo) : Decoding :=
  d.set fun r => { r with pairing := f r.pairing }

def setPlayback (f : PlaybackInfo → PlaybackInfo) : Decoding :=
  d.set fun r => { r with playback := f r.playback }

def setCartridge (f : CartridgeInfo → CartridgeInfo) : Decoding :=
  d.set fun r => { r with cartridge := f r.cartridge }

def setWifi (f : WifiInfo → WifiInfo) : Decoding := d.set fun r => { r with wifi := f r.wifi }

def setLastfm (f : LastfmInfo → LastfmInfo) : Decoding :=
  d.set fun r => { r with lastfm := f r.lastfm }

def setHistory (f : HistoryInfo → HistoryInfo) : Decoding :=
  d.set fun r => { r with history := f r.history }

def setBluetooth (f : BluetoothInfo → BluetoothInfo) : Decoding :=
  d.set fun r => { r with bluetooth := f r.bluetooth }

/-- The branch of the loop for this type. -/
def take (type : TlvType) (value : Bytes) : Option Decoding :=
  match type with
  | .generation =>
    (tlvValueU32 value).map fun v => d.set fun r => { r with generation := some v }
  | .uptimeMs => (tlvValueU32 value).map fun v => d.set fun r => { r with uptimeMs := some v }
  | .authenticated =>
    (tlvValueBool value).map fun v => d.setAuth fun a => { a with authenticated := v }
  | .clientId =>
    let d := { d with clientIdSeen := d.clientIdSeen + 1 }
    if d.clientIdSeen = 1 then
      some (d.setAuth fun a => { a with clientId := tlvValueString value })
    else some (d.setPairing fun p => { p with pendingClientId := tlvValueString value })
  | .trustedCount =>
    (tlvValueU8 value).map fun v => d.setAuth fun a => { a with trustedClientCount := v }
  | .pairingPending =>
    (tlvValueBool value).map fun v => d.setPairing fun p => { p with pairingPending := v }
  | .pairingProgress =>
    (tlvValueU8 value).map fun v => d.setPairing fun p => { p with pairingProgress := v }
  | .pairingRequired =>
    (tlvValueU8 value).map fun v => d.setPairing fun p => { p with pairingRequired := v }
  | .appName => some (d.setPairing fun p => { p with pendingAppName := tlvValueString value })
  | .buttonSequence =>
    some (d.setPairing fun p => { p with buttonSequence := buttonSequenceNames value })
  | .playing => (tlvValueBool value).map fun v => d.setPlayback fun p => { p with playing := v }
  | .paused => (tlvValueBool value).map fun v => d.setPlayback fun p => { p with paused := v }
  | .cartridgeChecksum =>
    let d := { d with cartridgeChecksumSeen := d.cartridgeChecksumSeen + 1 }
    (tlvValueU32 value).map fun v =>
      if d.cartridgeChecksumSeen = 1 then
        d.setPlayback fun p => { p with cartridgeChecksum := some v }
      else d.setCartridge fun c => { c with checksum := some v }
  | .trackIndex =>
    (tlvValueU32 value).map fun v =>
      d.setPlayback fun p => { p with trackIndex := ensureTrackIndex v }
  | .trackCount =>
    let d := { d with trackCountSeen := d.trackCountSeen + 1 }
    (tlvValueU32 value).map fun v =>
      if d.trackCountSeen = 1 then d.setPlayback fun p => { p with trackCount := some v }
      else d.setCartridge fun c => { c with trackCount := some v }
  | .positionSec =>
    (tlvValueU32 value).map fun v => d.setPlayback fun p => { p with positionSec := some v }
  | .startedAt =>
    (tlvValueU32 value).map fun v => d.setPlayback fun p => { p with startedAt := some v }
  | .durationSec =>
    (tlvValueU32 value).map fun v => d.setPlayback fun p => { p with durationSec := some v }
  | .volumePercent =>
    (tlvValueU8 value).map fun v => d.setPlayback fun p => { p with volumePercent := some v }
  | .playbackMode =>
    (tlvValueU8 value).map fun v =>
      d.setPlayback fun p => { p with playbackMode := some (fromId playbackModeFromId v) }
  | .trackTitle => some (d.setPlayback fun p => { p with trackTitle := tlvValueString value })
  | .trackFile => some (d.setPlayback fun p => { p with trackFile := tlvValueString value })
  | .outputTarget =>
    (tlvValueU8 value).map fun v =>
      d.setPlayback fun p => { p with outputTarget := some (fromId outputTargetFromId v) }
  | .cartridgeStatus =>
    (tlvValueU8 value).map fun v =>
      d.setCartridge fun c => { c with status := some (fromId cartridgeStatusFromId v) }
  | .cartridgeMounted =>
    (tlvValueBool value).map fun v => d.setCartridge fun c => { c with mounted := v }
  | .metadataVersion =>
    (tlvValueU32 value).map fun v => d.setCartridge fun c => { c with metadataVersion := some v }
  | .wifiState =>
    (tlvValueU8 value).map fun v =>
      d.setWifi fun w => { w with state := some (fromId wifiStateFromId v) }
  | .wifiInternet => (tlvValueBool value).map fun v => d.setWifi fun w => { w with internet := v }
  | .wifiAutoreconnect =>
    (tlvValueBool value).map fun v => d.setWifi fun w => { w with autoreconnect := v }
  | .wifiActiveSlot =>
    (tlvValueU8 value).map fun v => d.setWifi fun w => { w with activeSlot := decodeSlot v }
  | .wifiPreferredSlot =>
    (tlvValueU8 value).map fun v => d.setWifi fun w => { w with preferredSlot := decodeSlot v }
  | .wifiIp =>
    (tlvValueU32 value).map fun v => d.setWifi fun w => { w with ip := some (decodeIpAddress v) }
  | .lastfmHasAuthUrl =>
    (tlvValueBool value).map fun v => d.setLastfm fun l => { l with hasAuthUrl := v }
  | .lastfmHasToken =>
    (tlvValueBool value).map fun v => d.setLastfm fun l => { l with hasToken := v }
  | .lastfmHasSession =>
    (tlvValueBool value).map fun v => d.setLastfm fun l => { l with hasSession := v }
  | .lastfmBusy => (tlvValueBool value).map fun v => d.setLastfm fun l => { l with busy := v }
  | .lastfmScrobbling =>
    (tlvValueBool value).map fun v => d.setLastfm fun l => { l with scrobbling := v }
  | .lastfmNowPlaying =>
    (tlvValueBool value).map fun v => d.setLastfm fun l => { l with nowPlaying := v }
  | .lastfmPendingCommands =>
    (tlvValueU32 value).map fun v => d.setLastfm fun l => { l with pendingCommands := v }
  | .lastfmPendingScrobbles =>
    (tlvValueU32 value).map fun v => d.setLastfm fun l => { l with pendingScrobbles := v }
  | .lastfmSuccessful =>
    (tlvValueU32 value).map fun v => d.setLastfm fun l => { l with successful := v }
  | .lastfmFailed => (tlvValueU32 value).map fun v => d.setLastfm fun l => { l with failed := v }
  | .lastfmAuthUrl => some (d.setLastfm fun l => { l with authUrl := tlvValueString value })
  | .lastfmUsername => some (d.setLastfm fun l => { l with username := tlvValueString value })
  | .historyAlbumCount =>
    (tlvValueU32 value).map fun v => d.setHistory fun h => { h with albumCount := v }
  | .historyTrackCount =>
    (tlvValueU32 value).map fun v => d.setHistory fun h => { h with trackCount := v }
  | .btA2dpConnected =>
    (tlvValueBool value).map fun v => d.setBluetooth fun b => { b with a2dpConnected := v }
  | .btBondedCount =>
    (tlvValueU32 value).map fun v => d.setBluetooth fun b => { b with bondedCount := v }
  | _ => some d

/-- The types the loop has a branch for. -/
def types : List TlvType :=
  [.generation, .uptimeMs, .authenticated, .clientId, .trustedCount, .pairingPending,
    .pairingProgress, .pairingRequired, .appName, .buttonSequence, .playing, .paused,
    .cartridgeChecksum, .trackIndex, .trackCount, .positionSec, .startedAt, .durationSec,
    .volumePercent, .playbackMode, .trackTitle, .trackFile, .outputTarget, .cartridgeStatus,
    .cartridgeMounted, .metadataVersion, .wifiState, .wifiInternet, .wifiAutoreconnect,
    .wifiActiveSlot, .wifiPreferredSlot, .wifiIp, .lastfmHasAuthUrl, .lastfmHasToken,
    .lastfmHasSession, .lastfmBusy, .lastfmScrobbling, .lastfmNowPlaying, .lastfmPendingCommands,
    .lastfmPendingScrobbles, .lastfmSuccessful, .lastfmFailed, .lastfmAuthUrl, .lastfmUsername,
    .historyAlbumCount, .historyTrackCount, .btA2dpConnected, .btBondedCount]

/-- One turn of the loop. -/
def read (tlv : RawTlv) : Option Decoding :=
  match types.find? (·.code == tlv.1) with
  | some type => d.take type tlv.2
  | none => some d

end Decoding

/-- `decode_snapshot`. -/
def decodeSnapshot (frame : ClientFrame) : Option Snapshot :=
  let start : Decoding :=
    { result := { opcode := opcodeName frame.opcode, requestId := frame.requestId } }
  ((frame.tlvs.getD []).foldlM Decoding.read start).map (·.result)

/-! ## What the firmware appends -/

section Entries

variable (s : Session) (sv : Services)

def authEntries : List (TlvType × Bytes) :=
  [(.authenticated, boolBytes s.authenticated), (.clientId, stringBytes s.activeClientId),
    (.trustedCount, [s.trustedClientCount])]

def pairingEntries : List (TlvType × Bytes) :=
  [(.pairingPending, boolBytes s.pairing.pending), (.pairingProgress, [s.pairing.progress]),
    (.pairingRequired, [4]), (.clientId, stringBytes s.pairing.clientId),
    (.appName, stringBytes s.pairing.appName)] ++
  if s.pairing.pending then [(.buttonSequence, s.pairing.sequence)] else []

def playbackEntries : List (TlvType × Bytes) :=
  match sv.playerSnapshot with
  | none => []
  | some p =>
    [(.playing, boolBytes p.isPlaying), (.paused, boolBytes p.isPaused),
      (.cartridgeChecksum, u32Bytes p.cartridgeChecksum), (.trackIndex, u32Bytes p.trackIndex),
      (.trackCount, u32Bytes p.trackCount), (.positionSec, u32Bytes p.playbackPositionSec),
      (.startedAt, u32Bytes p.trackStartedUnix), (.durationSec, u32Bytes p.trackDurationSec),
      (.volumePercent, [p.volumePercent]), (.playbackMode, [p.playbackMode]),
      (.trackTitle, stringBytes p.trackTitle), (.trackFile, stringBytes p.filename),
      (.outputTarget, [sv.outputTarget])]

def cartridgeEntries : List (TlvType × Bytes) :=
  [(.cartridgeStatus, [sv.cartridge.status]),
    (.cartridgeMounted, boolBytes sv.cartridge.isMounted),
    (.cartridgeChecksum, u32Bytes sv.cartridge.metadataChecksum),
    (.metadataVersion, u32Bytes sv.cartridge.metadataVersion),
    (.trackCount, u32Bytes sv.cartridge.metadataTrackCount)]

def wifiEntries : List (TlvType × Bytes) :=
  [(.wifiState, [sv.wifi.state]), (.wifiInternet, boolBytes sv.wifi.hasInternet),
    (.wifiAutoreconnect, boolBytes sv.wifi.autoreconnect),
    (.wifiActiveSlot, [UInt8.ofInt (sv.wifi.activeSlot + 1)]),
    (.wifiPreferredSlot, [UInt8.ofInt (sv.wifi.preferredSlot + 1)])] ++
  match sv.wifi.ipInfo with
  | none => []
  | some addr => [(.wifiIp, u32Bytes addr)]

def lastfmEntries : List (TlvType × Bytes) :=
  [(.lastfmHasAuthUrl, boolBytes sv.lastfm.hasAuthUrl),
    (.lastfmHasToken, boolBytes sv.lastfm.hasToken),
    (.lastfmHasSession, boolBytes sv.lastfm.hasSession), (.lastfmBusy, boolBytes sv.lastfm.busy),
    (.lastfmScrobbling, boolBytes sv.lastfm.scrobblingEnabled),
    (.lastfmNowPlaying, boolBytes sv.lastfm.nowPlayingEnabled),
    (.lastfmPendingCommands, u32Bytes sv.lastfm.pendingCommands),
    (.lastfmPendingScrobbles, u32Bytes sv.lastfm.pendingScrobbles),
    (.lastfmSuccessful, u32Bytes sv.lastfm.successfulScrobbles),
    (.lastfmFailed, u32Bytes sv.lastfm.failedScrobbles),
    (.lastfmAuthUrl, stringBytes sv.lastfm.authUrl),
    (.lastfmUsername, stringBytes sv.lastfm.username)]

def historyEntries : List (TlvType × Bytes) :=
  [(.historyAlbumCount, u32Bytes sv.history.albumCount),
    (.historyTrackCount, u32Bytes sv.history.trackCount)]

def bluetoothEntries : List (TlvType × Bytes) :=
  [(.btA2dpConnected, boolBytes sv.bluetooth.isA2dpConnected),
    (.btBondedCount, u32Bytes sv.bluetooth.bondedDeviceCount)]

end Entries

/-- What comes before the playback. -/
def frontEntries (w : World) (generation : UInt32) (s : Session) : List (TlvType × Bytes) :=
  [(.generation, u32Bytes generation), (.uptimeMs, u32Bytes w.uptimeMs)] ++ authEntries s ++
    pairingEntries s

/-- What comes behind the cartridge. -/
def backEntries (sv : Services) : List (TlvType × Bytes) :=
  wifiEntries sv ++ lastfmEntries sv ++ historyEntries sv ++ bluetoothEntries sv

/-- Everything a snapshot is to hold, in the order of the append helpers. -/
def snapshotEntries (w : World) (generation : UInt32) (s : Session) : List (TlvType × Bytes) :=
  frontEntries w generation s ++ playbackEntries w.services ++ cartridgeEntries w.services ++
    backEntries w.services

/-- The texts the services hold. -/
structure Texts where
  clientId : Text
  pendingClientId : Text
  pendingAppName : Text
  trackTitle : Text
  trackFile : Text
  authUrl : Text
  username : Text

/-- A buffer for at most `n` bytes holds this text. -/
def Holds (n : Nat) (bytes : Bytes) (text : Text) : Prop :=
  bytes = encode text ∧ 0 ∉ bytes ∧ bytes.length ≤ n

/-- The strings of the services are these texts, each within its buffer. -/
structure Reports (w : World) (s : Session) (x : Texts) : Prop where
  clientId : Holds 36 s.activeClientId x.clientId
  pendingClientId : Holds 36 s.pairing.clientId x.pendingClientId
  pendingAppName : Holds 32 s.pairing.appName x.pendingAppName
  sequence : s.pairing.sequence.length = 4
  trackTitle : ∀ p, w.services.playerSnapshot = some p → Holds 127 p.trackTitle x.trackTitle
  trackFile : ∀ p, w.services.playerSnapshot = some p → Holds 15 p.filename x.trackFile
  authUrl : Holds 127 w.services.lastfm.authUrl x.authUrl
  username : Holds 127 w.services.lastfm.username x.username

/-- The playback section a decoder is to find. -/
def reportedPlayback (sv : Services) (x : Texts) : PlaybackInfo :=
  match sv.playerSnapshot with
  | none => {}
  | some p =>
    { playing := p.isPlaying, paused := p.isPaused, cartridgeChecksum := some p.cartridgeChecksum
      trackIndex := ensureTrackIndex p.trackIndex, trackCount := some p.trackCount
      positionSec := some p.playbackPositionSec, startedAt := some p.trackStartedUnix
      durationSec := some p.trackDurationSec, volumePercent := some p.volumePercent
      playbackMode := some (fromId playbackModeFromId p.playbackMode)
      trackTitle := x.trackTitle, trackFile := x.trackFile
      outputTarget := some (fromId outputTargetFromId sv.outputTarget) }

/-- What the firmware says of its services, field by field. -/
def reported (w : World) (generation : UInt32) (s : Session) (x : Texts) (opcode : UInt16)
    (requestId : UInt32) : Snapshot where
  opcode := opcodeName opcode
  requestId
  generation := some generation
  uptimeMs := some w.uptimeMs
  auth :=
    { authenticated := s.authenticated, clientId := x.clientId
      trustedClientCount := s.trustedClientCount }
  pairing :=
    { pairingPending := s.pairing.pending, pairingProgress := s.pairing.progress
      pairingRequired := 4, pendingClientId := x.pendingClientId
      pendingAppName := x.pendingAppName
      buttonSequence :=
        if s.pairing.pending then buttonSequenceNames s.pairing.sequence else [] }
  playback := reportedPlayback w.services x
  cartridge :=
    let c := w.services.cartridge
    { status := some (fromId cartridgeStatusFromId c.status), mounted := c.isMounted
      checksum := some c.metadataChecksum, metadataVersion := some c.metadataVersion
      trackCount := some c.metadataTrackCount }
  wifi :=
    let i := w.services.wifi
    { state := some (fromId wifiStateFromId i.state), internet := i.hasInternet
      autoreconnect := i.autoreconnect
      activeSlot := decodeSlot (UInt8.ofInt (i.activeSlot + 1))
      preferredSlot := decodeSlot (UInt8.ofInt (i.preferredSlot + 1))
      ip := i.ipInfo.map decodeIpAddress }
  lastfm :=
    let l := w.services.lastfm
    { hasAuthUrl := l.hasAuthUrl, hasToken := l.hasToken, hasSession := l.hasSession
      busy := l.busy, scrobbling := l.scrobblingEnabled, nowPlaying := l.nowPlayingEnabled
      pendingCommands := l.pendingCommands, pendingScrobbles := l.pendingScrobbles
      successful := l.successfulScrobbles, failed := l.failedScrobbles
      authUrl := x.authUrl, username := x.username }
  history :=
    { albumCount := w.services.history.albumCount, trackCount := w.services.history.trackCount }
  bluetooth :=
    { a2dpConnected := w.services.bluetooth.isA2dpConnected
      bondedCount := w.services.bluetooth.bondedDeviceCount }

/-! ## Appending -/

theorem appendPairingStatus_eq (s : Session) (w : Writer) :
    appendPairingStatus s.pairing w = appendAll w (pairingEntries s) := by
  unfold appendPairingStatus pairingEntries
  rw [← appendAll_append]
  cases s.pairing.pending with
  | false => exact (appendAll_nil _).symm
  | true => exact append_eq _ _ _

theorem appendPlaybackStatus_eq (sv : Services) (w : Writer) :
    appendPlaybackStatus sv w = appendAll w (playbackEntries sv) := by
  unfold appendPlaybackStatus playbackEntries
  cases sv.playerSnapshot <;> rfl

theorem appendWifiStatus_eq (sv : Services) (w : Writer) :
    appendWifiStatus sv w = appendAll w (wifiEntries sv) := by
  unfold appendWifiStatus wifiEntries
  rw [← appendAll_append]
  cases sv.wifi.ipInfo with
  | none => exact (appendAll_nil _).symm
  | some addr => exact append_eq _ _ _

theorem snapshotTlvs_eq (w : World) (generation : UInt32) (s : Session) :
    snapshotTlvs w generation s = appendAll [] (snapshotEntries w generation s) := by
  have hhead : appendU32 (appendU32 [] .generation generation) .uptimeMs w.uptimeMs =
      appendAll [] [(.generation, u32Bytes generation), (.uptimeMs, u32Bytes w.uptimeMs)] := rfl
  have hauth (v : Writer) : appendAuthStatus s v = appendAll v (authEntries s) := rfl
  have hcartridge (v : Writer) :
      appendCartridgeStatus w.services v = appendAll v (cartridgeEntries w.services) := rfl
  have hlastfm (v : Writer) :
      appendLastfmStatus w.services v = appendAll v (lastfmEntries w.services) := rfl
  have hhistory (v : Writer) :
      appendHistorySummary w.services v = appendAll v (historyEntries w.services) := rfl
  have hbluetooth (v : Writer) :
      appendBtAudioStatus w.services v = appendAll v (bluetoothEntries w.services) := rfl
  simp only [snapshotTlvs, hhead, hauth, hcartridge, hlastfm, hhistory, hbluetooth,
    appendPairingStatus_eq, appendPlaybackStatus_eq, appendWifiStatus_eq, appendAll_append,
    snapshotEntries, frontEntries, backEntries, List.append_assoc]

theorem length_stringBytes_le {n : Nat} {v : Bytes} (h : v.length ≤ n) :
    (stringBytes v).length ≤ n := by
  rw [stringBytes, List.length_take]
  omega

theorem length_boolBytes (v : Bool) : (boolBytes v).length = 1 := rfl

/-- **Everything fits.** The longest strings leave more than half of the payload free. -/
theorem size_snapshotEntries {w : World} {s : Session} {x : Texts} (h : Reports w s x)
    (generation : UInt32) : size (snapshotEntries w generation s) ≤ writerCapacity := by
  have hauth : size (authEntries s) ≤ 50 := by
    have hclient := length_stringBytes_le h.clientId.2.2
    simp only [authEntries, size_cons, size_nil, length_boolBytes, List.length_singleton,
      tlvHeaderLen]
    omega
  have hpairing : size (pairingEntries s) ≤ 99 := by
    have hclient := length_stringBytes_le h.pendingClientId.2.2
    have happ := length_stringBytes_le h.pendingAppName.2.2
    have hsequence := h.sequence
    cases hpending : s.pairing.pending <;>
    · simp only [pairingEntries, hpending, size_append, size_cons, size_nil, length_boolBytes,
        List.length_singleton, tlvHeaderLen, if_true, Bool.false_eq_true, if_false]
      omega
  have hplayback : size (playbackEntries w.services) ≤ 228 := by
    unfold playbackEntries
    cases hp : w.services.playerSnapshot with
    | none => exact Nat.zero_le _
    | some p =>
      have htitle := length_stringBytes_le (h.trackTitle p hp).2.2
      have hfile := length_stringBytes_le (h.trackFile p hp).2.2
      simp only [size_cons, size_nil, length_boolBytes, List.length_singleton, length_u32Bytes,
        tlvHeaderLen]
      omega
  have hcartridge : size (cartridgeEntries w.services) = 34 := rfl
  have hwifi : size (wifiEntries w.services) ≤ 33 := by
    unfold wifiEntries
    cases w.services.wifi.ipInfo <;> simp [length_boolBytes, tlvHeaderLen]
  have hlastfm : size (lastfmEntries w.services) ≤ 324 := by
    have hurl := length_stringBytes_le h.authUrl.2.2
    have hname := length_stringBytes_le h.username.2.2
    simp only [lastfmEntries, size_cons, size_nil, length_boolBytes, length_u32Bytes,
      tlvHeaderLen]
    omega
  have hhistory : size (historyEntries w.services) = 16 := rfl
  have hbluetooth : size (bluetoothEntries w.services) = 13 := rfl
  simp only [snapshotEntries, frontEntries, backEntries, size_append, size_cons, size_nil,
    length_u32Bytes, tlvHeaderLen, writerCapacity, frameMaxLen, headerLen]
  omega

/-- No TLV is left out. -/
theorem snapshotTlvs_complete {w : World} {s : Session} {x : Texts} (h : Reports w s x)
    (generation : UInt32) :
    snapshotTlvs w generation s = (snapshotEntries w generation s).map toTlv := by
  have hsize := size_snapshotEntries h generation
  rw [snapshotTlvs_eq, appendAll_fits _ _ (by rw [Writer.len, List.map_nil, List.sum_nil]; omega),
    List.nil_append]

/-! ## Decoding -/

/-- The loop over entries whose types it has branches for. -/
def decodeAll (d : Decoding) (entries : List (TlvType × Bytes)) : Option Decoding :=
  entries.foldlM (fun d entry => d.take entry.1 entry.2) d

@[simp] theorem decodeAll_nil (d : Decoding) : decodeAll d [] = some d := rfl

@[simp] theorem decodeAll_cons (d : Decoding) (type : TlvType) (value : Bytes)
    (entries : List (TlvType × Bytes)) :
    decodeAll d ((type, value) :: entries) = (d.take type value).bind (decodeAll · entries) := rfl

@[simp] theorem decodeAll_append (d : Decoding) (a b : List (TlvType × Bytes)) :
    decodeAll d (a ++ b) = (decodeAll d a).bind (decodeAll · b) := List.foldlM_append

theorem find_types {type : TlvType} (h : type ∈ Decoding.types) :
    Decoding.types.find? (·.code == type.code) = some type := by
  have hall : ∀ t ∈ Decoding.types, Decoding.types.find? (·.code == t.code) = some t := by
    decide +kernel
  exact hall type h

theorem foldlM_read {entries : List (TlvType × Bytes)} (d : Decoding)
    (h : ∀ type ∈ entries.map Prod.fst, type ∈ Decoding.types) :
    (entries.map toRaw).foldlM Decoding.read d = decodeAll d entries := by
  induction entries generalizing d with
  | nil => rfl
  | cons entry entries ih =>
    obtain ⟨type, value⟩ := entry
    rw [List.map_cons, List.forall_mem_cons] at h
    have hread : d.read (toRaw (type, value)) = d.take type value := by
      rw [Decoding.read, toRaw, find_types h.1]
    rw [List.map_cons, List.foldlM_cons, hread, decodeAll_cons]
    exact congrArg (Option.bind (d.take type value)) (funext fun d => ih d h.2)

theorem tlvValueString_stringBytes {n : Nat} {bytes : Bytes} {text : Text}
    (h : Holds n bytes text) (hn : n ≤ 65535) : tlvValueString (stringBytes bytes) = text := by
  obtain ⟨rfl, -, hlen⟩ := h
  rw [tlvValueString, stringBytes, List.take_of_length_le (by omega), decode_encode]

attribute [simp] Decoding.take

section Sections

variable {w : World} {s : Session} {x : Texts} {d : Decoding}

theorem decode_head (generation uptimeMs : UInt32) :
    decodeAll d [(.generation, u32Bytes generation), (.uptimeMs, u32Bytes uptimeMs)] =
      some (d.set fun r => { r with generation := some generation, uptimeMs := some uptimeMs }) := by
  simp [Decoding.set]

theorem decode_auth (h : Reports w s x) (hseen : d.clientIdSeen = 0) :
    decodeAll d (authEntries s) = some ({ d with clientIdSeen := 1 }.setAuth fun _ =>
      { authenticated := s.authenticated, clientId := x.clientId
        trustedClientCount := s.trustedClientCount }) := by
  have hclient := tlvValueString_stringBytes h.clientId (by omega)
  simp [authEntries, Decoding.setAuth, Decoding.set, hseen, hclient]

theorem decode_pairing (h : Reports w s x) (hseen : d.clientIdSeen = 1)
    (hnone : d.result.pairing.buttonSequence = []) :
    decodeAll d (pairingEntries s) = some ({ d with clientIdSeen := 2 }.setPairing fun _ =>
      { pairingPending := s.pairing.pending, pairingProgress := s.pairing.progress
        pairingRequired := 4, pendingClientId := x.pendingClientId
        pendingAppName := x.pendingAppName
        buttonSequence :=
          if s.pairing.pending then buttonSequenceNames s.pairing.sequence else [] }) := by
  have hclient := tlvValueString_stringBytes h.pendingClientId (by omega)
  have happ := tlvValueString_stringBytes h.pendingAppName (by omega)
  cases hpending : s.pairing.pending <;>
    simp [pairingEntries, Decoding.setPairing, Decoding.set, hseen, hclient, happ,
      hpending, hnone]

theorem decode_playback (h : Reports w s x) {p : PlayerSnapshot}
    (hp : w.services.playerSnapshot = some p) (hchecksum : d.cartridgeChecksumSeen = 0)
    (hcount : d.trackCountSeen = 0) :
    decodeAll d (playbackEntries w.services) =
      some ({ d with cartridgeChecksumSeen := 1, trackCountSeen := 1 }.setPlayback fun _ =>
        reportedPlayback w.services x) := by
  have htitle := tlvValueString_stringBytes (h.trackTitle p hp) (by omega)
  have hfile := tlvValueString_stringBytes (h.trackFile p hp) (by omega)
  simp [playbackEntries, reportedPlayback, Decoding.setPlayback, Decoding.set, hp,
    hchecksum, hcount, htitle, hfile]

/-- The cartridge's fields are its own when the playback section came before them. -/
theorem decode_cartridge (hchecksum : d.cartridgeChecksumSeen = 1) (hcount : d.trackCountSeen = 1) :
    decodeAll d (cartridgeEntries w.services) =
      some ({ d with cartridgeChecksumSeen := 2, trackCountSeen := 2 }.setCartridge fun _ =>
        { status := some (fromId cartridgeStatusFromId w.services.cartridge.status)
          mounted := w.services.cartridge.isMounted
          checksum := some w.services.cartridge.metadataChecksum
          metadataVersion := some w.services.cartridge.metadataVersion
          trackCount := some w.services.cartridge.metadataTrackCount }) := by
  simp [cartridgeEntries, Decoding.setCartridge, Decoding.set, hchecksum, hcount]

/-- Otherwise two of them are shown as those of the playback. -/
theorem decode_cartridge_alone (hchecksum : d.cartridgeChecksumSeen = 0)
    (hcount : d.trackCountSeen = 0) :
    decodeAll d (cartridgeEntries w.services) =
      some (({ d with cartridgeChecksumSeen := 1, trackCountSeen := 1 }.setPlayback fun p =>
        { p with
          cartridgeChecksum := some w.services.cartridge.metadataChecksum
          trackCount := some w.services.cartridge.metadataTrackCount }).setCartridge fun c =>
        { c with
          status := some (fromId cartridgeStatusFromId w.services.cartridge.status)
          mounted := w.services.cartridge.isMounted
          metadataVersion := some w.services.cartridge.metadataVersion }) := by
  simp [cartridgeEntries, Decoding.setPlayback, Decoding.setCartridge, Decoding.set,
    hchecksum, hcount]

theorem decode_wifi (hip : d.result.wifi.ip = none) :
    decodeAll d (wifiEntries w.services) = some (d.setWifi fun _ =>
      { state := some (fromId wifiStateFromId w.services.wifi.state)
        internet := w.services.wifi.hasInternet
        autoreconnect := w.services.wifi.autoreconnect
        activeSlot := decodeSlot (UInt8.ofInt (w.services.wifi.activeSlot + 1))
        preferredSlot := decodeSlot (UInt8.ofInt (w.services.wifi.preferredSlot + 1))
        ip := w.services.wifi.ipInfo.map decodeIpAddress }) := by
  cases hinfo : w.services.wifi.ipInfo <;>
    simp [wifiEntries, Decoding.setWifi, Decoding.set, hinfo, hip]

theorem decode_lastfm (h : Reports w s x) :
    decodeAll d (lastfmEntries w.services) = some (d.setLastfm fun _ =>
      let l := w.services.lastfm
      { hasAuthUrl := l.hasAuthUrl, hasToken := l.hasToken, hasSession := l.hasSession
        busy := l.busy, scrobbling := l.scrobblingEnabled, nowPlaying := l.nowPlayingEnabled
        pendingCommands := l.pendingCommands, pendingScrobbles := l.pendingScrobbles
        successful := l.successfulScrobbles, failed := l.failedScrobbles
        authUrl := x.authUrl, username := x.username }) := by
  have hurl := tlvValueString_stringBytes h.authUrl (by omega)
  have hname := tlvValueString_stringBytes h.username (by omega)
  simp [lastfmEntries, Decoding.setLastfm, Decoding.set, hurl, hname]

theorem decode_history :
    decodeAll d (historyEntries w.services) = some (d.setHistory fun _ =>
      { albumCount := w.services.history.albumCount
        trackCount := w.services.history.trackCount }) := by
  simp [historyEntries, Decoding.setHistory, Decoding.set]

theorem decode_bluetooth :
    decodeAll d (bluetoothEntries w.services) = some (d.setBluetooth fun _ =>
      { a2dpConnected := w.services.bluetooth.isA2dpConnected
        bondedCount := w.services.bluetooth.bondedDeviceCount }) := by
  simp [bluetoothEntries, Decoding.setBluetooth, Decoding.set]

end Sections

/-! ## The whole snapshot -/

/-- The locals before the loop. -/
def start (r : Request) : Decoding where
  result := { opcode := opcodeName r.opcode, requestId := r.requestId }

/-- `decode_snapshot` of the frame that `companion_api_handle_snapshot` sends. -/
def decodedSnapshot (w : World) (s : State) (r : Request) : Option Snapshot :=
  (decodeFrame (replyFrame ⟨.response, r.opcode, r.requestId, .snapshot⟩ w s).encode).bind
    decodeSnapshot

section Whole

variable {w : World} {s : Session} {x : Texts}

theorem mem_types (w : World) (generation : UInt32) (s : Session) :
    ∀ type ∈ (snapshotEntries w generation s).map Prod.fst, type ∈ Decoding.types := by
  have hfront : ∀ type ∈ (frontEntries w generation s).map Prod.fst, type ∈ Decoding.types := by
    unfold frontEntries pairingEntries
    cases s.pairing.pending <;> simp [authEntries, Decoding.types]
  have hplayback : ∀ type ∈ (playbackEntries w.services).map Prod.fst, type ∈ Decoding.types := by
    unfold playbackEntries
    cases w.services.playerSnapshot <;> simp [Decoding.types]
  have hcartridge : ∀ type ∈ (cartridgeEntries w.services).map Prod.fst,
      type ∈ Decoding.types := by
    simp [cartridgeEntries, Decoding.types]
  have hback : ∀ type ∈ (backEntries w.services).map Prod.fst, type ∈ Decoding.types := by
    unfold backEntries wifiEntries
    cases w.services.wifi.ipInfo <;>
      simp [lastfmEntries, historyEntries, bluetoothEntries, Decoding.types]
  simp only [snapshotEntries, List.map_append, List.forall_mem_append]
  exact ⟨⟨⟨hfront, hplayback⟩, hcartridge⟩, hback⟩

/-- The frame reaches the loop of the decoder with every TLV. -/
theorem decodedSnapshot_eq {s : State} {r : Request} (h : Reports w s.session x)
    (hop : r.opcode ≠ Opcode.ping.code) :
    decodedSnapshot w s r =
      (decodeAll (start r) (snapshotEntries w s.counters.eventGeneration s.session)).map
        (·.result) := by
  have htypes := mem_types w s.counters.eventGeneration s.session
  obtain ⟨payload, hdecoded⟩ := decodeFrame_reply r.requestId
    (size_snapshotEntries h s.counters.eventGeneration) hop
  simp only [decodedSnapshot, replyFrame, snapshotTlvs_complete h]
  rw [hdecoded, Option.bind_some, decodeSnapshot, Option.getD_some, foldlM_read _ htypes]
  rfl

/-- The loop, up to the playback section. -/
theorem decode_front (h : Reports w s x) (generation : UInt32) (r : Request) :
    decodeAll (start r) (frontEntries w generation s) =
      some { clientIdSeen := 2, result :=
        { reported w generation s x r.opcode r.requestId with
          playback := {}, cartridge := {}, wifi := {}, lastfm := {}, history := {}
          bluetooth := {} } } := by
  rw [frontEntries, decodeAll_append, decodeAll_append, decode_head, Option.bind_some,
    decode_auth h rfl, Option.bind_some, decode_pairing h rfl rfl]
  rfl

/-- The loop, behind the cartridge section. -/
theorem decode_back (h : Reports w s x) {d : Decoding} (hip : d.result.wifi.ip = none)
    (generation : UInt32) (r : Request) :
    decodeAll d (backEntries w.services) = some (d.set fun result =>
      let whole := reported w generation s x r.opcode r.requestId
      { result with
        wifi := whole.wifi, lastfm := whole.lastfm, history := whole.history
        bluetooth := whole.bluetooth }) := by
  rw [backEntries, decodeAll_append, decodeAll_append, decodeAll_append, decode_wifi hip,
    Option.bind_some, decode_lastfm h, Option.bind_some, decode_history, Option.bind_some,
    decode_bluetooth]
  rfl

theorem decode_available (h : Reports w s x) (generation : UInt32) (r : Request)
    {p : PlayerSnapshot} (hp : w.services.playerSnapshot = some p) :
    (decodeAll (start r) (snapshotEntries w generation s)).map (·.result) =
      some (reported w generation s x r.opcode r.requestId) := by
  rw [snapshotEntries, decodeAll_append, decodeAll_append, decodeAll_append, decode_front h,
    Option.bind_some, decode_playback h hp rfl rfl, Option.bind_some, decode_cartridge rfl rfl,
    Option.bind_some, decode_back h rfl generation r]
  rfl

/-- What a snapshot without a playback section is taken for. -/
def misread (w : World) (result : Snapshot) : Snapshot :=
  { result with
    playback :=
      { cartridgeChecksum := some w.services.cartridge.metadataChecksum
        trackCount := some w.services.cartridge.metadataTrackCount }
    cartridge := { result.cartridge with checksum := none, trackCount := none } }

theorem decode_unavailable (h : Reports w s x) (generation : UInt32) (r : Request)
    (hp : w.services.playerSnapshot = none) :
    (decodeAll (start r) (snapshotEntries w generation s)).map (·.result) =
      some (misread w (reported w generation s x r.opcode r.requestId)) := by
  have hplayback : playbackEntries w.services = [] := by rw [playbackEntries, hp]
  rw [snapshotEntries, hplayback, List.append_nil, decodeAll_append, decodeAll_append,
    decode_front h, Option.bind_some, decode_cartridge_alone rfl rfl, Option.bind_some,
    decode_back h rfl generation r]
  rfl

/-- The client reads back everything the firmware says, and nothing was left out. -/
def Inverts (w : World) (s : State) (x : Texts) (r : Request) : Prop :=
  snapshotTlvs w s.counters.eventGeneration s.session =
      (snapshotEntries w s.counters.eventGeneration s.session).map toTlv ∧
    decodedSnapshot w s r =
      some (reported w s.counters.eventGeneration s.session x r.opcode r.requestId)

theorem inverts_of_available {s : State} {r : Request} (h : Reports w s.session x)
    (hop : r.opcode ≠ Opcode.ping.code) {p : PlayerSnapshot}
    (hp : w.services.playerSnapshot = some p) : Inverts w s x r :=
  ⟨snapshotTlvs_complete h _, by rw [decodedSnapshot_eq h hop, decode_available h _ r hp]⟩

theorem not_inverts {s : State} {r : Request} (h : Reports w s.session x)
    (hop : r.opcode ≠ Opcode.ping.code) (hp : w.services.playerSnapshot = none) :
    ¬ Inverts w s x r := by
  rintro ⟨-, hdecoded⟩
  rw [decodedSnapshot_eq h hop, decode_unavailable h _ r hp] at hdecoded
  have hchecksum := congrArg (fun result => result.cartridge.checksum) (Option.some.inj hdecoded)
  cases hchecksum

/-- **The snapshot is read back** as the firmware built it exactly if the player answered. -/
theorem snapshot_inverts {s : State} {r : Request} (h : Reports w s.session x)
    (hop : r.opcode ≠ Opcode.ping.code) :
    Inverts w s x r ↔ w.services.playerSnapshot.isSome = true := by
  cases hp : w.services.playerSnapshot with
  | none => exact iff_of_false (not_inverts h hop hp) Bool.false_ne_true
  | some p => exact iff_of_true (inverts_of_available h hop hp) rfl

end Whole

/-! ## Values that are shown -/

/-- The slot indices the Wi-Fi service reports, -1 among them, are told apart. -/
theorem decodeSlot_ofInt {slot : Int} (hge : -1 ≤ slot) (hlt : slot < 255) :
    decodeSlot (UInt8.ofInt (slot + 1)) = if slot = -1 then none else some (UInt8.ofInt slot) := by
  have hall : ∀ n : Fin 256, decodeSlot (UInt8.ofInt (n.val - 1 + 1)) =
      if (n.val : Int) - 1 = -1 then none else some (UInt8.ofInt (n.val - 1)) := by
    decide +kernel
  obtain ⟨n, hn⟩ := Int.eq_ofNat_of_zero_le (show 0 ≤ slot + 1 by omega)
  obtain rfl : slot = (n : Int) - 1 := by omega
  exact hall ⟨n, by omega⟩

theorem mem_of_lookup {table : List (UInt8 × String)} {value : UInt8} {name : String}
    (h : table.lookup value = some name) : (value, name) ∈ table := by
  obtain ⟨front, back, rfl, -⟩ := List.lookup_eq_some_iff.mp h
  exact List.mem_append_right front List.mem_cons_self

/-- No two values of an enumeration are shown alike. -/
theorem fromId_injective :
    ∀ table ∈ [playbackModeFromId, outputTargetFromId, wifiStateFromId, cartridgeStatusFromId],
      Function.Injective (fromId table) := by
  intro table htable a b hab
  have hnodup : (table.map Prod.snd).Nodup := by
    have hall : ∀ table ∈
        [playbackModeFromId, outputTargetFromId, wifiStateFromId, cartridgeStatusFromId],
        (table.map Prod.snd).Nodup := by
      decide +kernel
    exact hall table htable
  unfold fromId at hab
  cases ha : table.lookup a with
  | none =>
    cases hb : table.lookup b with
    | none =>
      rw [ha, hb] at hab
      exact Label.number.inj hab
    | some name =>
      rw [ha, hb] at hab
      cases hab
  | some name =>
    cases hb : table.lookup b with
    | none =>
      rw [ha, hb] at hab
      cases hab
    | some name' =>
      rw [ha, hb] at hab
      obtain rfl : name = name' := Label.name.inj hab
      exact congrArg Prod.fst (List.inj_on_of_nodup_map hnodup (mem_of_lookup ha)
        (mem_of_lookup hb) rfl)

/-! ## A cartridge with and without a player -/

/-- A world whose cartridge has three tracks. -/
def cartridgeWorld (player : Option PlayerSnapshot) : World where
  inputs :=
    { link := { connected := some 1, notificationsEnabled := true, mtu := 247, maxPayload := 244
                refusedChunk := none }
      now := 0, time := 0, nonce := [], nvs := .working }
  services :=
    { (default : Services) with
      playerSnapshot := player
      cartridge := { (default : Cartridge) with metadataChecksum := 7, metadataTrackCount := 3 } }
  uptimeMs := 1000
  queueFree := 16

def bootState : State := initState (fun _ => none) 0 0

def askSnapshot : Request := ⟨Opcode.snapshot.code, 1, []⟩

/-- The texts of services that hold none, but for the title. -/
def titled (trackTitle : Text) : Texts where
  clientId := []
  pendingClientId := []
  pendingAppName := []
  trackTitle
  trackFile := []
  authUrl := []
  username := []

theorem reports_cartridgeWorld {player : Option PlayerSnapshot} {title : Text}
    (htitle : ∀ p, player = some p → Holds 127 p.trackTitle title)
    (hfile : ∀ p, player = some p → Holds 15 p.filename []) :
    Reports (cartridgeWorld player) bootState.session (titled title) where
  clientId := ⟨rfl, List.not_mem_nil, Nat.zero_le _⟩
  pendingClientId := ⟨rfl, List.not_mem_nil, Nat.zero_le _⟩
  pendingAppName := ⟨rfl, List.not_mem_nil, Nat.zero_le _⟩
  sequence := rfl
  trackTitle := htitle
  trackFile := hfile
  authUrl := ⟨rfl, List.not_mem_nil, Nat.zero_le _⟩
  username := ⟨rfl, List.not_mem_nil, Nat.zero_le _⟩

/-- A player that plays "é". -/
def playing : PlayerSnapshot := { (default : PlayerSnapshot) with trackTitle := [0xC3, 0xA9] }

theorem snapshot_inverts_playing :
    Inverts (cartridgeWorld (some playing)) bootState (titled ['é']) askSnapshot := by
  have hreports : Reports (cartridgeWorld (some playing)) bootState.session (titled ['é']) :=
    reports_cartridgeWorld
      (fun p hp => Option.some.inj hp ▸ ⟨by decide +kernel, by decide, by decide⟩)
      (fun p hp => Option.some.inj hp ▸ ⟨rfl, List.not_mem_nil, Nat.zero_le _⟩)
  exact (snapshot_inverts hreports (by decide)).mpr rfl

/-- Without a player the checksum of the cartridge is shown as that of the playback. -/
theorem snapshot_misread :
    Reports (cartridgeWorld none) bootState.session (titled []) ∧
      ¬ Inverts (cartridgeWorld none) bootState (titled []) askSnapshot ∧
      (decodedSnapshot (cartridgeWorld none) bootState askSnapshot).map (fun result =>
        (result.playback.cartridgeChecksum, result.cartridge.checksum)) =
          some (some 7, none) := by
  have hreports : Reports (cartridgeWorld none) bootState.session (titled []) :=
    reports_cartridgeWorld (fun p hp => by cases hp) (fun p hp => by cases hp)
  refine ⟨hreports, not_inverts hreports (by decide) rfl, ?_⟩
  rw [decodedSnapshot_eq hreports (by decide), decode_unavailable hreports _ _ rfl]
  rfl

end Jukeboy.CompanionApi.SnapshotDecode
