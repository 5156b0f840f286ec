import Jukeboy.Base.Calls
import Jukeboy.CompanionApi.RequestHandlers

/-! # The calls the request handlers make

Every handler again, exit by exit, as the calls it makes: frames sent, calls that
change another service, and getters, whose results decide which exit is taken.
What the frames carry is in `ServiceHandlers` and `RequestHandlers`; here an
entry fits in the frame or not. -/
namespace Jukeboy.CompanionApi.HandlerCalls
open Jukeboy.Base Jukeboy.Base.Calls Jukeboy.CompanionApi.Tlv Jukeboy.CompanionApi.Protocol
open Jukeboy.CompanionApi.ServiceHandlers (ServiceCall PlaybackAction playbackCall LastfmAction
  lastfmCall btCall pageCount pageOffset splitArgs scriptMaxPathLen scriptLogChunkMaxLen
  wifiSlotCount coverChunkMaxLen audioOutputTargetBluetooth audioOutputTargetI2s)
open Jukeboy.CompanionApi.TrustedStore (clientIdMaxLen appNameMaxLen secretLen maxTrustedClients)
open Jukeboy.CompanionApi.RequestHandlers (hidButtonCount pairingSequenceLen)
open Jukeboy.CompanionApi.RxBuffer (RxEvent Request ParseStep parseStep)

/-! ## Calls -/

/-- Getters whose results are only shown. -/
inductive Getter where
  | timerTime | sppMtu | sppMaxPayload | fillRandom
  | outputTarget
  | cartridgeStatus | cartridgeChecksum | cartridgeMetadataVersion | cartridgeTrackCount
  | cartridgeAlbumName | cartridgeAlbumArtist | cartridgeAlbumDescription | cartridgeAlbumYear
  | cartridgeAlbumDuration | cartridgeAlbumGenre
  | wifiState | wifiHasInternet | wifiAutoreconnect | wifiActiveSlot | wifiPreferredSlot
  | lastfmStatus
  | historyAlbumCount | historyTrackCount
  | btA2dpConnected | btBondedCount | btDiscoveryRunning
  | trustedCount | trustedRecount
  | fclose | closedir
deriving DecidableEq, Repr

/-- Functions that return an `esp_err_t`, and fill in something shown. -/
inductive Fetch where
  | playerSnapshot | playlistTrackInfo (index : UInt32)
  | wifiIpInfo | wifiScanResults | wifiSavedSlots
  | btDiscoveryResults | btBondedDevices
  | hidButtonState | hidAdcStatus
  | scriptStatusSnapshot | scriptDirectory (name : Bytes) | scriptLogPath (name : Bytes)
  | loadRecord (slot : Nat) | findRecord (clientId : Bytes) | revokeClient (clientId : Bytes)
deriving DecidableEq, Repr

/-- What is asked for a yes or a no. -/
inductive Test where
  | cartridgeMounted | mountPointSet | coverPathFits
  | fopen | seekEnd | seekSet | ferror
  | historyAlbumRecord (index : UInt32) | historyTrackRecord (checksum index : UInt32)
  | scriptRootSet
  | hmacMatches
deriving DecidableEq, Repr

/-- What is asked for a number. -/
inductive Count where
  | playlistTracks | wifiScanned | historyAlbums | historyAlbumTracks (checksum : UInt32)
  | btDiscovered | btBonded | bytesRead
deriving DecidableEq, Repr

inductive Call where
  /-- `companion_api_send_frame`, with the error an error frame reports. -/
  | sendFrame (type : FrameType) (opcode : UInt16) (requestId : UInt32) (error : Option ApiError)
  | command (call : ServiceCall)
  | get (getter : Getter)
  | fetch (f : Fetch)
  | test (t : Test)
  | count (c : Count)
  /-- `ftell`; `none` is a negative result. -/
  | ftell
  /-- `opendir` and the entries `readdir` gives: whether each is hidden, and whether
  its path fits in the buffer. -/
  | opendir
  /-- Whether the next entry fits in the frame. -/
  | fits
deriving DecidableEq, Repr

/-- What a call returns. -/
def Call.Result : Call → Type
  | .sendFrame .. | .command _ | .fetch _ => EspErr
  | .get _ => Unit
  | .test _ | .fits => Bool
  | .count _ => Nat
  | .ftell => Option Nat
  | .opendir => Option (List (Bool × Bool))

abbrev Api := Prog Call.Result

def sendFrame (type : FrameType) (opcode : UInt16) (requestId : UInt32)
    (error : Option ApiError) : Api EspErr := .call (.sendFrame type opcode requestId error) .done

def command (call : ServiceCall) : Api EspErr := .call (.command call) .done

def get (getter : Getter) : Api Unit := .call (.get getter) .done

def fetch (f : Fetch) : Api EspErr := .call (.fetch f) .done

def test (t : Test) : Api Bool := .call (.test t) .done

def count (c : Count) : Api Nat := .call (.count c) .done

def ftell : Api (Option Nat) := .call .ftell .done

def opendir : Api (Option (List (Bool × Bool))) := .call .opendir .done

def fits : Api Bool := .call .fits .done

/-- `companion_api_send_error`. -/
def sendError (opcode : UInt16) (requestId : UInt32) (error : ApiError) : Api EspErr :=
  sendFrame .error opcode requestId (some error)

/-- `companion_api_send_ok`. -/
def sendOk (opcode : UInt16) (requestId : UInt32) : Api EspErr :=
  sendFrame .response opcode requestId none

/-- `companion_api_send_pairing_status`. -/
def sendPairingStatus (requestId : UInt32) (type : FrameType) : Api EspErr :=
  sendFrame type Opcode.pairStatus.code requestId none

/-! ## Status TLVs -/

def appendPlaybackStatus : Api Unit := do
  if (← fetch .playerSnapshot) = .ok then
    get .outputTarget

def appendCartridgeStatus : Api Unit := do
  get .cartridgeStatus
  let _ ← test .cartridgeMounted
  get .cartridgeChecksum
  get .cartridgeMetadataVersion
  get .cartridgeTrackCount

def appendWifiStatus : Api Unit := do
  get .wifiState
  get .wifiHasInternet
  get .wifiAutoreconnect
  get .wifiActiveSlot
  get .wifiPreferredSlot
  let _ ← fetch .wifiIpInfo

def appendLastfmStatus : Api Unit := get .lastfmStatus

def appendHistorySummary : Api Unit := do
  get .historyAlbumCount
  get .historyTrackCount

def appendBtAudioStatus : Api Unit := do
  get .btA2dpConnected
  get .btBondedCount

def appendOutputStatus : Api Unit := do
  get .outputTarget
  get .btA2dpConnected

def appendScriptStatus : Api Unit := do
  let _ ← fetch .scriptStatusSnapshot

/-- `companion_api_handle_snapshot`. -/
def handleSnapshot (opcode : UInt16) (requestId : UInt32) : Api EspErr := do
  get .timerTime
  appendPlaybackStatus
  appendCartridgeStatus
  appendWifiStatus
  appendLastfmStatus
  appendHistorySummary
  appendBtAudioStatus
  sendOk opcode requestId

/-- The end most handlers share: a failed call is reported, otherwise `done` answers. -/
def answer (err : EspErr) (opcode : UInt16) (requestId : UInt32) (done : Api EspErr) :
    Api EspErr :=
  if err ≠ .ok then sendError opcode requestId (errorFromEsp err) else done

/-! ## Session handlers -/

/-- The globals the handlers read to choose an exit. -/
structure Globals where
  authenticated : Bool
  authChallengePending : Bool
  authClientId : Bytes

def handleCapabilities (opcode : UInt16) (requestId : UInt32) : Api EspErr := do
  get .sppMtu
  get .sppMaxPayload
  sendOk opcode requestId

def handleHello (opcode : UInt16) (requestId : UInt32) : Api EspErr := sendOk opcode requestId

/-- The `PING` case of `companion_api_handle_request`. -/
def handlePing (opcode : UInt16) (requestId : UInt32) (payload : Bytes) : Api EspErr :=
  if payload.length > frameMaxLen - headerLen then sendError opcode requestId .badFrame
  else sendFrame .response opcode requestId none

def handlePairBegin (requestId : UInt32) (payload : Bytes) : Api EspErr :=
  match tlvString payload .clientId (clientIdMaxLen + 1),
    tlvString payload .appName (appNameMaxLen + 1), findTlv payload .sharedSecret,
    findTlv payload .buttonSequence with
  | some clientId, some _, some secret, some sequence =>
    if secret.length ≠ secretLen ∨ sequence.length ≠ pairingSequenceLen ∨ clientId = [] then
      sendError Opcode.pairBegin.code requestId .invalidArg
    else if sequence.any (· ≥ hidButtonCount) then sendError Opcode.pairBegin.code requestId .invalidArg
    else sendPairingStatus requestId .response
  | _, _, _, _ => sendError Opcode.pairBegin.code requestId .invalidArg

def handleAuthChallenge (requestId : UInt32) (payload : Bytes) : Api EspErr :=
  match tlvString payload .clientId (clientIdMaxLen + 1) with
  | none => sendError Opcode.authChallenge.code requestId .notFound
  | some clientId => do
    if (← fetch (.findRecord clientId)) ≠ .ok then
      sendError Opcode.authChallenge.code requestId .notFound
    else
      get .fillRandom
      sendOk Opcode.authChallenge.code requestId

def handleAuthProof (g : Globals) (requestId : UInt32) (payload : Bytes) : Api EspErr :=
  match tlvString payload .clientId (clientIdMaxLen + 1), findTlv payload .authHmac with
  | some clientId, some hmac =>
    if ¬ g.authChallengePending ∨ clientId ≠ g.authClientId ∨ hmac.length ≠ 32 then
      sendError Opcode.authProof.code requestId .invalidArg
    else do
      let err ← fetch (.findRecord clientId)
      if err ≠ .ok then sendError Opcode.authProof.code requestId (errorFromEsp err)
      else if ¬ (← test .hmacMatches) then sendError Opcode.authProof.code requestId .invalidArg
      else sendOk Opcode.authProof.code requestId
  | _, _ => sendError Opcode.authProof.code requestId .invalidArg

def loadRecords : List Nat → Api Unit
  | [] => pure ()
  | slot :: slots => do
    let _ ← fetch (.loadRecord slot)
    loadRecords slots

def handleTrustedList (requestId : UInt32) : Api EspErr := do
  get .trustedCount
  loadRecords (List.range maxTrustedClients)
  sendOk Opcode.trustedList.code requestId

/-- The `TRUSTED_REVOKE` case of `companion_api_handle_request`. -/
def handleTrustedRevoke (opcode : UInt16) (requestId : UInt32) (payload : Bytes) : Api EspErr :=
  match tlvString payload .clientId (clientIdMaxLen + 1) with
  | none => sendError opcode requestId .invalidArg
  | some clientId => do
    let err ← fetch (.revokeClient clientId)
    answer err opcode requestId (handleTrustedList requestId)

/-! ## Playback, output and library -/

/-- A call, or `ESP_ERR_INVALID_ARG` where the request gives none. -/
def commandOr (call : Option ServiceCall) : Api EspErr :=
  match call with
  | none => pure .invalidArg
  | some call => command call

/-- The `switch` of `companion_api_handle_playback_control`. -/
def playbackControl (code : UInt8) (value : UInt32) : Api EspErr :=
  match PlaybackAction.ofCode code with
  | none => pure .invalidArg
  | some .setVolumePercent =>
    if value > 100 then pure .invalidArg
    else do
      -- the volume setter returns nothing
      let _ ← command (playbackCall value .setVolumePercent)
      return .ok
  | some action => command (playbackCall value action)

def handlePlaybackControl (requestId : UInt32) (payload : Bytes) : Api EspErr :=
  match tlvU8 payload .action with
  | none => sendError Opcode.playbackControl.code requestId .invalidArg
  | some code => do
    let err ← playbackControl code ((tlvU32 payload .value).getD 0)
    answer err Opcode.playbackControl.code requestId
      (handleSnapshot Opcode.playbackControl.code requestId)

/-- `companion_api_resolve_cartridge_path`. -/
def resolveCartridgePath : Api Bool := do
  if ¬ (← test .cartridgeMounted) then return false
  else if ¬ (← test .mountPointSet) then return false
  else test .coverPathFits

/-- `companion_api_cover_exists`. -/
def coverExists : Api Unit := do
  if ← resolveCartridgePath then
    if ← test .fopen then
      get .fclose

def handleLibraryAlbum (requestId : UInt32) : Api EspErr := do
  appendCartridgeStatus
  get .cartridgeAlbumName
  get .cartridgeAlbumArtist
  get .cartridgeAlbumDescription
  get .cartridgeAlbumYear
  get .cartridgeAlbumDuration
  get .cartridgeAlbumGenre
  coverExists
  sendOk Opcode.libraryAlbum.code requestId

/-- The loop of the paged handlers: at most `count` turns from `position` on, while
it is below `total` and `turn` goes on. -/
def pageLoop (turn : UInt32 → Api Bool) (total : Nat) : Nat → UInt32 → Api Unit
  | 0, _ => pure ()
  | count + 1, position =>
    if position.toNat < total then do
      if ← turn position then
        pageLoop turn total count (position + 1)
    else pure ()

def handleTrackPage (requestId : UInt32) (payload : Bytes) : Api EspErr := do
  let total ← count .playlistTracks
  pageLoop (fun position => do
      if (← fetch (.playlistTrackInfo position)) ≠ .ok then return false
      else fits)
    total (pageCount payload 8).toNat (pageOffset payload)
  sendOk Opcode.libraryTrackPage.code requestId

/-- `companion_api_handle_library_cover` from the first `fseek` on. -/
def readCover (requestId : UInt32) (payload : Bytes) : Api EspErr := do
  let fail := sendError Opcode.libraryCover.code requestId .internal
  if ¬ (← test .seekEnd) then
    get .fclose
    fail
  else
    match ← ftell with
    | none =>
      get .fclose
      fail
    | some totalSize =>
      if totalSize ≥ 2 ^ 32 then
        get .fclose
        fail
      else if ¬ (← test .seekSet) then
        get .fclose
        fail
      else
        let offset := min (pageOffset payload).toNat totalSize
        let requested := min ((tlvU32 payload .count).getD (.ofNat coverChunkMaxLen)).toNat
          coverChunkMaxLen
        let bytesToRead := min (totalSize - offset) requested
        if bytesToRead > 0 then
          if (← count .bytesRead) ≠ bytesToRead then
            if ← test .ferror then
              get .fclose
              fail
            else
              get .fclose
              sendOk Opcode.libraryCover.code requestId
          else
            get .fclose
            sendOk Opcode.libraryCover.code requestId
        else
          get .fclose
          sendOk Opcode.libraryCover.code requestId

def handleLibraryCover (requestId : UInt32) (payload : Bytes) : Api EspErr := do
  if ¬ (← test .cartridgeMounted) then
    sendError Opcode.libraryCover.code requestId .invalidState
  else if ¬ (← resolveCartridgePath) then
    sendError Opcode.libraryCover.code requestId .invalidState
  else if ¬ (← test .fopen) then
    sendError Opcode.libraryCover.code requestId .notFound
  else readCover requestId payload

/-! ## Wi-Fi -/

def handleWifiScanResults (requestId : UInt32) (payload : Bytes) : Api EspErr := do
  let err ← fetch .wifiScanResults
  answer err Opcode.wifiScanResults.code requestId do
    let total ← count .wifiScanned
    pageLoop (fun _ => fits) total (pageCount payload 8).toNat (pageOffset payload)
    sendOk Opcode.wifiScanResults.code requestId

def handleWifiConnect (requestId : UInt32) (payload : Bytes) : Api EspErr :=
  match tlvString payload .wifiSsid 33 with
  | none => sendError Opcode.wifiConnect.code requestId .invalidArg
  | some ssid => do
    let err ← command (.wifiConnect ssid ((tlvString payload .wifiPassword 65).getD []))
    answer err Opcode.wifiConnect.code requestId
      (handleSnapshot Opcode.wifiConnect.code requestId)

/-- The call of `companion_api_handle_wifi_simple`, when the opcode and its TLV give one. -/
def wifiSimpleCall (opcode : UInt16) (payload : Bytes) : Option ServiceCall :=
  match Opcode.ofCode opcode with
  | some .wifiScanStart => some .wifiScan
  | some .wifiConnectSlot => (tlvU32 payload .wifiSlot).map fun v => .wifiConnectSlot v.toUInt8
  | some .wifiDisconnect => some .wifiDisconnect
  | some .wifiAutoreconnect =>
    (tlvU32 payload .value).map fun v => .wifiSetAutoreconnect (v != 0)
  | _ => none

def handleWifiSimple (opcode : UInt16) (requestId : UInt32) (payload : Bytes) : Api EspErr := do
  let err ← commandOr (wifiSimpleCall opcode payload)
  answer err opcode requestId (handleSnapshot opcode requestId)

/-- Entries appended until one does not fit. -/
def appendEntries : Nat → Api Unit
  | 0 => pure ()
  | n + 1 => do
    if ← fits then
      appendEntries n

def handleWifiListSlots (requestId : UInt32) : Api EspErr := do
  let err ← fetch .wifiSavedSlots
  answer err Opcode.wifiListSlots.code requestId do
    appendEntries wifiSlotCount
    sendOk Opcode.wifiListSlots.code requestId

def handleWifiSaveSlot (requestId : UInt32) (payload : Bytes) : Api EspErr :=
  match tlvU32 payload .wifiSlot, tlvString payload .wifiSsid 33 with
  | some slot, some ssid =>
    if slot < 1 ∨ slot > .ofNat wifiSlotCount then
      sendError Opcode.wifiSaveSlot.code requestId .invalidArg
    else do
      let err ← command (.wifiSaveSlot slot.toUInt8 ssid
        ((tlvString payload .wifiPassword 65).getD []))
      answer err Opcode.wifiSaveSlot.code requestId (sendOk Opcode.wifiSaveSlot.code requestId)
  | _, _ => sendError Opcode.wifiSaveSlot.code requestId .invalidArg

/-- A handler that makes one call and answers with the snapshot. -/
def handleCommand (call : ServiceCall) (opcode : UInt16) (requestId : UInt32) : Api EspErr := do
  let err ← command call
  answer err opcode requestId (handleSnapshot opcode requestId)

def handleWifiReconnect (requestId : UInt32) : Api EspErr :=
  handleCommand .wifiReconnect Opcode.wifiReconnect.code requestId

/-! ## Last.fm and history -/

def handleLastfmControl (requestId : UInt32) (payload : Bytes) : Api EspErr :=
  match tlvU8 payload .action with
  | none => sendError Opcode.lastfmControl.code requestId .invalidArg
  | some code => do
    let err ← commandOr (LastfmAction.ofCode code >>= lastfmCall payload)
    answer err Opcode.lastfmControl.code requestId
      (handleSnapshot Opcode.lastfmControl.code requestId)

def handleLastfmRequestToken (requestId : UInt32) : Api EspErr :=
  handleCommand .lastfmRequestToken Opcode.lastfmRequestToken.code requestId

def handleHistoryAlbumPage (requestId : UInt32) (payload : Bytes) : Api EspErr := do
  let total ← count .historyAlbums
  pageLoop (fun position => do
      -- a record that is gone is skipped
      if ¬ (← test (.historyAlbumRecord position)) then return true
      else fits)
    total (pageCount payload 4).toNat (pageOffset payload)
  sendOk Opcode.historyAlbumPage.code requestId

def handleHistoryTrackPage (requestId : UInt32) (payload : Bytes) : Api EspErr :=
  match tlvU32 payload .cartridgeChecksum with
  | none => sendError Opcode.historyTrackPage.code requestId .invalidArg
  | some checksum => do
    let total ← count (.historyAlbumTracks checksum)
    pageLoop (fun position => do
        if ¬ (← test (.historyTrackRecord checksum position)) then return true
        else fits)
      total (pageCount payload 4).toNat (pageOffset payload)
    sendOk Opcode.historyTrackPage.code requestId

def handleHistoryClear (requestId : UInt32) : Api EspErr :=
  handleCommand .historyRequestClear Opcode.historyClear.code requestId

/-! ## Bluetooth -/

def handleBtAudioControl (requestId : UInt32) (payload : Bytes) : Api EspErr :=
  match tlvU8 payload .action with
  | none => sendError Opcode.btAudioControl.code requestId .invalidArg
  | some code => do
    let err ← commandOr (btCall code)
    answer err Opcode.btAudioControl.code requestId
      (handleSnapshot Opcode.btAudioControl.code requestId)

def handleBtScanStart (requestId : UInt32) : Api EspErr := do
  let err ← command .btStartDiscovery
  answer err Opcode.btScanStart.code requestId (sendOk Opcode.btScanStart.code requestId)

def handleBtScanResults (requestId : UInt32) : Api EspErr := do
  let err ← fetch .btDiscoveryResults
  answer err Opcode.btScanResults.code requestId do
    get .btDiscoveryRunning
    appendEntries (← count .btDiscovered)
    sendOk Opcode.btScanResults.code requestId

def handleBtBondedList (requestId : UInt32) : Api EspErr := do
  let err ← if (← count .btBonded) = 0 then pure .ok else fetch .btBondedDevices
  answer err Opcode.btBondedList.code requestId (sendOk Opcode.btBondedList.code requestId)

def handleBtUnbond (requestId : UInt32) (payload : Bytes) : Api EspErr :=
  match findTlv payload .btAddr with
  | none => sendError Opcode.btUnbond.code requestId .invalidArg
  | some addr =>
    if addr.length ≠ 6 then sendError Opcode.btUnbond.code requestId .invalidArg
    else do
      let err ← command (.btUnbond addr)
      answer err Opcode.btUnbond.code requestId do
        get .btBondedCount
        sendOk Opcode.btUnbond.code requestId

/-- `companion_api_handle_output_status`. -/
def handleOutputStatus (requestId : UInt32) : Api EspErr := do
  appendOutputStatus
  sendOk Opcode.outputStatus.code requestId

def handleOutputSelect (requestId : UInt32) (payload : Bytes) : Api EspErr :=
  match tlvU8 payload .outputTarget with
  | none => sendError Opcode.outputSelect.code requestId .invalidArg
  | some target =>
    if target ≠ audioOutputTargetBluetooth ∧ target ≠ audioOutputTargetI2s then
      sendError Opcode.outputSelect.code requestId .invalidArg
    else do
      let err ← command (.audioOutputSelect target.toUInt32)
      answer err Opcode.outputSelect.code requestId do
        appendOutputStatus
        sendOk Opcode.outputSelect.code requestId

/-! ## HID, scripts and system -/

def handleHidStatus (requestId : UInt32) : Api EspErr := do
  let _ ← fetch .hidButtonState
  let _ ← fetch .hidAdcStatus
  sendOk Opcode.hidStatus.code requestId

/-- The calls of `companion_api_handle_hid_led_set`, with the error they leave. -/
def ledCalls (payload : Bytes) : Api EspErr :=
  if (tlvU8 payload .hidLedOff).getD 0 ≠ 0 then command .hidLedOff
  else do
    let brightness := tlvU8 payload .hidLedBrightness
    let color := match tlvU8 payload .hidLedR, tlvU8 payload .hidLedG, tlvU8 payload .hidLedB with
      | some r, some g, some b => some (ServiceCall.hidLedSetRgb r g b)
      | _, _, _ => none
    let err ← match brightness with
      | some percent => command (.hidLedSetBrightness percent)
      | none => pure .ok
    if err ≠ .ok then return err
    else
      match color with
      | some call => command call
      | none => return if brightness.isNone then .invalidArg else .ok

def handleHidLedSet (requestId : UInt32) (payload : Bytes) : Api EspErr := do
  let err ← ledCalls payload
  answer err Opcode.hidLedSet.code requestId (sendOk Opcode.hidLedSet.code requestId)

def handleScriptStatus (requestId : UInt32) : Api EspErr := do
  appendScriptStatus
  sendOk Opcode.scriptStatus.code requestId

/-- The loop over a directory's entries. -/
def listEntries : List (Bool × Bool) → Api Unit
  | [] => pure ()
  | (hidden, pathFits) :: entries =>
    if hidden ∨ ¬ pathFits then listEntries entries
    else do
      if ← fits then
        listEntries entries

/-- `companion_api_handle_script_list` from `opendir` on. -/
def listDirectory (requestId : UInt32) : Api EspErr := do
  match ← opendir with
  | none => sendError Opcode.scriptList.code requestId .notFound
  | some entries =>
    listEntries entries
    get .closedir
    sendOk Opcode.scriptList.code requestId

def handleScriptList (requestId : UInt32) (payload : Bytes) : Api EspErr :=
  match tlvString payload .scriptName scriptMaxPathLen with
  | none | some [] => do
    if ¬ (← test .scriptRootSet) then sendError Opcode.scriptList.code requestId .invalidState
    else listDirectory requestId
  | some name => do
    if (← fetch (.scriptDirectory name)) ≠ .ok then
      sendError Opcode.scriptList.code requestId .notFound
    else listDirectory requestId

/-- `companion_api_handle_script_log` from the first `fseek` on. -/
def readScriptLog (requestId : UInt32) (payload : Bytes) : Api EspErr := do
  let fail := sendError Opcode.scriptLog.code requestId .internal
  if ¬ (← test .seekEnd) then
    get .fclose
    fail
  else
    match ← ftell with
    | none =>
      get .fclose
      fail
    | some totalSize =>
      if ¬ (← test .seekSet) then
        get .fclose
        fail
      else
        let offset := min (pageOffset payload).toNat totalSize
        let requested := min ((tlvU32 payload .count).getD 1024).toNat scriptLogChunkMaxLen
        if min (totalSize - offset) requested > 0 then
          let _ ← count .bytesRead
        get .fclose
        sendOk Opcode.scriptLog.code requestId

def handleScriptLog (requestId : UInt32) (payload : Bytes) : Api EspErr :=
  match tlvString payload .scriptName scriptMaxPathLen with
  | none | some [] => sendError Opcode.scriptLog.code requestId .invalidArg
  | some name => do
    if (← fetch (.scriptLogPath name)) ≠ .ok then
      sendError Opcode.scriptLog.code requestId .notFound
    else if ¬ (← test .fopen) then sendError Opcode.scriptLog.code requestId .notFound
    else readScriptLog requestId payload

def handleScriptRun (requestId : UInt32) (payload : Bytes) : Api EspErr :=
  match tlvString payload .scriptName scriptMaxPathLen with
  | none | some [] => sendError Opcode.scriptRun.code requestId .invalidArg
  | some name => do
    let argv := ((tlvString payload .scriptArgs 256).map splitArgs).getD []
    let err ← command (.scriptStart name argv)
    answer err Opcode.scriptRun.code requestId (sendOk Opcode.scriptRun.code requestId)

def handleSystemReboot (opcode : UInt16) (requestId : UInt32) (downloadMode : Bool) :
    Api EspErr := do
  let err ← command (.scheduleReboot downloadMode)
  answer err opcode requestId (sendOk opcode requestId)

/-! ## Dispatch and the parse loop -/

/-- The `switch` of `companion_api_handle_request`. -/
def dispatch (g : Globals) (r : Request) : Api EspErr :=
  match Opcode.ofCode r.opcode with
  | some .hello => handleHello r.opcode r.requestId
  | some .capabilities => handleCapabilities r.opcode r.requestId
  | some .ping => handlePing r.opcode r.requestId r.payload
  | some .pairBegin => handlePairBegin r.requestId r.payload
  | some .pairStatus | some .pairCancel => sendPairingStatus r.requestId .response
  | some .authChallenge => handleAuthChallenge r.requestId r.payload
  | some .authProof => handleAuthProof g r.requestId r.payload
  | some .trustedList => handleTrustedList r.requestId
  | some .trustedRevoke => handleTrustedRevoke r.opcode r.requestId r.payload
  | some .snapshot | some .playbackStatus | some .wifiStatus | some .lastfmStatus
  | some .historySummary | some .btAudioStatus => handleSnapshot r.opcode r.requestId
  | some .playbackControl => handlePlaybackControl r.requestId r.payload
  | some .libraryAlbum => handleLibraryAlbum r.requestId
  | some .libraryTrackPage => handleTrackPage r.requestId r.payload
  | some .libraryCover => handleLibraryCover r.requestId r.payload
  | some .wifiScanStart | some .wifiConnectSlot | some .wifiDisconnect
  | some .wifiAutoreconnect => handleWifiSimple r.opcode r.requestId r.payload
  | some .wifiScanResults => handleWifiScanResults r.requestId r.payload
  | some .wifiConnect => handleWifiConnect r.requestId r.payload
  | some .lastfmControl => handleLastfmControl r.requestId r.payload
  | some .historyAlbumPage => handleHistoryAlbumPage r.requestId r.payload
  | some .btAudioControl => handleBtAudioControl r.requestId r.payload
  | some .outputStatus => handleOutputStatus r.requestId
  | some .outputSelect => handleOutputSelect r.requestId r.payload
  | some .wifiListSlots => handleWifiListSlots r.requestId
  | some .wifiSaveSlot => handleWifiSaveSlot r.requestId r.payload
  | some .wifiReconnect => handleWifiReconnect r.requestId
  | some .lastfmRequestToken => handleLastfmRequestToken r.requestId
  | some .historyTrackPage => handleHistoryTrackPage r.requestId r.payload
  | some .historyClear => handleHistoryClear r.requestId
  | some .btScanStart => handleBtScanStart r.requestId
  | some .btScanResults => handleBtScanResults r.requestId
  | some .btBondedList => handleBtBondedList r.requestId
  | some .btUnbond => handleBtUnbond r.requestId r.payload
  | some .hidStatus => handleHidStatus r.requestId
  | some .hidLedSet => handleHidLedSet r.requestId r.payload
  | some .scriptStatus => handleScriptStatus r.requestId
  | some .scriptList => handleScriptList r.requestId r.payload
  | some .scriptLog => handleScriptLog r.requestId r.payload
  | some .scriptRun => handleScriptRun r.requestId r.payload
  | some .systemReboot => handleSystemReboot r.opcode r.requestId false
  | some .systemRebootDownload => handleSystemReboot r.opcode r.requestId true
  | none => sendError r.opcode r.requestId .unknownOpcode

/-- `companion_api_handle_request`. -/
def handleRequest (g : Globals) (r : Request) : Api EspErr :=
  if opcodeRequiresAuth r.opcode ∧ ¬ g.authenticated then
    sendError r.opcode r.requestId .authRequired
  else dispatch g r

/-- What the receive path does on an event of the buffer; it ignores the results. -/
def handleEvent (g : Globals) : RxEvent → Api Unit
  | .overflow => do let _ ← sendError 0 0 .badFrame
  | .resync => pure ()
  | .sendError opcode requestId error => do let _ ← sendError opcode requestId error
  | .request r => do let _ ← handleRequest g r

/-- One turn of the loop of `companion_api_parse_rx_buffer`: the bytes after it,
or `none` when the loop waits for more. -/
def parseTurn (g : Globals) (buffer : Bytes) : Api (Option Bytes) :=
  match parseStep buffer with
  | .wait => pure none
  | .advance event rest => do
    handleEvent g event
    return some rest

/-- `companion_api_parse_rx_buffer`. The handlers change the globals between the
turns: `globals n` are those of the turn with `n` more to go. -/
def parseRxBuffer (globals : Nat → Globals) : Nat → Bytes → Api Bytes
  | 0, buffer => pure buffer
  | turns + 1, buffer => do
    match ← parseTurn (globals turns) buffer with
    | none => return buffer
    | some rest => parseRxBuffer globals turns rest

end Jukeboy.CompanionApi.HandlerCalls
