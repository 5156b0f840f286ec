import Jukeboy.CompanionApi.RxBuffer
import Jukeboy.CompanionApi.ServiceHandlers
import Jukeboy.CompanionApi.TrustedStore

/-! # Pairing, authentication and the request dispatcher

A handler is a function of the session and of what the environment returns
while the request is handled; it gives an `Outcome`: the session after it, how
often it touched the event generation, and the one frame it then sends. -/
namespace Jukeboy.CompanionApi.RequestHandlers
open Jukeboy.Base Jukeboy.CompanionApi.Tlv Jukeboy.CompanionApi.Protocol
open Jukeboy.CompanionApi.ServiceHandlers Jukeboy.CompanionApi.TrustedStore
open Jukeboy.CompanionApi.RxBuffer (Request)

def hidButtonCount : UInt8 := 6
def pairingSequenceLen : Nat := 4
/-- `pdMS_TO_TICKS(COMPANION_API_PAIRING_TIMEOUT_MS)` at 100 Hz. -/
def pairingTimeoutTicks : UInt32 := 12000
def authNonceLen : Nat := 16

/-- HMAC-SHA256 under a 32-byte secret, as `mbedtls_md_hmac` computes it. -/
structure Hmac where
  sha256 : Bytes → Bytes → Bytes
  length_sha256 : ∀ secret data, (sha256 secret data).length = 32

/-- A stand-in for runs that never compute an HMAC. -/
instance : Inhabited Hmac := ⟨fun _ _ => List.replicate 32 0, fun _ _ => List.length_replicate ..⟩

/-! ## State and environment -/

/-- The pairing globals; the default is what `companion_api_clear_pairing` leaves. -/
structure Pairing where
  pending : Bool := false
  progress : UInt8 := 0
  secret : Bytes := List.replicate secretLen 0
  sequence : List UInt8 := List.replicate pairingSequenceLen 0
  clientId : Bytes := []
  appName : Bytes := []
  requestId : UInt32 := 0
  deadline : UInt32 := 0
deriving DecidableEq, Repr

/-- The globals that say who is connected, pairing and trusted, and the NVS they go with. -/
structure Session where
  authenticated : Bool
  pairing : Pairing
  authChallengePending : Bool
  authNonce : Bytes
  authClientId : Bytes
  activeClientId : Bytes
  trustedClientCount : UInt8
  store : Store

/-- What the Bluetooth service reports while one frame is sent. -/
structure Link where
  /-- The connection that is up, if one is; every connection has its own number. -/
  connected : Option Nat
  notificationsEnabled : Bool
  mtu : UInt16
  maxPayload : Nat
  /-- The write of a frame, counted from 0, that the stack refuses. -/
  refusedChunk : Option Nat

/-- What one handled request sees of the world, the other services apart. -/
structure Inputs where
  link : Link
  now : UInt32
  time : Int
  /-- The bytes `esp_fill_random` gives. -/
  nonce : Bytes
  nvs : Nvs

structure World where
  inputs : Inputs
  services : Services
  uptimeMs : UInt32
  queueFree : UInt8

/-- What the task does that can be seen from outside, and four marks for
moments of the authentication that no frame shows. -/
inductive Effect where
  /-- The first `bytes` bytes of a frame went out on a link. -/
  | sent (link : Nat) (frame : Frame) (bytes : Nat) (authenticated : Bool)
  | called (call : ServiceCall)
  /-- A chunk that a link sent is taken from the queue. -/
  | received (link : Nat)
  /-- A request passed the check for `AUTH_REQUIRED`. -/
  | dispatched (link : Nat) (opcode : UInt16)
  | nonceIssued (clientId nonce : Bytes)
  | proofAccepted (link : Nat) (clientId proof : Bytes) (store : Store)
  | pairBegun (link : Nat)
  | pairCleared
  | pairCompleted

/-! ## Replies -/

inductive Body where
  | payload (p : Payload)
  /-- The composite snapshot, built when the frame is sent. -/
  | snapshot

structure Reply where
  type : FrameType
  opcode : UInt16
  requestId : UInt32
  body : Body

/-- `companion_api_send_error`. -/
def sendError (opcode : UInt16) (requestId : UInt32) (error : ApiError) : Reply :=
  ⟨.error, opcode, requestId, .payload (.tlvs
    (appendString (appendU16 [] .errorCode error.code) .errorMessage (ascii (errorName error))))⟩

/-- `companion_api_send_ok`. -/
def sendOk (opcode : UInt16) (requestId : UInt32) (w : Writer) : Reply :=
  ⟨.response, opcode, requestId, .payload (.tlvs w)⟩

/-- `companion_api_append_pairing_status`. -/
def appendPairingStatus (p : Pairing) (w : Writer) : Writer :=
  let w := appendAll w
    [(.pairingPending, boolBytes p.pending), (.pairingProgress, [p.progress]),
      (.pairingRequired, [4]), (.clientId, stringBytes p.clientId),
      (.appName, stringBytes p.appName)]
  if p.pending then append w .buttonSequence p.sequence else w

/-- `companion_api_send_pairing_status`. -/
def sendPairingStatus (requestId : UInt32) (type : FrameType) (p : Pairing) : Reply :=
  ⟨type, Opcode.pairStatus.code, requestId, .payload (.tlvs (appendPairingStatus p []))⟩

/-- `companion_api_append_auth_status`. -/
def appendAuthStatus (s : Session) (w : Writer) : Writer :=
  appendAll w
    [(.authenticated, boolBytes s.authenticated), (.clientId, stringBytes s.activeClientId),
      (.trustedCount, [s.trustedClientCount])]

/-- The TLVs of `companion_api_handle_snapshot` and `companion_api_send_snapshot_event`. -/
def snapshotTlvs (w : World) (generation : UInt32) (s : Session) : Writer :=
  let head := appendPairingStatus s.pairing (appendAuthStatus s
    (appendU32 (appendU32 [] .generation generation) .uptimeMs w.uptimeMs))
  let sv := w.services
  appendBtAudioStatus sv (appendHistorySummary sv (appendLastfmStatus sv (appendWifiStatus sv
    (appendCartridgeStatus sv (appendPlaybackStatus sv head)))))

/-! ## Outcomes -/

/-- What handling a request or a message does. -/
structure Outcome where
  session : Session
  effects : List Effect := []
  /-- How often `companion_api_touch_generation` is called before the frame. -/
  touches : Nat := 0
  reply : Option Reply := none
  /-- What the sender of a console message is told. -/
  result : EspErr := .ok

def Outcome.say (s : Session) (r : Reply) : Outcome := { session := s, reply := some r }

/-! ## The trusted clients -/

/-- A change of the store with the count and the generation that follow it. -/
def Session.afterStore (s : Session) (nvs : Nvs) (r : StoreResult) : Session :=
  if r.recounted then
    { s with store := r.store, trustedClientCount := countTrustedClients nvs r.store .recount }
  else { s with store := r.store }

/-- The end of a session whose client is revoked. -/
def Session.dropActive (s : Session) : Session :=
  { s with authenticated := false, activeClientId := [] }

/-- `companion_api_revoke_client_internal`. -/
def revokeClientInternal (inp : Inputs) (clientId : Bytes) (s : Session) : Outcome :=
  let r := revokeClient inp.nvs s.store clientId
  let dropped := if r.recounted ∧ r.err = .ok ∧ s.activeClientId = clientId then s.dropActive else s
  { session := dropped.afterStore inp.nvs r, touches := if r.recounted then 1 else 0
    result := r.err }

/-- `companion_api_revoke_all_internal`. -/
def revokeAllInternal (inp : Inputs) (s : Session) : Outcome :=
  let r := revokeAll inp.nvs s.store
  let dropped := if r.err = .ok then s.dropActive else s
  { session := dropped.afterStore inp.nvs r, touches := if r.recounted then 1 else 0
    result := r.err }

/-- `companion_api_handle_trusted_list`. -/
def trustedListTlvs (nvs : Nvs) (store : Store) : Writer :=
  appendAll (appendU8 [] .trustedCount (countTrustedClients nvs store .listCount))
    ((List.finRange maxTrustedClients).flatMap fun slot =>
      match loadRecord nvs store .list slot with
      | none => []
      | some r => [(.clientId, stringBytes r.clientId), (.appName, stringBytes r.appName),
          (.createdAt, u32Bytes r.createdAtUnix)])

def handleTrustedList (inp : Inputs) (requestId : UInt32) (s : Session) : Outcome :=
  .say s (sendOk Opcode.trustedList.code requestId (trustedListTlvs inp.nvs s.store))

/-- The `TRUSTED_REVOKE` case of `companion_api_handle_request`. -/
def handleTrustedRevoke (inp : Inputs) (r : Request) (s : Session) : Outcome :=
  match tlvString r.payload .clientId (clientIdMaxLen + 1) with
  | none => .say s (sendError r.opcode r.requestId .invalidArg)
  | some clientId =>
    let o := revokeClientInternal inp clientId s
    if o.result ≠ .ok then
      { o with reply := some (sendError r.opcode r.requestId (errorFromEsp o.result)) }
    else { o with reply := (handleTrustedList inp r.requestId o.session).reply }

/-! ## Pairing -/

/-- `companion_api_clear_pairing`. -/
def Session.clearPairing (s : Session) : Session := { s with pairing := {} }

/-- `companion_api_handle_pair_begin`. -/
def handlePairBegin (inp : Inputs) (link : Nat) (r : Request) (s : Session) : Outcome :=
  let invalid := Outcome.say s (sendError Opcode.pairBegin.code r.requestId .invalidArg)
  match tlvString r.payload .clientId (clientIdMaxLen + 1),
    tlvString r.payload .appName (appNameMaxLen + 1), findTlv r.payload .sharedSecret,
    findTlv r.payload .buttonSequence with
  | some clientId, some appName, some secret, some sequence =>
    if secret.length ≠ secretLen ∨ sequence.length ≠ pairingSequenceLen ∨ clientId = [] then invalid
    else if sequence.any (· ≥ hidButtonCount) then invalid
    else
      let pairing : Pairing :=
        { pending := true, progress := 0, secret, sequence, clientId, appName
          requestId := r.requestId, deadline := inp.now + pairingTimeoutTicks }
      { session := { s with pairing }, effects := [.pairCleared, .pairBegun link], touches := 1
        reply := some (sendPairingStatus r.requestId .response pairing) }
  | _, _, _, _ => invalid

/-- The `PAIR_CANCEL` request and the console's cancellation. -/
def cancelPairing (requestId : UInt32) (type : FrameType) (s : Session) : Outcome :=
  { session := s.clearPairing, effects := [.pairCleared], touches := 1
    reply := some (sendPairingStatus requestId type {}) }

/-- `companion_api_complete_pairing`. -/
def completePairing (inp : Inputs) (s : Session) : Outcome :=
  if ¬ s.pairing.pending then { session := s, result := .invalidState }
  else
    let p := s.pairing
    let r := storeRecord inp.nvs s.store inp.time p.clientId p.appName p.secret
    let stored := s.afterStore inp.nvs r
    let touches := if r.recounted then 1 else 0
    if r.err ≠ .ok then { session := stored, touches, result := r.err }
    else
      { session :=
          ({ stored with authenticated := true, activeClientId := p.clientId }).clearPairing
        effects := [.pairCompleted, .pairCleared], touches := touches + 1
        reply := some (sendPairingStatus 0 .event {}) }

/-- `companion_api_apply_pairing_button`. -/
def applyPairingButton (inp : Inputs) (button : UInt8) (s : Session) : Outcome :=
  let p := s.pairing
  if ¬ p.pending ∨ p.progress ≥ 4 then { session := s, result := .invalidState }
  else if inp.now > p.deadline then
    { session := s.clearPairing, effects := [.pairCleared], touches := 1, result := .timeout }
  else if button ≠ p.sequence.getD p.progress.toNat 0 then
    let missed := { p with progress := 0 }
    { session := { s with pairing := missed }, touches := 1, result := .invalidArg
      reply := some (sendPairingStatus 0 .event missed) }
  else
    let pressed := { p with progress := p.progress + 1 }
    if pressed.progress ≥ 4 then
      let o := completePairing inp { s with pairing := pressed }
      { o with touches := o.touches + 1 }
    else
      { session := { s with pairing := pressed }, touches := 1
        reply := some (sendPairingStatus 0 .event pressed) }

/-! ## Authentication -/

/-- `companion_api_handle_auth_challenge`. -/
def handleAuthChallenge (inp : Inputs) (r : Request) (s : Session) : Outcome :=
  let unknown := Outcome.say s (sendError Opcode.authChallenge.code r.requestId .notFound)
  match tlvString r.payload .clientId (clientIdMaxLen + 1) with
  | none => unknown
  | some clientId =>
    match findRecord inp.nvs s.store clientId with
    | .error _ => unknown
    | .ok _ =>
      { session :=
          { s with authNonce := inp.nonce, authClientId := clientId, authChallengePending := true }
        effects := [.nonceIssued clientId inp.nonce]
        reply := some (sendOk Opcode.authChallenge.code r.requestId
          (append (appendString [] .clientId clientId) .authNonce inp.nonce)) }

/-- `companion_api_secure_equal`. -/
def secureEqual (left right : Bytes) : Bool :=
  (List.zipWith (· ^^^ ·) left right).foldl (· ||| ·) 0 == 0

/-- `companion_api_handle_auth_proof`. -/
def handleAuthProof (hmac : Hmac) (inp : Inputs) (link : Nat) (r : Request) (s : Session) :
    Outcome :=
  let reject := fun e => Outcome.say s (sendError Opcode.authProof.code r.requestId e)
  match tlvString r.payload .clientId (clientIdMaxLen + 1), findTlv r.payload .authHmac with
  | some clientId, some proof =>
    if ¬ s.authChallengePending ∨ clientId ≠ s.authClientId ∨ proof.length ≠ 32 then
      reject .invalidArg
    else
      match findRecord inp.nvs s.store clientId with
      | .error err => reject (errorFromEsp err)
      | .ok (_, record) =>
        if ¬ secureEqual (hmac.sha256 record.secret s.authNonce) proof then reject .invalidArg
        else
          let session :=
            { s with authenticated := true, authChallengePending := false
                     activeClientId := clientId }
          { session, effects := [.proofAccepted link clientId proof s.store], touches := 1
            reply := some (sendOk Opcode.authProof.code r.requestId
              (appendAuthStatus session [])) }
  | _, _ => reject .invalidArg

/-! ## Dispatch -/

/-- `companion_api_handle_hello`. -/
def handleHello (r : Request) (s : Session) : Outcome :=
  .say s (sendOk r.opcode r.requestId (appendAuthStatus s
    (appendU16 (appendString [] .appName (ascii "Jukeboy firmware")) .protocolVersion
      apiVersion.toUInt16)))

/-- `companion_api_handle_capabilities`. -/
def handleCapabilities (inp : Inputs) (r : Request) (s : Session) : Outcome :=
  .say s (sendOk r.opcode r.requestId (appendPairingStatus s.pairing (appendAuthStatus s
    (appendAll [] [(.protocolVersion, u16Bytes apiVersion.toUInt16),
      (.maxFrame, u16Bytes (.ofNat frameMaxLen)), (.mtu, u16Bytes inp.link.mtu),
      (.maxPayload, u16Bytes (.ofNat inp.link.maxPayload)), (.featureBits, u32Bytes 0x7F)]))))

/-- The `PING` case of `companion_api_handle_request`. -/
def handlePing (r : Request) (s : Session) : Outcome :=
  if r.payload.length > frameMaxLen - headerLen then
    .say s (sendError r.opcode r.requestId .badFrame)
  else .say s ⟨.response, r.opcode, r.requestId, .payload (.echo r.payload)⟩

/-- An answer of the other services, under the request's opcode. -/
def answerOutcome (a : Answer) (r : Request) (s : Session) : Outcome :=
  { session := s, effects := a.calls.map .called, touches := if a.touch then 1 else 0
    reply := some (match a.body with
      | .error e => sendError r.opcode r.requestId e
      | .ok w => sendOk r.opcode r.requestId w
      | .snapshot => ⟨.response, r.opcode, r.requestId, .snapshot⟩) }

/-- The requests that the other services answer. -/
def serviceAnswer (sv : Services) (payload : Bytes) : Opcode → Answer
  | .playbackControl => handlePlaybackControl sv payload
  | .outputStatus => handleOutputStatus sv
  | .outputSelect => handleOutputSelect sv payload
  | .libraryAlbum => handleLibraryAlbum sv
  | .libraryTrackPage => handleTrackPage sv payload
  | .libraryCover => handleLibraryCover sv payload
  | .wifiScanStart => handleWifiScanStart sv
  | .wifiScanResults => handleWifiScanResults sv payload
  | .wifiConnect => handleWifiConnect sv payload
  | .wifiConnectSlot => handleWifiConnectSlot sv payload
  | .wifiDisconnect => handleWifiDisconnect sv
  | .wifiAutoreconnect => handleWifiAutoreconnect sv payload
  | .wifiListSlots => handleWifiListSlots sv
  | .wifiSaveSlot => handleWifiSaveSlot sv payload
  | .wifiReconnect => handleWifiReconnect sv
  | .lastfmControl => handleLastfmControl sv payload
  | .lastfmRequestToken => handleLastfmRequestToken sv
  | .historyAlbumPage => handleHistoryAlbumPage sv payload
  | .historyTrackPage => handleHistoryTrackPage sv payload
  | .historyClear => handleHistoryClear sv
  | .btAudioControl => handleBtAudioControl sv payload
  | .btScanStart => handleBtScanStart sv
  | .btScanResults => handleBtScanResults sv
  | .btBondedList => handleBtBondedList sv
  | .btUnbond => handleBtUnbond sv payload
  | .hidStatus => handleHidStatus sv
  | .hidLedSet => handleHidLedSet sv payload
  | .scriptStatus => handleScriptStatus sv
  | .scriptList => handleScriptList sv payload
  | .scriptLog => handleScriptLog sv payload
  | .scriptRun => handleScriptRun sv payload
  | .systemReboot => handleSystemReboot sv false
  | .systemRebootDownload => handleSystemReboot sv true
  -- `SNAPSHOT` and the status opcodes that share its payload
  | _ => ⟨[], false, .snapshot⟩

/-- The `switch` of `companion_api_handle_request`, after the check for authentication. -/
def dispatch (hmac : Hmac) (w : World) (link : Nat) (r : Request) (s : Session) : Outcome :=
  match Opcode.ofCode r.opcode with
  | some .hello => handleHello r s
  | some .capabilities => handleCapabilities w.inputs r s
  | some .ping => handlePing r s
  | some .pairBegin => handlePairBegin w.inputs link r s
  | some .pairStatus => .say s (sendPairingStatus r.requestId .response s.pairing)
  | some .pairCancel => cancelPairing r.requestId .response s
  | some .authChallenge => handleAuthChallenge w.inputs r s
  | some .authProof => handleAuthProof hmac w.inputs link r s
  | some .trustedList => handleTrustedList w.inputs r.requestId s
  | some .trustedRevoke => handleTrustedRevoke w.inputs r s
  | some op => answerOutcome (serviceAnswer w.services r.payload op) r s
  | none => .say s (sendError r.opcode r.requestId .unknownOpcode)

/-- `companion_api_handle_request`. -/
def handleRequest (hmac : Hmac) (w : World) (link : Nat) (r : Request) (s : Session) : Outcome :=
  if opcodeRequiresAuth r.opcode ∧ ¬ s.authenticated then
    .say s (sendError r.opcode r.requestId .authRequired)
  else
    let o := dispatch hmac w link r s
    { o with effects := .dispatched link r.opcode :: o.effects }

end Jukeboy.CompanionApi.RequestHandlers
