import Jukeboy.Base.Runs
import Jukeboy.CompanionApi.RequestHandlers

/-! # The companion API task

`companion_api_process_msg` and the timer part of `companion_api_task`, as a
step function over the messages the task takes from its queue. A message that
was lost because the queue was full is one the list of actions does not have. -/
namespace Jukeboy.CompanionApi.Task
open Jukeboy.Base Jukeboy.CompanionApi.Tlv Jukeboy.CompanionApi.Protocol
open Jukeboy.CompanionApi.TrustedStore Jukeboy.CompanionApi.RequestHandlers
open Jukeboy.CompanionApi.RxBuffer (Request RxEvent handleRxChunk)

/-- `pdMS_TO_TICKS(COMPANION_API_HEARTBEAT_MS)` at 100 Hz. -/
def heartbeatTicks : UInt32 := 500

structure Counters where
  eventGeneration : UInt32
  rxFrames : UInt32
  txFrames : UInt32
  rxErrors : UInt32

structure State where
  session : Session
  rxBuffer : Bytes
  nextHeartbeat : UInt32
  counters : Counters
  /-- Everything the task has done so far, the oldest first. -/
  log : List Effect

/-- `companion_api_touch_generation`. -/
def touchGeneration (generation : UInt32) : UInt32 :=
  if generation + 1 = 0 then 1 else generation + 1

/-! ## Sending -/

def payloadLen : Payload → Nat
  | .tlvs w => Writer.len w
  | .echo bytes => bytes.length

/-- How many bytes of a frame `companion_api_send_frame` gets out. -/
def acceptedBytes (link : Link) (frameLen : Nat) : Nat :=
  if frameLen > frameMaxLen ∨ link.connected = none ∨ ¬ link.notificationsEnabled ∨
      link.maxPayload = 0 then 0
  else
    match link.refusedChunk with
    | none => frameLen
    | some k => min (k * link.maxPayload) frameLen

/-- `companion_api_send_frame`. -/
def sendFrame (link : Link) (frame : Frame) (s : State) : State :=
  let frameLen := headerLen + payloadLen frame.payload
  let bytes := acceptedBytes link frameLen
  match link.connected with
  | none => s
  | some l =>
    if bytes = 0 then s
    else
      { s with
        log := s.log ++ [.sent l frame bytes s.session.authenticated]
        counters := { s.counters with
          txFrames := if bytes = frameLen then s.counters.txFrames + 1 else s.counters.txFrames } }

/-- The frame of a reply; a snapshot is built from what holds when it is sent. -/
def replyFrame (r : Reply) (w : World) (s : State) : Frame :=
  { type := r.type, opcode := r.opcode, requestId := r.requestId
    payload := match r.body with
      | .payload p => p
      | .snapshot => .tlvs (snapshotTlvs w s.counters.eventGeneration s.session) }

/-- The session and generation a handler leaves, with what it did in the log. -/
def applyOutcome (o : Outcome) (s : State) : State :=
  { s with
    session := o.session
    counters := { s.counters with
      eventGeneration := touchGeneration^[o.touches] s.counters.eventGeneration }
    log := s.log ++ o.effects }

/-- A handler's outcome, and then its frame. -/
def finish (w : World) (o : Outcome) (s : State) : State :=
  match o.reply with
  | none => applyOutcome o s
  | some r => sendFrame w.inputs.link (replyFrame r w (applyOutcome o s)) (applyOutcome o s)

theorem sendFrame_frame (link : Link) (frame : Frame) (s : State) :
    (sendFrame link frame s).session = s.session ∧ (sendFrame link frame s).rxBuffer = s.rxBuffer ∧
      (sendFrame link frame s).nextHeartbeat = s.nextHeartbeat := by
  unfold sendFrame
  dsimp only
  split
  · exact ⟨rfl, rfl, rfl⟩
  · split
    · exact ⟨rfl, rfl, rfl⟩
    · exact ⟨rfl, rfl, rfl⟩

theorem finish_frame (w : World) (o : Outcome) (s : State) :
    (finish w o s).session = o.session ∧ (finish w o s).rxBuffer = s.rxBuffer ∧
      (finish w o s).nextHeartbeat = s.nextHeartbeat := by
  unfold finish
  split
  · exact ⟨rfl, rfl, rfl⟩
  · exact sendFrame_frame _ _ _

theorem finish_session (w : World) (o : Outcome) (s : State) :
    (finish w o s).session = o.session := (finish_frame w o s).1

/-! ## Messages -/

/-- `companion_api_msg_t`. -/
inductive Msg where
  | rxChunk (link : Nat) (bytes : Bytes)
  | hidButton (button : UInt8)
  | consoleConfirmPairing
  | consoleCancelPairing
  | consoleRevokeClient (clientId : Bytes)
  | consoleRevokeAll
  | linkConnected
  | linkDisconnected
  | stateEvent (opcode : UInt16)
deriving DecidableEq, Repr

def countRxError (s : State) : State :=
  { s with counters := { s.counters with rxErrors := s.counters.rxErrors + 1 } }

def countRxFrame (s : State) : State :=
  { s with counters := { s.counters with rxFrames := s.counters.rxFrames + 1 } }

/-- One thing the receive path does with the bytes of `link`. -/
def applyRxEvent (hmac : Hmac) (w : World) (link : Nat) (event : RxEvent) (s : State) : State :=
  match event with
  | .overflow =>
    let s := countRxError s
    finish w (.say s.session (sendError 0 0 .badFrame)) s
  | .resync => countRxError s
  | .sendError opcode requestId e => finish w (.say s.session (sendError opcode requestId e)) s
  | .request r => countRxFrame (finish w (handleRequest hmac w link r s.session) s)

/-- The things done for one chunk; the `k`-th of them sees the world `env k`. -/
def applyRxEvents (hmac : Hmac) (env : Nat → World) (link : Nat) :
    Nat → List RxEvent → State → State
  | _, [], s => s
  | k, event :: events, s =>
    applyRxEvents hmac env link (k + 1) events (applyRxEvent hmac (env k) link event s)

/-- `companion_api_handle_rx_chunk`. -/
def receiveChunk (hmac : Hmac) (env : Nat → World) (link : Nat) (bytes : Bytes) (s : State) :
    State :=
  let (events, left) := handleRxChunk s.rxBuffer bytes
  { applyRxEvents hmac env link 0 events { s with log := s.log ++ [.received link] } with
    rxBuffer := left }

/-- `companion_api_send_snapshot_event`, after `companion_api_touch_generation`. -/
def snapshotEvent (opcode : UInt16) (s : Session) : Outcome :=
  { session := s, touches := 1, reply := some ⟨.event, opcode, 0, .snapshot⟩ }

/-- The session part of a `LINK_DISCONNECTED` message. -/
def endSession (s : Session) : Session :=
  { s with authenticated := false, authChallengePending := false, activeClientId := [] }

/-- The outcome of every message but a chunk. -/
def msgOutcome (w : World) (s : Session) : Msg → Outcome
  | .rxChunk _ _ => { session := s }
  | .hidButton button => applyPairingButton w.inputs button s
  | .consoleConfirmPairing => completePairing w.inputs s
  | .consoleCancelPairing => cancelPairing 0 .event s
  | .consoleRevokeClient clientId => revokeClientInternal w.inputs clientId s
  | .consoleRevokeAll => revokeAllInternal w.inputs s
  | .linkConnected => snapshotEvent Opcode.snapshot.code s
  | .linkDisconnected => snapshotEvent Opcode.snapshot.code (endSession s)
  | .stateEvent opcode => snapshotEvent opcode s

/-- The receive buffer after a message but a chunk: link changes empty it. -/
def msgRxBuffer (buffer : Bytes) : Msg → Bytes
  | .linkConnected | .linkDisconnected => []
  | _ => buffer

/-- `companion_api_process_msg`. -/
def processMsg (hmac : Hmac) (env : Nat → World) (m : Msg) (s : State) : State :=
  match m with
  | .rxChunk link bytes => receiveChunk hmac env link bytes s
  | m => finish (env 0) (msgOutcome (env 0) s.session m)
      { s with rxBuffer := msgRxBuffer s.rxBuffer m }

/-! ## The timer -/

/-- The TLVs of `companion_api_send_heartbeat`. -/
def heartbeatTlvs (w : World) (s : State) : Writer :=
  ServiceHandlers.appendAll []
    [(.uptimeMs, u32Bytes w.uptimeMs), (.generation, u32Bytes s.counters.eventGeneration),
      (.authenticated, boolBytes s.session.authenticated), (.queueFree, [w.queueFree]),
      (.rxFrames, u32Bytes s.counters.rxFrames), (.txFrames, u32Bytes s.counters.txFrames),
      (.rxErrors, u32Bytes s.counters.rxErrors)]

/-- `companion_api_send_heartbeat`. -/
def sendHeartbeat (w : World) (s : State) : State :=
  finish w (.say s.session ⟨.heartbeat, Opcode.snapshot.code, 0,
    .payload (.tlvs (heartbeatTlvs w s))⟩) s

/-- The end of a pending pairing whose deadline has passed. -/
def expirePairing (w : World) (s : State) : State :=
  if s.session.pairing.pending ∧ w.inputs.now > s.session.pairing.deadline then
    finish w (cancelPairing 0 .event s.session) s
  else s

/-- The end of a turn of `companion_api_task`: the pairing event sees the world
`env 0`, the heartbeat the world `env 1`. -/
def timerTurn (env : Nat → World) (s : State) : State :=
  let now := (env 0).inputs.now
  if now ≥ s.nextHeartbeat then
    { sendHeartbeat (env 1) (expirePairing (env 0) s) with nextHeartbeat := now + heartbeatTicks }
  else s

/-! ## Runs -/

inductive Action where
  | message (m : Msg)
  | timer
deriving DecidableEq, Repr

/-- An action with the worlds its parts see. -/
structure Turn where
  action : Action
  env : Nat → World

def step (hmac : Hmac) (s : State) (t : Turn) : Option State :=
  some (match t.action with
    | .message m => processMsg hmac t.env m s
    | .timer => timerTurn t.env s)

/-- The globals after `companion_api_service_init`, with the records NVS holds. -/
def initSession (store : Store) (trustedClientCount : UInt8) : Session :=
  { authenticated := false, pairing := {}, authChallengePending := false
    authNonce := List.replicate authNonceLen 0, authClientId := [], activeClientId := []
    trustedClientCount, store }

def initState (store : Store) (trustedClientCount : UInt8) (now : UInt32) : State :=
  { session := initSession store trustedClientCount, rxBuffer := []
    nextHeartbeat := now + heartbeatTicks
    counters := { eventGeneration := 0, rxFrames := 0, txFrames := 0, rxErrors := 0 }, log := [] }

end Jukeboy.CompanionApi.Task
