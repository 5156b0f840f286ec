import Jukeboy.Base.Channel
import Jukeboy.CompanionApi.NonInterference
import Jukeboy.CompanionApi.Replies

/-! # Requests and answers over the link

`CompanionBleClient` at one end of a connection, the task at the other. Between them the
chunks that `_write` cuts a request into and the notifications that
`companion_api_send_frame` cuts a frame into, each in order. The wire carries out what
the machine does whose two queues hold whole requests and whole frames. -/
namespace Jukeboy.CompanionApi.Rpc

open Jukeboy.Base Jukeboy.Base.Runs Jukeboy.Base.Channel Jukeboy.Base.Framing
open Jukeboy.CompanionApi.Tlv Jukeboy.CompanionApi.Protocol Jukeboy.CompanionApi.RequestHandlers
open Jukeboy.CompanionApi.TrustedStore Jukeboy.CompanionApi.Task Jukeboy.CompanionApi.Replies
open Jukeboy.CompanionApi.BleClient
open Jukeboy.CompanionApi.RxBuffer (Request)
open Jukeboy.CompanionApi.Chunking (encodeRequest WellFormed)

/-! ## The wire -/

/-- The notifications that carry what was sent, at `maxPayload` bytes each. -/
def notifications (maxPayload : Nat) (log : List Effect) : List Bytes :=
  log.flatMap fun
    | .sent _ frame bytes _ => cut maxPayload (frame.encode.take bytes)
    | _ => []

/-- `companion_api_spp_rx_cb`: as much of a write as a message holds. -/
def sppRxChunk (bytes : Bytes) : Bytes := bytes.take 512

/-- Both ends of a connection, the chunks the task has not taken from its queue yet, and
the notifications the client has not processed yet. -/
structure Wire where
  task : State
  client : Client
  toDevice : List Bytes
  toClient : List Bytes

inductive WireAction where
  /-- `request` and its `_write`, with this `max_chunk_size`. -/
  | request (opcode : UInt16) (payload : Bytes) (maxChunkSize : Nat)
  | timeout (id : Nat)
  /-- The task takes a chunk from its queue. -/
  | chunk (maxPayload : Nat) (env : Nat → World)
  /-- Any other message, or the timer. -/
  | turn (maxPayload : Nat) (t : Turn)
  /-- The client processes a notification. -/
  | notify

/-- What the task does, and the notifications it makes. -/
def Wire.act (s : Wire) (maxPayload : Nat) (task : State) : Wire :=
  { s with
    task
    toClient := s.toClient ++ notifications maxPayload (task.log.drop s.task.log.length) }

/-- One step of the connection `link`. -/
def Wire.step (hmac : Hmac) (link : Nat) (s : Wire) : WireAction → Option Wire
  | .request opcode payload maxChunkSize =>
    let r := s.client.requests
    let frame := encodeRequest ⟨opcode, UInt32.ofNat r.nextRequestId, payload⟩
    -- an id or a length that cannot be packed raises before the request is pending
    if r.nextRequestId < 2 ^ 32 ∧ payload.length < 2 ^ 16 then
      some { s with
        client := { s.client with requests := r.request }
        toDevice := s.toDevice ++ cut maxChunkSize frame }
    else
      some { s with client := { s.client with
        requests := { r with nextRequestId := r.nextRequestId + 1 } } }
  | .timeout id =>
    some { s with client := { s.client with requests := s.client.requests.timeout id } }
  | .chunk maxPayload env =>
    match s.toDevice with
    | [] => none
    | bytes :: toDevice =>
      let task := processMsg hmac env (.rxChunk link (sppRxChunk bytes)) s.task
      some ({ s with toDevice }.act maxPayload task)
  | .turn maxPayload t => (Task.step hmac s.task t).map (s.act maxPayload)
  | .notify =>
    match s.toClient with
    | [] => none
    | data :: toClient => some { s with client := s.client.processNotification data, toClient }

/-- A fresh connection. -/
def Wire.init (store : Store) (count : UInt8) (now : UInt32) : Wire :=
  ⟨initState store count now, BleClient.init, [], []⟩

/-- The connection is up, and its stack takes every notification. -/
structure GoodLink (link maxPayload : Nat) (w : World) : Prop where
  connected : w.inputs.link.connected = some link
  enabled : w.inputs.link.notificationsEnabled = true
  maxPayload : w.inputs.link.maxPayload = maxPayload
  taken : w.inputs.link.refusedChunk = none

/-- Messages that neither bring a chunk nor change the link. -/
def Inside (t : Turn) : Prop :=
  match t.action with
  | .message (.rxChunk _ _) | .message .linkConnected | .message .linkDisconnected => False
  | _ => True

/-- The client sends requests that a frame can hold, in writes that an attribute can hold,
and the connection stays up. -/
def Condition (link : Nat) (s : Wire) : WireAction → Prop
  | .request opcode payload maxChunkSize =>
    0 < maxChunkSize ∧ maxChunkSize ≤ 512 ∧ s.client.requests.nextRequestId < 2 ^ 32 ∧
      WellFormed ⟨opcode, UInt32.ofNat s.client.requests.nextRequestId, payload⟩
  | .chunk maxPayload env => 0 < maxPayload ∧ ∀ k, GoodLink link maxPayload (env k)
  | .turn maxPayload t => 0 < maxPayload ∧ Inside t ∧ ∀ k, GoodLink link maxPayload (t.env k)
  | _ => True

/-! ## The machine -/

/-- The task without the bytes it holds and without its log. -/
structure Device where
  session : Session
  nextHeartbeat : UInt32
  counters : Counters

namespace Device

def ofState (s : State) : Device := ⟨s.session, s.nextHeartbeat, s.counters⟩

variable (d : Device)

def toState : State :=
  { session := d.session, rxBuffer := [], nextHeartbeat := d.nextHeartbeat
    counters := d.counters, log := [] }

/-- The device after a handler's outcome. -/
def after (w : World) (o : Outcome) : Device := ofState (finish w o d.toState)

/-- The frame that a handler's outcome sends. -/
def frames (w : World) (o : Outcome) : List WireFrame :=
  o.reply.toList.map fun r => sentFrame r w (applyOutcome o d.toState)

def countRxFrame : Device :=
  { d with counters := { d.counters with rxFrames := d.counters.rxFrames + 1 } }

/-- The end of a pairing whose deadline has passed, with its event. -/
def expire (w : World) : Device × List WireFrame :=
  let o := cancelPairing 0 .event d.session
  if d.session.pairing.pending ∧ w.inputs.now > d.session.pairing.deadline then
    (d.after w o, d.frames w o)
  else (d, [])

def heartbeat (w : World) : Outcome :=
  .say d.session ⟨.heartbeat, Opcode.snapshot.code, 0, .payload (.tlvs (heartbeatTlvs w d.toState))⟩

/-- A message that brings no chunk, or the timer. -/
def turn (t : Turn) : Device × List WireFrame :=
  match t.action with
  | .message m =>
    let o := msgOutcome (t.env 0) d.session m
    (d.after (t.env 0) o, d.frames (t.env 0) o)
  | .timer =>
    let now := (t.env 0).inputs.now
    if now ≥ d.nextHeartbeat then
      let (d', events) := d.expire (t.env 0)
      ({ d'.after (t.env 1) (d'.heartbeat (t.env 1)) with nextHeartbeat := now + heartbeatTicks },
        events ++ d'.frames (t.env 1) (d'.heartbeat (t.env 1)))
    else (d, [])

end Device

/-- A request that was handled, with what it was handled in. -/
structure Served where
  request : Request
  world : World
  device : Device

def Served.outcome (hmac : Hmac) (link : Nat) (v : Served) : Outcome :=
  handleRequest hmac v.world link v.request v.device.session

/-- The frame that answers it. -/
def Served.frames (hmac : Hmac) (link : Nat) (v : Served) : List WireFrame :=
  v.device.frames v.world (v.outcome hmac link)

/-- The machine: requests and frames on the way are whole. It remembers what was asked
and what was served. -/
structure Machine where
  device : Device
  requests : Requests
  toDevice : List Request
  toClient : List WireFrame
  asked : List Request
  served : List Served

inductive Action where
  | request (opcode : UInt16) (payload : Bytes)
  | timeout (id : Nat)
  /-- The task handles the next request. -/
  | handle (w : World)
  | turn (t : Turn)
  /-- The client receives the next frame. -/
  | receive

def step (hmac : Hmac) (link : Nat) (s : Machine) : Action → Option Machine
  | .request opcode payload =>
    let r : Request := ⟨opcode, UInt32.ofNat s.requests.nextRequestId, payload⟩
    some { s with
      requests := s.requests.request
      toDevice := s.toDevice ++ [r]
      asked := s.asked ++ [r] }
  | .timeout id => some { s with requests := s.requests.timeout id }
  | .handle w =>
    match s.toDevice with
    | [] => none
    | request :: toDevice =>
      let v : Served := ⟨request, w, s.device⟩
      some { s with
        device := (s.device.after w (v.outcome hmac link)).countRxFrame
        toDevice
        toClient := s.toClient ++ v.frames hmac link
        served := s.served ++ [v] }
  | .turn t =>
    let (device, frames) := s.device.turn t
    some { s with device, toClient := s.toClient ++ frames }
  | .receive =>
    match s.toClient with
    | [] => none
    | f :: toClient => some { s with requests := s.requests.receive f.decoded, toClient }

def init (store : Store) (count : UInt8) (now : UInt32) : Machine :=
  ⟨.ofState (initState store count now), BleClient.init.requests, [], [], [], []⟩

/-! ## The device of a state -/

variable {hmac : Hmac} {link maxPayload : Nat} {w : World} {o : Outcome} {s t : State}

theorem sentFrame_congr (h : Device.ofState s = Device.ofState t) (r : Reply) :
    sentFrame r w s = sentFrame r w t := by
  obtain ⟨hsession, -, hcounters⟩ := Device.mk.inj h
  unfold sentFrame replyFrame
  rw [hsession, hcounters]

theorem sendFrame_congr (h : Device.ofState s = Device.ofState t) (l : Link) (f : Frame) :
    Device.ofState (sendFrame l f s) = Device.ofState (sendFrame l f t) := by
  obtain ⟨hsession, hnext, hcounters⟩ := Device.mk.inj h
  unfold sendFrame
  cases l.connected with
  | none => exact h
  | some link =>
    dsimp only
    split
    · exact h
    · simp only [Device.ofState, hsession, hnext, hcounters]

theorem applyOutcome_congr (h : Device.ofState s = Device.ofState t) (o : Outcome) :
    Device.ofState (applyOutcome o s) = Device.ofState (applyOutcome o t) := by
  obtain ⟨-, hnext, hcounters⟩ := Device.mk.inj h
  simp only [Device.ofState, applyOutcome, hnext, hcounters]

theorem finish_congr (h : Device.ofState s = Device.ofState t) (w : World) (o : Outcome) :
    Device.ofState (finish w o s) = Device.ofState (finish w o t) := by
  have happly := applyOutcome_congr h o
  unfold finish
  cases o.reply with
  | none => exact happly
  | some r =>
    have hframe : replyFrame r w (applyOutcome o s) = replyFrame r w (applyOutcome o t) := by
      obtain ⟨hsession, -, hcounters⟩ := Device.mk.inj happly
      unfold replyFrame
      rw [hsession, hcounters]
    dsimp only
    rw [hframe]
    exact sendFrame_congr happly _ _

/-- A handler's outcome reads the device alone. -/
theorem finish_device (w : World) (o : Outcome) (s : State) :
    Device.ofState (finish w o s) = (Device.ofState s).after w o :=
  finish_congr (s := s) (t := (Device.ofState s).toState) rfl w o

theorem frames_eq (w : World) (o : Outcome) (s : State) : (Device.ofState s).frames w o =
    o.reply.toList.map fun r => sentFrame r w (applyOutcome o s) := by
  unfold Device.frames
  refine List.map_congr_left fun r _ => sentFrame_congr ?_ r
  exact applyOutcome_congr (t := s) rfl o

/-! ## What goes out -/

/-- The bytes of the notifications. -/
def sentBytes (log : List Effect) : Bytes :=
  log.flatMap fun
    | .sent _ frame bytes _ => frame.encode.take bytes
    | _ => []

theorem flatten_notifications (h : 0 < maxPayload) (log : List Effect) :
    (notifications maxPayload log).flatten = sentBytes log := by
  induction log with
  | nil => rfl
  | cons e log ih =>
    rw [notifications, List.flatMap_cons, List.flatten_append, sentBytes, List.flatMap_cons]
    refine congrArg₂ (· ++ ·) ?_ ih
    cases e with
    | sent l frame bytes authenticated => exact flatten_cut h _
    | _ => rfl

/-- These frames went out whole. -/
structure Sends (log : List Effect) (frames : List WireFrame) : Prop where
  bytes : sentBytes log = stream WireFrame.encode frames
  wellFormed : ∀ f ∈ frames, f.WellFormed

theorem Sends.nil : Sends [] [] := ⟨rfl, fun _ h => by cases h⟩

theorem Sends.append {log more : List Effect} {frames others : List WireFrame}
    (h : Sends log frames) (h' : Sends more others) : Sends (log ++ more) (frames ++ others) := by
  refine ⟨?_, fun f hf => (List.mem_append.mp hf).elim (h.wellFormed f) (h'.wellFormed f)⟩
  rw [stream_append, ← h.bytes, ← h'.bytes, sentBytes, List.flatMap_append]
  rfl

theorem sends_of_silent {log : List Effect} (h : NonInterference.Silent log) : Sends log [] := by
  refine ⟨List.flatMap_eq_nil_iff.mpr fun e he => ?_, fun _ h => by cases h⟩
  cases e with
  | sent l f n a => exact absurd rfl (h _ he l f n a)
  | _ => rfl

/-- A frame goes out whole while the link is good. -/
theorem sends_sentEffects (hlink : GoodLink link maxPayload w) (hp : 0 < maxPayload) {r : Reply}
    (hr : Sound r) (s : State) (authenticated : Bool) :
    Sends (NonInterference.sentEffects w.inputs.link (replyFrame r w s) authenticated)
      [sentFrame r w s] := by
  have hwf := wellFormed_sentFrame hr w s
  have hshort : headerLen + payloadLen (replyFrame r w s).payload ≤ frameMaxLen := by
    have hlen := hwf.1
    unfold WireFrame.Short at hlen
    rwa [sentFrame, wire, length_encode_payload] at hlen
  have haccepted : acceptedBytes w.inputs.link (headerLen + payloadLen (replyFrame r w s).payload) =
      headerLen + payloadLen (replyFrame r w s).payload := by
    unfold acceptedBytes
    rw [hlink.connected, hlink.enabled, hlink.maxPayload, hlink.taken, if_neg]
    rintro (hlong | hnone | hoff | hzero)
    · omega
    · cases hnone
    · exact hoff rfl
    · omega
  have hwhole : (replyFrame r w s).encode.length =
      headerLen + payloadLen (replyFrame r w s).payload := by
    rw [← encode_wire, WireFrame.length_encode, wire, length_encode_payload]
  unfold NonInterference.sentEffects
  rw [hlink.connected, haccepted]
  dsimp only
  rw [if_neg (by unfold headerLen; omega)]
  refine ⟨?_, List.forall_mem_singleton.mpr hwf⟩
  show (replyFrame r w s).encode.take _ ++ [] = stream WireFrame.encode [sentFrame r w s]
  rw [← hwhole, List.take_length, stream_cons, stream_nil, sentFrame, encode_wire]

/-- What a handler's outcome adds to the log. -/
theorem finish_sends (hlink : GoodLink link maxPayload w) (hp : 0 < maxPayload)
    (hsilent : NonInterference.Silent o.effects) (hsound : ∀ r, o.reply = some r → Sound r)
    (s : State) : ∃ new, (finish w o s).log = s.log ++ new ∧
      Sends new ((Device.ofState s).frames w o) := by
  refine ⟨o.effects ++ NonInterference.replyEffects w o s, ?_, ?_⟩
  · rw [NonInterference.finish_log, List.append_assoc]
  · rw [frames_eq]
    have hquiet : Sends o.effects [] := sends_of_silent hsilent
    refine hquiet.append ?_
    unfold NonInterference.replyEffects
    cases hreply : o.reply with
    | none => exact .nil
    | some r => exact sends_sentEffects hlink hp (hsound r hreply) _ _

/-! ## Turns of the task -/

/-- A step of the task that does what the device does, and sends these frames. -/
structure Acts (s task : State) (d : Device) (frames : List WireFrame) : Prop where
  device : Device.ofState task = d
  rxBuffer : task.rxBuffer = s.rxBuffer
  sends : ∃ new, task.log = s.log ++ new ∧ Sends new frames

theorem Acts.refl (s : State) : Acts s s (Device.ofState s) [] :=
  ⟨rfl, rfl, [], (List.append_nil _).symm, .nil⟩

theorem Acts.trans {u : State} {d e : Device} {frames more : List WireFrame}
    (h : Acts s t d frames) (h' : Acts t u e more) : Acts s u e (frames ++ more) := by
  obtain ⟨-, hbuffer, new, hlog, hsends⟩ := h
  obtain ⟨hdevice, hbuffer', new', hlog', hsends'⟩ := h'
  refine ⟨hdevice, hbuffer'.trans hbuffer, new ++ new', ?_, hsends.append hsends'⟩
  rw [hlog', hlog, List.append_assoc]

theorem finish_acts (hlink : GoodLink link maxPayload w) (hp : 0 < maxPayload)
    (hsilent : NonInterference.Silent o.effects) (hsound : ∀ r, o.reply = some r → Sound r)
    (s : State) :
    Acts s (finish w o s) ((Device.ofState s).after w o) ((Device.ofState s).frames w o) :=
  ⟨finish_device w o s, (finish_frame w o s).2.1, finish_sends hlink hp hsilent hsound s⟩

theorem silent_msgOutcome (w : World) (s : Session) (m : Msg) :
    NonInterference.Silent (msgOutcome w s m).effects := by
  cases m with
  | hidButton button => exact (NonInterference.blind_applyPairingButton _ _ _).silent
  | consoleConfirmPairing => exact (NonInterference.blind_completePairing _ _).silent
  | consoleCancelPairing => exact (NonInterference.blind_cancelPairing _ _ _).silent
  | _ => exact NonInterference.silent_nil

theorem message_acts {env : Nat → World} {m : Msg} (hlink : GoodLink link maxPayload (env 0))
    (hp : 0 < maxPayload) (hinside : Inside ⟨.message m, env⟩) (s : State) :
    Acts s (processMsg hmac env m s) ((Device.ofState s).turn ⟨.message m, env⟩).1
      ((Device.ofState s).turn ⟨.message m, env⟩).2 := by
  have hsound : ∀ r, (msgOutcome (env 0) s.session m).reply = some r → Sound r :=
    fun r hr => (announcesOnly_msgOutcome s.session (env 0) m r hr).sound
  have hfinish := finish_acts hlink hp (silent_msgOutcome (env 0) s.session m) hsound s
  cases m with
  | rxChunk link bytes => exact hinside.elim
  | linkConnected => exact hinside.elim
  | linkDisconnected => exact hinside.elim
  | _ => exact hfinish

theorem expire_acts (hlink : GoodLink link maxPayload w) (hp : 0 < maxPayload) (s : State) :
    Acts s (expirePairing w s) ((Device.ofState s).expire w).1
      ((Device.ofState s).expire w).2 := by
  by_cases hlate : s.session.pairing.pending ∧ w.inputs.now > s.session.pairing.deadline
  · have hexpire : (Device.ofState s).expire w =
        ((Device.ofState s).after w (cancelPairing 0 .event s.session),
          (Device.ofState s).frames w (cancelPairing 0 .event s.session)) := if_pos hlate
    rw [expirePairing, if_pos hlate, hexpire]
    refine finish_acts hlink hp (NonInterference.blind_cancelPairing _ _ _).silent ?_ s
    intro r hr
    cases hr
    exact (announces_sendPairingStatus _).sound
  · have hexpire : (Device.ofState s).expire w = (Device.ofState s, []) := if_neg hlate
    rw [expirePairing, if_neg hlate, hexpire]
    exact .refl s

theorem heartbeat_acts (hlink : GoodLink link maxPayload w) (hp : 0 < maxPayload) (s : State) :
    Acts s (sendHeartbeat w s)
      ((Device.ofState s).after w ((Device.ofState s).heartbeat w))
      ((Device.ofState s).frames w ((Device.ofState s).heartbeat w)) := by
  refine finish_acts hlink hp NonInterference.silent_nil ?_ s
  intro r hr
  cases hr
  exact (announces_payload (fits_heartbeatTlvs w s) (.inr rfl)).sound

theorem timer_acts {env : Nat → World} (hlink : ∀ k, GoodLink link maxPayload (env k))
    (hp : 0 < maxPayload) (s : State) :
    Acts s (timerTurn env s) ((Device.ofState s).turn ⟨.timer, env⟩).1
      ((Device.ofState s).turn ⟨.timer, env⟩).2 := by
  unfold timerTurn
  dsimp only
  by_cases hdue : (env 0).inputs.now ≥ s.nextHeartbeat
  · let d := ((Device.ofState s).expire (env 0)).1
    have hturn : (Device.ofState s).turn ⟨.timer, env⟩ =
        ({ d.after (env 1) (d.heartbeat (env 1)) with
            nextHeartbeat := (env 0).inputs.now + heartbeatTicks },
          ((Device.ofState s).expire (env 0)).2 ++ d.frames (env 1) (d.heartbeat (env 1))) :=
      if_pos hdue
    rw [if_pos hdue, hturn]
    have hexpire := expire_acts (hlink 0) hp s
    have hbeat := heartbeat_acts (hlink 1) hp (expirePairing (env 0) s)
    rw [hexpire.device] at hbeat
    obtain ⟨hdevice, hbuffer, hsends⟩ := hexpire.trans hbeat
    refine ⟨?_, hbuffer, hsends⟩
    show Device.ofState { sendHeartbeat (env 1) (expirePairing (env 0) s) with
      nextHeartbeat := (env 0).inputs.now + heartbeatTicks } = _
    rw [← hdevice]
    rfl
  · have hturn : (Device.ofState s).turn ⟨.timer, env⟩ = (Device.ofState s, []) := if_neg hdue
    rw [if_neg hdue, hturn]
    exact .refl s

/-- **A turn of the task** is a turn of the device. -/
theorem turn_acts {x : Turn} {task : State} (hlink : ∀ k, GoodLink link maxPayload (x.env k))
    (hp : 0 < maxPayload) (hinside : Inside x) (hstep : Task.step hmac s x = some task) :
    Acts s task ((Device.ofState s).turn x).1 ((Device.ofState s).turn x).2 := by
  obtain ⟨action, env⟩ := x
  obtain rfl := Option.some.inj hstep
  cases action with
  | message m => exact message_acts (hlink 0) hp hinside s
  | timer => exact timer_acts hlink hp s

/-! ## Requests -/

theorem silent_handleRequest (w : World) (r : Request) (s : Session) :
    NonInterference.Silent (handleRequest hmac w link r s).effects := by
  unfold handleRequest
  split
  · exact NonInterference.silent_nil
  · intro e he
    obtain rfl | he := List.mem_cons.mp he
    · intro l f n a heq
      cases heq
    · obtain ⟨-, hblind⟩ | ⟨-, a, -, ha, -⟩ :=
        NonInterference.dispatch_cases hmac (rfl : w.inputs = w.inputs) link r s
      · exact hblind.silent e he
      · rw [ha] at he
        obtain ⟨call, -, rfl⟩ := List.mem_map.mp he
        intro l f n a heq
        cases heq

/-- Handling a request is what the device does with it. -/
theorem request_acts (hmac : Hmac) (hlink : GoodLink link maxPayload w) (hp : 0 < maxPayload) (r : Request)
    (s : State) :
    Acts s (applyRxEvent hmac w link (.request r) s)
      ((Device.ofState s).after w (handleRequest hmac w link r s.session)).countRxFrame
      ((Device.ofState s).frames w (handleRequest hmac w link r s.session)) := by
  have hsound : ∀ reply, (handleRequest hmac w link r s.session).reply = some reply →
      Sound reply := by
    intro reply hreply
    obtain ⟨reply', hreply', hanswers⟩ := replies_handleRequest r s.session hmac w link
    rw [hreply] at hreply'
    cases hreply'
    exact hanswers.sound
  obtain ⟨hdevice, hbuffer, hsends⟩ :=
    finish_acts hlink hp (silent_handleRequest w r s.session) hsound s
  refine ⟨?_, hbuffer, hsends⟩
  rw [← hdevice]
  rfl

/-- The requests of a chunk are handled one by one. -/
theorem requests_run (hmac : Hmac) {env : Nat → World} (hlink : ∀ k, GoodLink link maxPayload (env k))
    (hp : 0 < maxPayload) {done rest : List Request} (k : Nat) {a : Machine}
    (hdevice : Device.ofState s = a.device) (hqueue : a.toDevice = done ++ rest) :
    ∃ frames served, run (step hmac link) a
        ((List.range' k done.length).map fun i => .handle (env i)) =
      some { a with
        device := Device.ofState (applyRxEvents hmac env link k (done.map .request) s)
        toDevice := rest, toClient := a.toClient ++ frames, served := a.served ++ served } ∧
      Acts s (applyRxEvents hmac env link k (done.map .request) s)
        (Device.ofState (applyRxEvents hmac env link k (done.map .request) s)) frames := by
  induction done generalizing k s a with
  | nil =>
    refine ⟨[], [], ?_, .refl s⟩
    rw [List.length_nil, List.range'_zero, List.map_nil, run_nil, List.append_nil,
      List.append_nil]
    rw [List.nil_append] at hqueue
    rw [← hqueue]
    show some a = some { a with device := Device.ofState s }
    rw [hdevice]
  | cons r done ih =>
    have hfirst := request_acts hmac (hlink k) hp r s
    let v : Served := ⟨r, env k, a.device⟩
    let a' : Machine := { a with
      device := (a.device.after (env k) (v.outcome hmac link)).countRxFrame
      toDevice := done ++ rest, toClient := a.toClient ++ v.frames hmac link
      served := a.served ++ [v] }
    have hstep : step hmac link a (.handle (env k)) = some a' := by
      rw [step, hqueue]
      rfl
    have hv : v.outcome hmac link = handleRequest hmac (env k) link r s.session := by
      show handleRequest hmac (env k) link r a.device.session = _
      rw [← hdevice]
      rfl
    have hdevice' : Device.ofState (applyRxEvent hmac (env k) link (.request r) s) = a'.device := by
      rw [hfirst.device, hdevice, ← hv]
    obtain ⟨frames, served, hrun, hacts⟩ := ih (k + 1) (a := a') hdevice' rfl
    have hframes : v.frames hmac link =
        (Device.ofState s).frames (env k) (handleRequest hmac (env k) link r s.session) := by
      rw [Served.frames, hv, hdevice]
    refine ⟨v.frames hmac link ++ frames, v :: served, ?_, ?_⟩
    · rw [List.length_cons, List.range'_succ, List.map_cons, run_cons_some _ hstep, hrun]
      simp only [a', List.append_assoc, List.singleton_append]
      rfl
    · rw [hframes]
      exact hfirst.trans hacts

/-! ## The queue of chunks -/

theorem encodeRequest_ne_nil (r : Request) : encodeRequest r ≠ [] := by
  intro h
  have hlen := Chunking.length_encodeRequest r
  rw [h, List.length_nil, headerLen] at hlen
  omega

theorem encode_ne_nil (f : WireFrame) : f.encode ≠ [] := by
  intro h
  have hlen := WireFrame.length_encode f
  rw [h, List.length_nil, headerLen] at hlen
  omega

variable {left : Bytes} {chunks : List Bytes} {asked done rest : List Request}

theorem pendingLen_append_left {n : Nat} (h : n < (Chunking.stream asked).length) :
    Chunking.pendingLen (asked ++ rest) n = Chunking.pendingLen asked n := by
  induction asked generalizing n with
  | nil => cases h
  | cons r asked ih =>
    rw [List.cons_append, Chunking.pendingLen, Chunking.pendingLen]
    by_cases hle : (encodeRequest r).length ≤ n
    · rw [if_pos hle, if_pos hle]
      rw [Chunking.stream_cons, List.length_append] at h
      exact ih (by omega)
    · rw [if_neg hle, if_neg hle]

/-- The chunks of a request fit behind whatever is on the way. -/
theorem fits_send (hcarries : Carries encodeRequest left chunks asked)
    (hne : ∀ chunk ∈ chunks, chunk ≠ []) (hfits : Chunking.Fits asked left.length chunks)
    {r : Request} (hr : WellFormed r) {n : Nat} (hn : 0 < n) :
    Chunking.Fits (asked ++ [r]) left.length (chunks ++ cut n (encodeRequest r)) := by
  have hframe : (encodeRequest r).length ≤ frameMaxLen := by
    rw [Chunking.length_encodeRequest]
    exact hr
  have htotal : left.length + chunks.flatten.length = (Chunking.stream asked).length := by
    rw [← List.length_append, hcarries.bytes]
    rfl
  -- a chunk of the new request, behind some of its own
  have hown : ∀ before c after, cut n (encodeRequest r) = before ++ c :: after →
      Chunking.pendingLen (asked ++ [r])
        (left.length + (chunks ++ before).flatten.length) + c.length ≤ frameMaxLen := by
    intro before c after heq
    have hbytes := flatten_cut hn (encodeRequest r)
    have hpos : 0 < c.length := by
      have hmem : c ∈ cut n (encodeRequest r) := by
        rw [heq]
        simp
      exact List.length_pos_of_ne_nil ((mem_cut hn hmem).1)
    rw [heq] at hbytes
    have hlen := congrArg List.length hbytes
    simp only [List.flatten_append, List.flatten_cons, List.length_append] at hlen
    rw [List.flatten_append, List.length_append, ← Nat.add_assoc, htotal,
      Chunking.pendingLen_append, Chunking.pendingLen, if_neg (by omega)]
    omega
  intro pre c post heq
  obtain ⟨before, rfl, hcut⟩ | ⟨behind, rfl, hcut⟩ := List.append_eq_append_iff.mp heq
  · exact hown before c post hcut
  · cases behind with
    | nil =>
      have hfirst := hown [] c post hcut.symm
      rwa [List.append_nil, List.append_nil] at hfirst
    | cons d behind =>
      obtain ⟨rfl, -⟩ := List.cons.inj hcut
      have hpos := List.length_pos_of_ne_nil (hne c (by simp))
      rw [List.flatten_append, List.flatten_cons, List.length_append, List.length_append] at htotal
      rw [pendingLen_append_left (by omega)]
      exact hfits pre c behind rfl

/-- A chunk that fits gives the task the requests it completes. -/
theorem handleRxChunk_take {bytes left' : Bytes} {pieces : List Bytes}
    (hfits : left.length + bytes.length ≤ frameMaxLen) (hne : bytes ≠ [])
    (hwf : ∀ r ∈ done ++ rest, WellFormed r) (hb : left ++ bytes = Chunking.stream done ++ left')
    (hcarries : Carries encodeRequest left' pieces rest) :
    RxBuffer.handleRxChunk left bytes = (done.map .request, left') := by
  have hpart : Chunking.Partial rest left' := by
    cases rest with
    | nil => exact hcarries.part
    | cons r rest => exact hcarries.part
  rw [Chunking.handleRxChunk_fits hfits hne, hb]
  exact Chunking.parseRxBuffer_stream hwf hpart hcarries.bytes

/-! ## The simulation -/

/-- The machine's requests and frames are those on the wire. -/
structure Refines (c : Wire) (a : Machine) : Prop where
  device : Device.ofState c.task = a.device
  requests : c.client.requests = a.requests
  toDevice : Carries encodeRequest c.task.rxBuffer c.toDevice a.toDevice
  fits : Chunking.Fits a.toDevice c.task.rxBuffer.length c.toDevice
  chunks : ∀ chunk ∈ c.toDevice, chunk ≠ [] ∧ chunk.length ≤ 512
  requestsWellFormed : ∀ r ∈ a.toDevice, WellFormed r
  toClient : ∃ n left, c.client.rxBuffer = List.replicate n magic0 ++ left ∧
    Carries WireFrame.encode left c.toClient a.toClient
  framesWellFormed : ∀ f ∈ a.toClient, f.WellFormed

/-- What the machine does for a step of the wire: it handles the requests that a chunk
completes, and receives the frames that a notification completes. -/
inductive Matches : WireAction → List Action → Prop
  | request (opcode : UInt16) (payload : Bytes) (maxChunkSize : Nat) :
      Matches (.request opcode payload maxChunkSize) [.request opcode payload]
  | timeout (id : Nat) : Matches (.timeout id) [.timeout id]
  | chunk (maxPayload : Nat) (env : Nat → World) (completed : Nat) :
      Matches (.chunk maxPayload env) ((List.range' 0 completed).map fun i => .handle (env i))
  | turn (maxPayload : Nat) (t : Turn) : Matches (.turn maxPayload t) [.turn t]
  | notify (completed : Nat) : Matches .notify (List.replicate completed .receive)

theorem refines_init (store : Store) (count : UInt8) (now : UInt32) :
    Refines (Wire.init store count now) (init store count now) where
  device := rfl
  requests := rfl
  toDevice := .empty _
  fits := by
    intro pre c post h
    cases pre with
    | nil => cases h
    | cons => cases h
  chunks _ h := by cases h
  requestsWellFormed _ h := by cases h
  toClient := ⟨0, [], rfl, .empty _⟩
  framesWellFormed _ h := by cases h

variable {c c' : Wire} {a : Machine}

theorem refines_request (h : Refines c a) {opcode : UInt16} {payload : Bytes} {n : Nat}
    (hC : Condition link c (.request opcode payload n))
    (hstep : c.step hmac link (.request opcode payload n) = some c') :
    ∃ a', step hmac link a (.request opcode payload) = some a' ∧ Refines c' a' := by
  obtain ⟨hn, hsize, hid, hr⟩ := hC
  have hshort : payload.length < 2 ^ 16 := by
    have hlen : headerLen + payload.length ≤ frameMaxLen := hr
    unfold headerLen frameMaxLen at hlen
    omega
  unfold Wire.step at hstep
  dsimp only at hstep
  rw [if_pos ⟨hid, hshort⟩] at hstep
  obtain rfl := Option.some.inj hstep
  refine ⟨_, rfl, ?_⟩
  rw [h.requests] at hr
  refine ⟨h.device, congrArg Requests.request h.requests, ?_, ?_, ?_, ?_, h.toClient,
    h.framesWellFormed⟩
  · refine h.toDevice.send encodeRequest_ne_nil ?_
    rw [flatten_cut hn, h.requests, stream_cons, stream_nil, List.append_nil]
  · dsimp only
    rw [h.requests]
    exact fits_send h.toDevice (fun chunk hmem => (h.chunks chunk hmem).1) h.fits hr hn
  · intro chunk hchunk
    obtain hold | hnew := List.mem_append.mp hchunk
    · exact h.chunks chunk hold
    · obtain ⟨hne, hlen⟩ := mem_cut hn hnew
      exact ⟨hne, hlen.trans hsize⟩
  · intro r hmem
    obtain hold | hnew := List.mem_append.mp hmem
    · exact h.requestsWellFormed r hold
    · rw [List.mem_singleton.mp hnew]
      exact hr

/-- What the task sends is behind the frames on the way. -/
theorem sends_toClient {left : Bytes} {task : State} {frames : List WireFrame}
    (hp : 0 < maxPayload) (hsends : ∃ new, task.log = c.task.log ++ new ∧ Sends new frames)
    (hcarries : Carries WireFrame.encode left c.toClient a.toClient) :
    Carries WireFrame.encode left (c.toClient ++
      notifications maxPayload (task.log.drop c.task.log.length)) (a.toClient ++ frames) := by
  obtain ⟨new, hlog, hsends⟩ := hsends
  refine hcarries.send encode_ne_nil ?_
  rw [hlog, List.drop_left, flatten_notifications hp, hsends.bytes]

theorem refines_turn (h : Refines c a) {x : Turn} (hC : Condition link c (.turn maxPayload x))
    (hstep : c.step hmac link (.turn maxPayload x) = some c') :
    ∃ a', step hmac link a (.turn x) = some a' ∧ Refines c' a' := by
  obtain ⟨hp, hinside, hlink⟩ := hC
  have hmap : (Task.step hmac c.task x).map (c.act maxPayload) = some c' := hstep
  obtain ⟨task, htask, rfl⟩ := Option.map_eq_some_iff.mp hmap
  have hacts := turn_acts hlink hp hinside htask
  rw [h.device] at hacts
  obtain ⟨n, left, hbuffer, hcarries⟩ := h.toClient
  have hsends := sends_toClient hp hacts.sends hcarries
  obtain ⟨hdevice, hrx, new, hlog, hframes⟩ := hacts
  refine ⟨_, rfl, ?_⟩
  refine ⟨hdevice, h.requests, ?_, ?_, h.chunks, h.requestsWellFormed,
    ⟨n, left, hbuffer, hsends⟩, ?_⟩
  · show Carries encodeRequest task.rxBuffer c.toDevice a.toDevice
    rw [hrx]
    exact h.toDevice
  · show Chunking.Fits a.toDevice task.rxBuffer.length c.toDevice
    rw [hrx]
    exact h.fits
  · intro f hf
    exact (List.mem_append.mp hf).elim (h.framesWellFormed f) (hframes.wellFormed f)

theorem refines_chunk (h : Refines c a) {env : Nat → World}
    (hC : Condition link c (.chunk maxPayload env))
    (hstep : c.step hmac link (.chunk maxPayload env) = some c') :
    ∃ completed a', run (step hmac link) a
        ((List.range' 0 completed).map fun i => .handle (env i)) = some a' ∧
      Refines c' a' := by
  obtain ⟨hp, hlink⟩ := hC
  obtain ⟨task, client, queue, toClient⟩ := c
  cases queue with
  | nil => cases hstep
  | cons bytes queue =>
    obtain ⟨hne, hlen⟩ := h.chunks bytes List.mem_cons_self
    have hwhole : sppRxChunk bytes = bytes := List.take_of_length_le hlen
    unfold Wire.step at hstep
    dsimp only at hstep
    rw [hwhole] at hstep
    obtain rfl := Option.some.inj hstep
    obtain ⟨done, rest, left', hqueue, hb, hcarries⟩ := h.toDevice.take
    obtain ⟨hroom, hfits⟩ := Chunking.fits_cons.mp h.fits
    have hpart : Chunking.pendingLen a.toDevice task.rxBuffer.length = task.rxBuffer.length := by
      refine Chunking.pendingLen_partial ?_
      have hpart := h.toDevice.part
      cases htodo : a.toDevice with
      | nil =>
        rw [htodo] at hpart
        exact hpart
      | cons r todo =>
        rw [htodo] at hpart
        exact hpart
    rw [hpart] at hroom
    have hwf : ∀ r ∈ done ++ rest, WellFormed r := hqueue ▸ h.requestsWellFormed
    have hparse : RxBuffer.handleRxChunk task.rxBuffer bytes = (done.map .request, left') :=
      handleRxChunk_take hroom hne hwf hb hcarries
    -- the mark that a chunk was taken, then the requests it completes
    let marked : State := { task with log := task.log ++ [.received link] }
    have hmarked : Device.ofState marked = a.device := h.device
    obtain ⟨frames, served, hrun, hacts⟩ := requests_run hmac hlink hp 0 hmarked hqueue
    have hreceive : processMsg hmac env (.rxChunk link bytes) task =
        { applyRxEvents hmac env link 0 (done.map .request) marked with rxBuffer := left' } := by
      show receiveChunk hmac env link bytes task = _
      unfold receiveChunk
      rw [hparse]
    obtain ⟨-, -, new, hlog, hsends⟩ := hacts
    have hsent : ∃ new, (processMsg hmac env (.rxChunk link bytes) task).log = task.log ++ new ∧
        Sends new frames := by
      refine ⟨[.received link] ++ new, ?_, ?_⟩
      · rw [hreceive, ← List.append_assoc]
        exact hlog
      · have hquiet : Sends [.received link] [] := by
          refine sends_of_silent ?_
          intro e he l f n b heq
          rw [List.mem_singleton.mp he] at heq
          cases heq
        exact hquiet.append hsends
    obtain ⟨n, left, hbuffer, hcarries'⟩ := h.toClient
    refine ⟨done.length, _, hrun, ?_, h.requests, ?_, ?_, ?_, ?_, ?_, ?_⟩
    · show Device.ofState (processMsg hmac env (.rxChunk link bytes) task) = _
      rw [hreceive]
      rfl
    · show Carries encodeRequest (processMsg hmac env (.rxChunk link bytes) task).rxBuffer queue
        rest
      rw [hreceive]
      exact hcarries
    · show Chunking.Fits rest (processMsg hmac env (.rxChunk link bytes) task).rxBuffer.length
        queue
      rw [hreceive]
      rw [← List.length_append, hb, List.length_append, hqueue] at hfits
      exact Chunking.fits_append.mp hfits
    · intro chunk hchunk
      exact h.chunks chunk (List.mem_cons_of_mem bytes hchunk)
    · intro r hr
      exact hwf r (List.mem_append_right done hr)
    · exact ⟨n, left, hbuffer, sends_toClient hp hsent hcarries'⟩
    · intro f hf
      exact (List.mem_append.mp hf).elim (h.framesWellFormed f) (hsends.wellFormed f)

/-- The frames that a notification completes are received one by one. -/
theorem receives_run (received rest : List WireFrame) (h : a.toClient = received ++ rest) :
    run (step hmac link) a (List.replicate received.length .receive) = some { a with
      requests := received.foldl (fun r f => r.receive f.decoded) a.requests
      toClient := rest } := by
  induction received generalizing a with
  | nil =>
    rw [List.nil_append] at h
    rw [← h]
    rfl
  | cons f received ih =>
    have hstep : step hmac link a .receive = some { a with
        requests := a.requests.receive f.decoded, toClient := received ++ rest } := by
      rw [step, h]
      rfl
    rw [List.length_cons, List.replicate_succ, run_cons_some _ hstep, ih rfl]
    rfl

theorem refines_notify (h : Refines c a) (hstep : c.step hmac link .notify = some c') :
    ∃ completed a', run (step hmac link) a (List.replicate completed .receive) = some a' ∧
      Refines c' a' := by
  obtain ⟨task, client, toDevice, queue⟩ := c
  cases queue with
  | nil => cases hstep
  | cons data queue =>
    obtain rfl := Option.some.inj hstep
    obtain ⟨n, left, hbuffer, hcarries⟩ := h.toClient
    have hbytes := hcarries.bytes
    rw [List.flatten_cons, ← List.append_assoc] at hbytes
    obtain ⟨n', done, rest, left', hqueue, -, hleft, hpart, hprocess⟩ :=
      processNotification_eq h.framesWellFormed hbuffer hbytes
    refine ⟨done.length, _, receives_run done rest hqueue, h.device, ?_, h.toDevice, h.fits,
      h.chunks, h.requestsWellFormed, ⟨n', left', ?_, hleft, hpart⟩, ?_⟩
    · dsimp only
      rw [hprocess, ← h.requests]
      rfl
    · dsimp only
      rw [hprocess]
      rfl
    · intro f hf
      exact h.framesWellFormed f (hqueue ▸ List.mem_append_right done hf)

/-- The ids of the client have not run out. -/
def Numbered (a : Machine) : Action → Prop
  | .request _ _ => a.requests.nextRequestId < 2 ^ 32
  | _ => True

theorem step_refines {x : WireAction} (h : Refines c a) (hC : Condition link c x)
    (hstep : c.step hmac link x = some c') :
    ∃ bs a', Matches x bs ∧ Along (step hmac link) Numbered a bs ∧
      run (step hmac link) a bs = some a' ∧ Refines c' a' := by
  cases x with
  | request opcode payload n =>
    obtain ⟨a', ha, hrefines⟩ := refines_request h hC hstep
    have hid : a.requests.nextRequestId < 2 ^ 32 := h.requests ▸ hC.2.2.1
    exact ⟨_, a', .request opcode payload n, ⟨hid, fun _ _ => trivial⟩,
      by rw [run_cons_some [] ha, run_nil], hrefines⟩
  | timeout id =>
    obtain rfl := Option.some.inj hstep
    refine ⟨_, _, .timeout id, ⟨trivial, fun _ _ => trivial⟩, rfl, h.device, ?_, h.toDevice, h.fits,
      h.chunks, h.requestsWellFormed, h.toClient, h.framesWellFormed⟩
    exact congrArg (·.timeout id) h.requests
  | chunk maxPayload env =>
    obtain ⟨completed, a', ha, hrefines⟩ := refines_chunk h hC hstep
    have hnumbered : Along (step hmac link) Numbered a
        ((List.range' 0 completed).map fun i => .handle (env i)) := by
      refine along_iff.mpr ?_
      intro pre b post u heq _
      have hmem : b ∈ (List.range' 0 completed).map fun i => Action.handle (env i) := by
        rw [heq]
        simp
      obtain ⟨i, -, rfl⟩ := List.mem_map.mp hmem
      trivial
    exact ⟨_, a', .chunk maxPayload env completed, hnumbered, ha, hrefines⟩
  | turn maxPayload t =>
    obtain ⟨a', ha, hrefines⟩ := refines_turn h hC hstep
    exact ⟨_, a', .turn maxPayload t, ⟨trivial, fun _ _ => trivial⟩,
      by rw [run_cons_some [] ha, run_nil], hrefines⟩
  | notify =>
    obtain ⟨completed, a', ha, hrefines⟩ := refines_notify h hstep
    have hnumbered : Along (step hmac link) Numbered a (List.replicate completed .receive) := by
      refine along_iff.mpr ?_
      intro pre b post u heq _
      have hmem : b ∈ List.replicate completed Action.receive := by
        rw [heq]
        simp
      rw [List.eq_of_mem_replicate hmem]
      trivial
    exact ⟨_, a', .notify completed, hnumbered, ha, hrefines⟩

theorem run_refines {as : List WireAction} (h : Refines c a)
    (hC : Along (Wire.step hmac link) (Condition link) c as)
    (hrun : run (Wire.step hmac link) c as = some c') :
    ∃ bss a', List.Forall₂ Matches as bss ∧ Along (step hmac link) Numbered a bss.flatten ∧
      run (step hmac link) a bss.flatten = some a' ∧ Refines c' a' :=
  run_simulated (fun _ _ _ _ hR hC hstep => step_refines hR hC hstep) h hC hrun

/-- **The wire is transparent.** Over every interleaving of requests, timeouts, chunks,
notifications and other turns of the task, the two ends of a connection do what the
machine does whose queues hold whole requests and whole frames. -/
theorem rpc_transparent (hmac : Hmac) (link : Nat) (store : Store) (count : UInt8) (now : UInt32)
    (as : List WireAction) {c : Wire}
    (hC : Along (Wire.step hmac link) (Condition link) (Wire.init store count now) as)
    (hrun : run (Wire.step hmac link) (Wire.init store count now) as = some c) :
    ∃ bss a, List.Forall₂ Matches as bss ∧
      run (step hmac link) (init store count now) bss.flatten = some a ∧ Refines c a := by
  obtain ⟨bss, a, hmatches, -, ha, hrefines⟩ := run_refines (refines_init store count now) hC hrun
  exact ⟨bss, a, hmatches, ha, hrefines⟩

/-! ## A run -/

/-- A connection that takes 20 bytes in a notification. -/
def linkedWorld : World where
  inputs :=
    { link :=
        { connected := some 0, notificationsEnabled := true, mtu := 23, maxPayload := 20
          refusedChunk := none }
      now := 0, time := 0, nonce := List.replicate authNonceLen 0, nvs := .working }
  services := default
  uptimeMs := 0
  queueFree := 0

/-- A ping in three chunks, a heartbeat that is not due, and the answer. -/
def pinging : List WireAction :=
  [.request Opcode.ping.code [7] 5, .chunk 20 fun _ => linkedWorld, .chunk 20 fun _ => linkedWorld,
    .turn 20 ⟨.timer, fun _ => linkedWorld⟩, .chunk 20 fun _ => linkedWorld, .notify]

theorem condition_pinging : Along (Wire.step default 0) (Condition 0)
    (Wire.init (fun _ => none) 0 0) pinging := by
  have hgood : ∀ k : Nat, GoodLink 0 20 ((fun _ => linkedWorld) k) := fun _ => ⟨rfl, rfl, rfl, rfl⟩
  refine ⟨⟨by decide, by decide, by decide, by decide⟩, fun _ _ => ⟨⟨by decide, hgood⟩, fun _ _ =>
    ⟨⟨by decide, hgood⟩, fun _ _ => ⟨⟨by decide, trivial, hgood⟩, fun _ _ =>
      ⟨⟨by decide, hgood⟩, fun _ _ => ⟨trivial, fun _ _ => trivial⟩⟩⟩⟩⟩⟩

theorem rpc_transparent_ping : ∃ c, run (Wire.step default 0) (Wire.init (fun _ => none) 0 0)
      pinging = some c ∧ ∃ bss a, List.Forall₂ Matches pinging bss ∧
    run (step default 0) (init (fun _ => none) 0 0) bss.flatten = some a ∧ Refines c a :=
  ⟨_, rfl, rpc_transparent default 0 (fun _ => none) 0 0 pinging condition_pinging rfl⟩

end Jukeboy.CompanionApi.Rpc
