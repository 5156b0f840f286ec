import Jukeboy.Audio.Volume
import Jukeboy.Base.Runs
import Jukeboy.Base.StreamBuffer
import Jukeboy.Player.PacketWalk

/-! # The way of the sound

The decoder task walks the packets of its chunks and sends what the Opus decoder makes of
them into the stream buffer. The task of the I2S service and the callback of the Bluetooth
stack take it out again through the dispatcher of the output switch and the provider of the
player, which scales it. All of them take turns, and so do pauses, volume changes, session
changes and the commands to the services. -/
namespace Jukeboy.Audio.PcmPath

open Jukeboy.Base Jukeboy.Base.ByteFile Jukeboy.Base.Runs Jukeboy.Base.StreamBuffer
open Jukeboy.Audio.Volume Jukeboy.Formats.Jba Jukeboy.Player
open Jukeboy.Player.State (volumeLevelCount)

/-- `player_service_create_pcm_stream`. -/
def pcmStreamBufSize (qemu : Bool) : Nat := if qemu then 32 * 1024 else 16 * 1024

/-- `I2S_SVC_PCM_BUF_BYTES`. -/
def i2sPcmBufBytes : Nat := 48000 * 2 * 2 * 20 / 1000

def i2sQueueDepth : Nat := 4

/-! ## The decoder task -/

/-- The decoder task of a session. `pcm` is the `s_decoder_pcm_buf` up to the decoded size.
The code keeps none of the rest: `done` are the chunks walked before, `turns` what the
decoder got and what it made of it, `sent` what the stream took. -/
structure Decoder where
  chunk : List UInt8
  walk : PacketWalk.State
  pcm : List UInt8
  done : List (List UInt8)
  turns : List (Packet × List UInt8)
  sent : List UInt8

namespace Decoder

/-- A session that waits for its first chunk. -/
def fresh : Decoder := ⟨[], { PacketWalk.initial with phase := .ended }, [], [], [], []⟩

variable (d : Decoder)

def chunkData (i : Nat) : UInt8 := d.chunk.getD i 0

/-- What the loop that sends has before it. -/
def toSend : List UInt8 :=
  match d.walk.phase with
  | .sending written decodedSize _ => (d.pcm.take decodedSize).drop written
  | .looping | .ended => []

def chunks : List (List UInt8) := d.done ++ [d.chunk]

/-- A turn of the loop over the packets: the decoder makes `frame` of a packet that is handed
over. -/
def handOver (walk : PacketWalk.State) (frame : List UInt8) : Decoder :=
  let handed := walk.handed.drop d.walk.handed.length
  { d with
    walk, pcm := if handed.isEmpty then d.pcm else frame
    turns := d.turns ++ handed.map fun p => (slice d.chunk p.1 p.2, frame) }

/-- A turn of the loop that sends: the stream takes `accepted`. -/
def sendOn (walk : PacketWalk.State) (accepted : List UInt8) : Decoder :=
  { d with walk, sent := d.sent ++ accepted }

end Decoder

/-! ## The sinks -/

inductive Sink where
  | i2s | bluetooth
deriving DecidableEq, Repr

/-- A call of `player_service_pcm_provider`: past its check of `s_paused`, or past its
receive. -/
inductive Call where
  | idle
  | receiving (len : Nat)
  | scaling (len : Nat) (audio : List UInt8)
deriving DecidableEq, Repr

def Call.audio : Call → List UInt8
  | .scaling _ audio => audio
  | .idle | .receiving _ => []

/-- The memory a provider was called with, and what it returned. -/
structure Filled where
  data : List UInt8
  filled : Nat

/-- What a sink got, with the sound in it and the level of its volume. -/
structure Output where
  sink : Sink
  len : Nat
  level : Nat
  audio : List UInt8
  data : List UInt8

/-- What `i2s_service_task` does with what it was given. -/
def padI2s (r : Filled) : List UInt8 :=
  if r.filled = 0 then List.replicate i2sPcmBufBytes 0
  else if r.filled < i2sPcmBufBytes then
    r.data.take r.filled ++ List.replicate (i2sPcmBufBytes - r.filled) 0
  else r.data

/-- What `bt_svc_a2dp_data_cb` does with what it was given. -/
def padA2dp (len : Nat) (r : Filled) : List UInt8 :=
  if r.filled < len then r.data.take r.filled ++ List.replicate (len - r.filled) 0 else r.data

def pad (len : Nat) (r : Filled) : Sink → List UInt8
  | .i2s => padI2s r
  | .bluetooth => padA2dp len r

/-- `i2s_service_msg_t`. -/
inductive I2sCmd where
  | start | suspend
  | registerProvider (provider : Bool)
deriving DecidableEq, Repr

structure I2s where
  running : Bool
  provider : Bool
  cmdQueue : List I2sCmd
  pcmBuf : List UInt8

/-- `i2s_service_process_cmd`. -/
def I2s.processCmd (enables : Bool) (i2s : I2s) : I2sCmd → I2s
  | .start => if !i2s.running && enables then { i2s with running := true } else i2s
  | .suspend => if i2s.running then { i2s with running := false } else i2s
  | .registerProvider provider => { i2s with provider }

/-! ## The system -/

/-- `provided` is whether the switch has a provider, `btProvider` whether the Bluetooth
service has the dispatcher. The code does not keep `earlier`, what the sessions before have
sent, nor what was `taken` from the stream, nor the `outputs`. -/
structure State (qemu : Bool) where
  decoder : Decoder
  stream : Buffer UInt8 (pcmStreamBufSize qemu)
  paused : Bool
  volumeLevel : Nat
  provided : Bool
  i2s : I2s
  btProvider : Bool
  call : Sink → Call
  earlier : List UInt8
  taken : List (Taken UInt8)
  outputs : List Output

variable {qemu : Bool}

def init (qemu : Bool) : State qemu where
  decoder := .fresh
  stream := .empty
  paused := false
  volumeLevel := volumeLevelCount - 1
  provided := false
  i2s := ⟨false, false, [], List.replicate i2sPcmBufBytes 0⟩
  btProvider := false
  call _ := .idle
  earlier := []
  taken := []
  outputs := []

namespace State

variable (s : State qemu)

/-- A turn of the decoder task inside a chunk. The decoder makes `frame` of the packet it is
handed, if it is handed one; nothing where it reports an error. -/
def decode (stop : Bool) (frame : List UInt8) : State qemu :=
  let d := s.decoder
  let answer : PacketWalk.Answer := ⟨stop, some frame.length, s.stream.room⟩
  let walk := PacketWalk.step d.chunkData d.chunk.length answer d.walk
  match d.walk.phase with
  | .looping => { s with decoder := d.handOver walk frame }
  | .sending _ _ _ =>
    let data := if stop then [] else d.toSend
    { s with decoder := d.sendOn walk (s.stream.accepted data), stream := s.stream.send data }
  | .ended => s

/-- The decoder task takes a chunk with a checksum that is right from its queue. -/
def nextChunk (chunk : List UInt8) : Option (State qemu) :=
  let d := s.decoder
  if d.walk.phase = .ended ∧ d.walk.running then
    some { s with
      decoder := { d with chunk, walk := PacketWalk.initial, done := d.done ++ [d.chunk] } }
  else none

/-- The decoder task begins a session. -/
def startSession : Option (State qemu) :=
  if s.decoder.walk.phase = .ended then
    some { s with decoder := .fresh, earlier := s.earlier ++ s.decoder.sent }
  else none

/-- `player_service_reset_pipeline`, at any moment: after a wait that timed out the decoder task
may be inside a chunk. `xStreamBufferReset` refuses while a task is blocked on the stream. -/
def resetPipeline (blocked : Bool) : State qemu :=
  if blocked then s
  else { s with stream := .empty, taken := s.taken ++ [.dropped s.stream.held] }

def setCall (sink : Sink) (call : Call) : State qemu :=
  { s with call := Function.update s.call sink call }

/-- A provider returns to its sink. -/
def deliver (sink : Sink) (len : Nat) (audio : List UInt8) (r : Filled) : State qemu :=
  let data := pad len r sink
  { s.setCall sink .idle with
    i2s := if sink = .i2s then { s.i2s with pcmBuf := data } else s.i2s
    outputs := s.outputs ++ [⟨sink, len, s.volumeLevel, audio, data⟩] }

/-- `audio_output_switch_dispatch_pcm`, and `player_service_pcm_provider` up to its receive. -/
def dispatchPcm (sink : Sink) (len : Nat) : State qemu :=
  if !s.provided then s.deliver sink len [] ⟨List.replicate len 0, len⟩
  else if s.paused then s.deliver sink len [] ⟨List.replicate len 0, len⟩
  else s.setCall sink (.receiving len)

/-- `xStreamBufferReceive` in `player_service_pcm_provider`. -/
def receive (sink : Sink) : Option (State qemu) :=
  match s.call sink with
  | .receiving len =>
    let audio := s.stream.given len
    some { s.setCall sink (.scaling len audio) with
      stream := s.stream.receive len, taken := s.taken ++ [.received audio] }
  | .idle | .scaling _ _ => none

/-- The end of `player_service_pcm_provider`: silence behind the sound, and the volume. -/
def finish (sink : Sink) : Option (State qemu) :=
  match s.call sink with
  | .scaling len audio =>
    let data := applyVolume s.volumeLevel audio ++ List.replicate (len - audio.length) 0
    some (s.deliver sink len audio ⟨data, audio.length⟩)
  | .idle | .receiving _ => none

/-- A turn of `i2s_service_task`: the commands first, then the sound. -/
def i2sTask (enables : Bool) : Option (State qemu) :=
  if s.call .i2s ≠ .idle then none
  else
    match s.i2s.cmdQueue with
    | cmd :: cmdQueue => some { s with i2s := { s.i2s with cmdQueue }.processCmd enables cmd }
    | [] =>
      if !s.i2s.running then none
      else if s.i2s.provider then some (s.dispatchPcm .i2s i2sPcmBufBytes)
      else some (s.deliver .i2s i2sPcmBufBytes [] ⟨s.i2s.pcmBuf, 0⟩)

/-- `i2s_service_send`; a queue that stays full takes nothing. -/
def i2sSend (cmd : I2sCmd) : State qemu :=
  if s.i2s.cmdQueue.length < i2sQueueDepth then
    { s with i2s := { s.i2s with cmdQueue := s.i2s.cmdQueue ++ [cmd] } }
  else s

/-- `bt_svc_a2dp_data_cb`. -/
def a2dpDataCb (len : Nat) : Option (State qemu) :=
  if s.call .bluetooth ≠ .idle then none
  else if len = 0 then some s
  else if s.btProvider then some (s.dispatchPcm .bluetooth len)
  else some (s.deliver .bluetooth len [] ⟨List.replicate len 0, len⟩)

end State

inductive Action where
  | decode (stop : Bool) (frame : List UInt8)
  | nextChunk (chunk : List UInt8)
  | startSession
  | resetPipeline (blocked : Bool)
  | setPaused (paused : Bool)
  | volumeUp | volumeDown
  | setVolumeAbsolute (avrcVol : UInt8)
  | setProvider
  | i2sSend (cmd : I2sCmd)
  | i2sTask (enables : Bool)
  | registerBluetooth (provider : Bool)
  | a2dpDataCb (len : Nat)
  | receive (sink : Sink)
  | finish (sink : Sink)

def step (s : State qemu) : Action → Option (State qemu)
  | .decode stop frame => some (s.decode stop frame)
  | .nextChunk chunk => s.nextChunk chunk
  | .startSession => s.startSession
  | .resetPipeline blocked => some (s.resetPipeline blocked)
  | .setPaused paused => some { s with paused }
  | .volumeUp =>
    some { s with
      volumeLevel := if s.volumeLevel + 1 < volumeLevelCount then s.volumeLevel + 1 else s.volumeLevel }
  | .volumeDown =>
    some { s with volumeLevel := if s.volumeLevel > 0 then s.volumeLevel - 1 else s.volumeLevel }
  | .setVolumeAbsolute avrcVol => some { s with volumeLevel := setVolumeAbsolute avrcVol }
  | .setProvider => some { s with provided := true }
  | .i2sSend cmd => some (s.i2sSend cmd)
  | .i2sTask enables => s.i2sTask enables
  | .registerBluetooth provider => some { s with btProvider := provider }
  | .a2dpDataCb len => s.a2dpDataCb len
  | .receive sink => s.receive sink
  | .finish sink => s.finish sink

/-! ## What is promised of the others -/

/-- A frame of the sound: a 16-bit sample for each of two channels. -/
def frameBytes : Nat := 4

/-- The Opus decoder makes whole frames and the Bluetooth stack asks for whole frames. The
stream has one reader at a time. -/
def Condition (s : State qemu) : Action → Prop
  | .decode _ frame => Whole frameBytes frame
  | .i2sTask _ => s.call .bluetooth = .idle
  | .a2dpDataCb len => frameBytes ∣ len ∧ s.call .i2s = .idle
  | _ => True

instance (s : State qemu) : ∀ a, Decidable (Condition s a)
  | .decode _ _ => inferInstanceAs (Decidable (_ ∣ _))
  | .i2sTask _ => inferInstanceAs (Decidable (_ = _))
  | .a2dpDataCb _ => inferInstanceAs (Decidable (_ ∧ _))
  | .nextChunk _ | .startSession | .resetPipeline _ | .setPaused _ | .volumeUp | .volumeDown
  | .setVolumeAbsolute _ | .setProvider | .i2sSend _ | .registerBluetooth _ | .receive _
  | .finish _ => isTrue trivial

end Jukeboy.Audio.PcmPath
