import Jukeboy.Player.CartridgeReads
import Jukeboy.Player.Pipeline

/-! # The sessions of the reader task

The service task, the reader task, the decoder task and the cartridge service
side by side. The service task loads a track by a read of its own, through the
same queue and the same result as the reads of the reader task; it goes by the
idle bits, which a task that received its start command has not cleared yet. The
reader task uses the track information in place, and asks for a stop only where
it would block. One access to a shared variable, or what a mutex holds together,
is one step. -/
namespace Jukeboy.Player.ReadSessions

open Jukeboy.Base Jukeboy.Base.ByteFile Jukeboy.Base.LittleEndian Jukeboy.Formats.Jba
open Jukeboy.Player.Track Jukeboy.Player.State Jukeboy.Player.CartridgeReads
open Jukeboy.Player.Service hiding State Action step initState
open Jukeboy.Player.Pipeline (WaitFor ResetFor queueDepth)

/-- `PLAYER_SVC_CHUNK_BUF_COUNT`: the tokens of `s_buf_pool_sem` and the depth of
`s_chunk_queue`. -/
def chunkBufCount : Nat := 2

/-! ## The tasks -/

/-- A start command. Beside the generation and the chunk to start at it has the
file of the track it is for, which the code does not store. -/
structure Session where
  generation : Nat
  startChunk : Nat
  file : List UInt8
deriving DecidableEq, Repr

/-- A session of the reader, with the chunks it has put into the chunk queue: the
index of each, and the bytes its message pointed to at that time. -/
structure Delivery where
  session : Session
  messages : List (Nat × List UInt8)
deriving DecidableEq, Repr

/-- `player_service_chunk_msg_t`: a chunk at an offset of a read buffer,
`release_buf`, or `is_eof`. -/
inductive ChunkMsg where
  | chunk (buf : Bool) (offset len chunkIndex : Nat)
  | releaseBuf
  | eof
deriving DecidableEq, Repr

/-- Where the reader task is: blocked on its command queue, past the receive with
its idle bit still set, past the clear of the bit; in its loop over the chunks, at
the head, making sure of the lookup window, past that; sending the flush of the
buffer before, taking a token, asking for a read with its offset computed, sending
the request, waiting for the notification, past it, sending the chunk; at
`track_done`, sending the EOF, closing the file. -/
inductive ReaderPc where
  | idle
  | received
  | starting
  | loopTop
  | resolving
  | checked
  | flushing
  | taking
  | requesting
  | copying (offset : Nat)
  | sending (req : Request)
  | waiting
  | resulting
  | queueing
  | trackDone
  | sendingEof
  | closing
deriving DecidableEq, Repr

/-- The variables of the reader task; `rd` is the buffer of its last read and
`request` the number of that read. -/
structure Reader where
  pc : ReaderPc
  session : Session
  chunkIndex : Nat
  chunkStart : Nat
  chunkEnd : Nat
  bufferCheckedOut : Bool
  rd : Option Bool
  rdLen : Nat
  windowStart : Nat
  stopSeen : Bool
  request : Nat
deriving DecidableEq, Repr

/-- Where the decoder task is; `finishing` is
`player_service_queue_track_complete_when_reader_idle` past its first line. -/
inductive DecoderPc where
  | idle
  | received (generation : Nat)
  | running (generation : Nat)
  | finishing (generation : Nat)
deriving DecidableEq, Repr

/-- A call of `player_service_start_track`, or with `restore` of
`player_service_restore_paused_track`. -/
structure Start where
  restore : Bool
  index : Nat
  chunk : Nat
deriving DecidableEq, Repr

/-- Where `player_service_load_track_info` is. -/
inductive LoadPc where
  | asking
  | copying
  | sending (req : Request)
  | waiting
  | resulting
deriving DecidableEq, Repr

/-- Where the service task is: waiting for a message, in
`player_service_stop_playback` and past it, in `player_service_reset_pipeline`, in
a start. -/
inductive ServicePc where
  | waiting
  | stopping (after : AfterStop)
  | awaitingIdle (for_ : WaitFor)
  | resetReader (for_ : ResetFor)
  | resetDecoder (for_ : ResetFor)
  | resetChunks (for_ : ResetFor)
  | stopped (after : AfterStop)
  | starting (st : Start)
  | ensuring (st : Start)
  | loading (st : Start) (filename : Nat) (at_ : LoadPc)
  | loaded (st : Start)
  | sendDecoder
  | sendReader
deriving DecidableEq, Repr

/-- `PLAYER_SVC_READER_IDLE_BIT`. -/
def ReaderPc.idleBit : ReaderPc → Bool
  | .idle | .received => true
  | _ => false

/-- `PLAYER_SVC_DECODER_IDLE_BIT`. -/
def DecoderPc.idleBit : DecoderPc → Bool
  | .running _ => false
  | _ => true

/-- The variables, the tasks and the queues between them. `deliveries` lists the
sessions of the reader so far, the last one first. -/
structure State where
  service : Service
  pc : ServicePc
  cmdQueue : List Msg
  readerCmd : Option Session
  decoderCmd : Option Nat
  reader : Reader
  decoder : DecoderPc
  chunkQueue : List ChunkMsg
  bufPoolSem : Nat
  cart : Cart
  deliveries : List Delivery

namespace State

variable (s : State)

/-- `player_service_pipeline_idle`. -/
def pipelineIdle : Bool := s.reader.pc.idleBit && s.decoder.idleBit

/-- `player_service_should_stop`. -/
def shouldStop (generation : Nat) : Bool :=
  if generation = 0 then false
  else s.service.stopRequested || generation != s.service.activeGeneration

/-- `xQueueSend(s_cmd_queue, &msg, 0)`: the message is dropped when the queue is full. -/
def queueMsg (msg : Msg) : State :=
  if s.cmdQueue.length < queueDepth then { s with cmdQueue := s.cmdQueue ++ [msg] } else s

/-- The chunk queue takes another message. -/
def hasRoom : Bool := decide (s.chunkQueue.length < chunkBufCount)

/-- `xSemaphoreGive(s_buf_pool_sem)`: at its limit the semaphore stays as it is. -/
def give : Nat := if s.bufPoolSem < chunkBufCount then s.bufPoolSem + 1 else s.bufPoolSem

end State

/-! ## Loading a track -/

/-- `player_service_load_track_info` past its read: what the read returned, the
bytes of its buffer, and the size `stat` gives. -/
def parseTrackInfo (filename : Nat) (err : EspErr) (buf : List UInt8) (bufLen : Nat)
    (size : Option Nat) : Except EspErr TrackInfo := do
  failIf (err != .ok) err
  failIf (decide (bufLen < headerLen)) .fail
  let header := readHeader buf
  failIf (header.version != jbaVersion) .notSupported
  failIf (decide (header.lookupTableLen > (sizeMax - headerLen) / 4)) .invalidSize
  failIf (decide (header.lookupTableLen > maxLookupEntries)) .invalidSize
  let dataOffset := header.headerLenInBlocks * headerBlockSize
  failIf (decide (dataOffset = 0 ∨ dataOffset > sizeMax)) .invalidSize
  failIf (header.lookupTableLen == 0) .fail
  failIf size.isNone .notFound
  let fileSize := statSize (size.getD 0)
  failIf (decide (fileSize ≤ 0 ∨ fileSize ≤ (dataOffset : Int))) .fail
  failIf (decide (dataOffset < headerLen + header.lookupTableLen * 4)) .invalidSize
  return invalidateLookupWindow
    { TrackInfo.zero with
      filename := some filename
      lookupTableLen := header.lookupTableLen
      dataOffset := dataOffset
      totalFileSize := fileSize.toNat }

/-- `player_service_restore_paused_track` from a loaded track to its reset of the pipeline. -/
def beginPaused (env : Env) (index chunk : Nat) (p : Service) : Service :=
  let startChunk := p.clampChunk chunk
  let p := syncShufflePosition index { p with countablePlayEmitted := false, playlistIndex := index }
  { p with
    playing := true
    paused := true
    stopRequested := false
    resumeChunk := startChunk
    currentChunk := startChunk
    trackStartedUnix := resolveTrackStartedUnix env.time startChunk }

/-! ## The service task -/

/-- Where a handler goes on. -/
def nextPc : Next → ServicePc
  | .done => .waiting
  | .stop after => .stopping after
  | .start index chunk => .starting ⟨false, index, chunk⟩
  | .restorePaused index chunk => .starting ⟨true, index, chunk⟩

namespace State

variable (s : State)

/-- What the service task sees of its surroundings; whether a cartridge is mounted
is the state's. -/
def seen (env : Env) : Env :=
  { env with cartridge := { env.cartridge with mounted := s.cart.mounted } }

/-- A start that failed: its caller clears `s_playing` and returns. -/
def startFailed : State := { s with service := { s.service with playing := false }, pc := .waiting }

/-- The service task past a reset. -/
def afterReset (env : Env) : ResetFor → State
  | .stop after _ => { s with pc := .stopped after }
  | .failedStart => { s with pc := .waiting }
  | .restore => { s with service := s.service.cacheCurrentPlaybackStatus env, pc := .waiting }
  | .start => { s with pc := .sendDecoder }

/-- The checks of a start on the index and the idle bits. -/
def refusesStart (index : Nat) : Bool :=
  decide (index ≥ s.service.playlist.count) || !s.pipelineIdle

/-- The start command for the loaded track. -/
def newSession : Session where
  generation := s.service.activeGeneration
  startChunk := s.service.resumeChunk
  file := s.cart.card.content s.service.trackInfo.filename

/-- The bytes a read left in its buffer. -/
def resultBytes : List UInt8 := (s.cart.mail.slot.data.map s.cart.readBuf).getD []

/-- What `stat` finds for a track. -/
def statOf (env : Env) (filename : Nat) : Option Nat :=
  if env.loadIo.statOk && s.cart.present (some filename) then
    some (s.cart.card.content (some filename)).length
  else none

/-- One step of `player_service_load_track_info`, and of the assignment to
`s_track_info` that follows it. -/
def loadStep (env : Env) (st : Start) (filename : Nat) : LoadPc → Option State
  | .asking =>
    if !s.cart.mounted then some s.startFailed
    else some { s with pc := .loading st filename .copying }
  | .copying =>
    some { s with pc := .loading st filename (.sending (s.cart.request (some filename) 0)) }
  | .sending req =>
    match s.cart.sendRequest .service req with
    | none => some s.startFailed
    | some cart => some { s with cart := cart, pc := .loading st filename .waiting }
  | .waiting =>
    if s.cart.mail.notified .service = 0 then none
    else some { s with
      cart := s.cart.takeNotification .service
      pc := .loading st filename .resulting }
  | .resulting =>
    let r := s.cart.mail.slot
    match parseTrackInfo filename r.status s.resultBytes r.len (s.statOf env filename) with
    | .error _ => some s.startFailed
    | .ok info => some { s with service := { s.service with trackInfo := info }, pc := .loaded st }

/-- One step of the service task. -/
def serviceStep (env : Env) : Option State :=
  let env := s.seen env
  match s.pc with
  | .waiting =>
    match s.cmdQueue with
    | [] => none
    | msg :: rest =>
      let (p, next) := handle env s.service msg
      some { s with service := p, cmdQueue := rest, pc := nextPc next }
  | .stopping after =>
    if s.pipelineIdle then some { s with pc := .resetReader (.stop after false) }
    else some { s with service := requestStop s.service, pc := .awaitingIdle (.stop after) }
  | .awaitingIdle for_ =>
    if s.pipelineIdle then
      match for_ with
      | .stop after => some { s with pc := .resetReader (.stop after false) }
      | .failedStart => some { s with pc := .resetReader .failedStart }
    else none
  | .resetReader for_ => some { s with readerCmd := none, pc := .resetDecoder for_ }
  | .resetDecoder for_ => some { s with decoderCmd := none, pc := .resetChunks for_ }
  | .resetChunks for_ =>
    let s := { s with chunkQueue := [], bufPoolSem := max s.bufPoolSem chunkBufCount }
    some (s.afterReset env for_)
  | .stopped after =>
    let (p, next) := afterStop env s.service after
    some { s with service := p, pc := nextPc next }
  | .starting st =>
    if s.refusesStart st.index then some s.startFailed else some { s with pc := .ensuring st }
  | .ensuring st =>
    match s.service.playlistFilename env.cartridge st.index with
    | none => some s.startFailed
    | some filename =>
      if s.service.trackInfo.filename = some filename then some { s with pc := .loaded st }
      else some { s with pc := .loading st filename .asking }
  | .loading st filename at_ => s.loadStep env st filename at_
  | .loaded st =>
    if st.restore then
      some { s with service := beginPaused env st.index st.chunk s.service, pc := .resetReader .restore }
    else
      some { s with service := beginTrack env st.index st.chunk s.service, pc := .resetReader .start }
  | .sendDecoder =>
    match s.decoderCmd with
    | some _ => some { s with service := decoderSendFailed s.service, pc := .waiting }
    | none => some { s with decoderCmd := some s.service.activeGeneration, pc := .sendReader }
  | .sendReader =>
    match s.readerCmd with
    | some _ =>
      some { s with
        service := readerSendFailed s.service
        chunkQueue := if s.hasRoom then s.chunkQueue ++ [.eof] else s.chunkQueue
        pc := .awaitingIdle .failedStart }
    | none =>
      some { s with
        readerCmd := some s.newSession
        service := finishStart env s.service
        pc := .waiting }

/-- The wait for the idle bits ends with its warning. -/
def timeoutStep : Option State :=
  match s.pc with
  | .awaitingIdle (.stop after) => some { s with pc := .resetReader (.stop after true) }
  | .awaitingIdle .failedStart => some { s with pc := .resetReader .failedStart }
  | _ => none

/-! ## The reader task -/

/-- The reader goes on at `pc`. -/
def goto (pc : ReaderPc) : State := { s with reader := { s.reader with pc := pc } }

/-- The session is asked to stop. -/
def readerStops : Bool := s.shouldStop s.reader.session.generation

/-- The read could not be requested or its result is no good: the token goes back. -/
def readFailed : State :=
  { s with
    bufPoolSem := s.give
    reader := { s.reader with pc := .trackDone, bufferCheckedOut := false, rd := none } }

/-- The session has put this chunk into the chunk queue. -/
def delivered (message : Nat × List UInt8) : List Delivery :=
  match s.deliveries with
  | [] => []
  | d :: ds => { d with messages := d.messages ++ [message] } :: ds

/-- Past `player_service_get_chunk_bounds`: the chunk is skipped, lies in the bytes
read, or needs a new read. A failed assertion stops the task. -/
def boundedChunk (chunkStart chunkEnd : Nat) : Option State :=
  if !(decide (chunkStart ≤ chunkEnd) && decide (chunkEnd - chunkStart ≤ chunkMaxBytes)) then none
  else if chunkEnd - chunkStart ≤ chunkCrcBytes then
    some { s with reader := { s.reader with pc := .loopTop, chunkIndex := s.reader.chunkIndex + 1 } }
  else
    let fits := s.reader.rd.isSome && decide (chunkStart ≥ s.reader.windowStart) &&
      decide (chunkEnd ≤ s.reader.windowStart + s.reader.rdLen)
    some { s with
      reader := { s.reader with
        pc := if fits then .queueing else if s.reader.rd.isSome then .flushing else .taking
        chunkStart := chunkStart
        chunkEnd := chunkEnd } }

/-- What the reader's calls answer: those of the window load, and whether a send, a
take or a wait has timed out and then looks for a stop. -/
structure ReaderIo where
  window : WindowIo := {}
  timedOut : Bool := false

/-- One step of `player_service_reader_task`. -/
def readerStep (io : ReaderIo) : Option State :=
  let r := s.reader
  let info := s.service.trackInfo
  match r.pc with
  | .idle =>
    s.readerCmd.map fun session =>
      { s with readerCmd := none, reader := { r with pc := .received, session := session } }
  | .received => some (s.goto .starting)
  | .starting =>
    some { s with
      cart := s.cart.takeNotification .reader
      deliveries := ⟨r.session, []⟩ :: s.deliveries
      reader := { r with
        pc := if r.session.startChunk ≥ info.lookupTableLen then .trackDone else .loopTop
        chunkIndex := r.session.startChunk
        bufferCheckedOut := false
        rd := none
        rdLen := 0
        windowStart := 0 } }
  | .loopTop =>
    if decide (r.chunkIndex ≥ info.lookupTableLen) || s.readerStops then some (s.goto .trackDone)
    else some (s.goto .resolving)
  | .resolving =>
    let io := { io.window with openOk := io.window.openOk && s.cart.present info.filename }
    let (err, info) := ensureWindow (s.cart.card.content info.filename) io info r.chunkIndex
    some { s with
      service := { s.service with trackInfo := info }
      reader := { r with pc := if err = .ok then .checked else .trackDone } }
  | .checked => (readBounds info r.chunkIndex).bind fun bounds => s.boundedChunk bounds.1 bounds.2
  | .flushing =>
    if io.timedOut && s.readerStops then some (s.goto .trackDone)
    else if s.hasRoom then
      some { s with
        chunkQueue := s.chunkQueue ++ [.releaseBuf]
        reader := { r with pc := .taking, bufferCheckedOut := false } }
    else none
  | .taking =>
    if io.timedOut && s.readerStops then some (s.goto .trackDone)
    else if s.bufPoolSem = 0 then none
    else some { s with
      bufPoolSem := s.bufPoolSem - 1
      reader := { r with pc := .requesting, bufferCheckedOut := true } }
  | .requesting =>
    if s.readerStops then some (s.goto .trackDone)
    else if !s.cart.mounted then some s.readFailed
    else some (s.goto (.copying ((info.dataOffset + r.chunkStart) % 2 ^ 32)))
  | .copying offset => some (s.goto (.sending (s.cart.request info.filename offset)))
  | .sending req =>
    match s.cart.sendRequest .reader req with
    | none => some s.readFailed
    | some cart =>
      some { s with
        cart := cart
        reader := { r with pc := .waiting, request := s.cart.asked, stopSeen := false } }
  | .waiting =>
    if s.cart.mail.notified .reader = 0 then
      if io.timedOut then some { s with reader := { r with stopSeen := r.stopSeen || s.readerStops } }
      else none
    else some { s with
      cart := s.cart.takeNotification .reader
      reader := { r with pc := if r.stopSeen then .trackDone else .resulting } }
  | .resulting =>
    let result := s.cart.mail.slot
    if result.status != .ok || decide (result.len < r.chunkEnd - r.chunkStart) then some s.readFailed
    else some { s with
      reader := { r with
        pc := .queueing
        rd := result.data
        rdLen := result.len
        windowStart := r.chunkStart } }
  | .queueing =>
    if io.timedOut && s.readerStops then some (s.goto .trackDone)
    else match r.rd with
    | none => none
    | some buf =>
      let offset := r.chunkStart - r.windowStart
      let len := r.chunkEnd - r.chunkStart
      if s.hasRoom then
        some { s with
          chunkQueue := s.chunkQueue ++ [.chunk buf offset len r.chunkIndex]
          deliveries := s.delivered (r.chunkIndex, slice (s.cart.readBuf buf) offset len)
          reader := { r with pc := .loopTop, chunkIndex := r.chunkIndex + 1 } }
      else none
  | .trackDone =>
    some { s with
      bufPoolSem := if r.bufferCheckedOut then s.give else s.bufPoolSem
      reader := { r with pc := .sendingEof } }
  | .sendingEof =>
    if io.timedOut && s.readerStops then some (s.goto .closing)
    else if s.hasRoom then
      some { s with chunkQueue := s.chunkQueue ++ [.eof], reader := { r with pc := .closing } }
    else none
  | .closing => some { s with cart := s.cart.closeFile, reader := { r with pc := .idle } }

/-! ## The decoder task -/

/-- The steps of the decoder task. A session ends by the end of the file, a stop,
or a decoder that cannot be opened. -/
inductive DecoderLabel where
  | receive
  | clearBit
  | take (cart : Formats.Jbm.Cartridge) (crcOk : Bool)
  | finish
  | complete

def decoderStep : DecoderLabel → Option State
  | .receive =>
    match s.decoder, s.decoderCmd with
    | .idle, some generation => some { s with decoder := .received generation, decoderCmd := none }
    | _, _ => none
  | .clearBit =>
    match s.decoder with
    | .received generation => some { s with decoder := .running generation }
    | _ => none
  | .take cart crcOk =>
    match s.decoder, s.chunkQueue with
    | .running generation, .eof :: rest =>
      some { s with chunkQueue := rest, decoder := .finishing generation }
    | .running _, .releaseBuf :: rest => some { s with chunkQueue := rest, bufPoolSem := s.give }
    | .running _, .chunk _ _ _ chunkIndex :: rest =>
      some { s with chunkQueue := rest, service := decodeChunk cart chunkIndex crcOk s.service }
    | _, _ => none
  | .finish =>
    match s.decoder with
    | .running generation => some { s with decoder := .finishing generation }
    | _ => none
  | .complete =>
    match s.decoder with
    | .finishing generation => some ({ s with decoder := .idle }.queueMsg (.trackComplete generation))
    | _ => none

end State

/-! ## Runs -/

/-- Any task may queue a command or a cartridge message; completions come from the
decoder only. -/
inductive Action where
  | service (env : Env)
  | timeout
  | post (msg : Msg)
  | setMode (mode : PlaybackMode) (random : Nat → Nat)
  | reader (io : State.ReaderIo)
  | decoder (l : State.DecoderLabel)
  | cart (l : Cart.Label)
  | mount (card : Card)
  | finishMount
  | unmount

/-- One step of the system. -/
def step (s : State) : Action → Option State
  | .service env => s.serviceStep env
  | .timeout => s.timeoutStep
  | .post msg => if Pipeline.Msg.isComplete msg then none else some (s.queueMsg msg)
  | .setMode mode random => some { s with service := setPlaybackMode random mode s.service }
  | .reader io => s.readerStep io
  | .decoder l => s.decoderStep l
  | .cart l => (s.cart.step l).map fun cart => { s with cart := cart }
  | .mount card => (s.cart.mount card).map fun cart => { s with cart := cart }
  | .finishMount => s.cart.finishMount.map fun cart => { s with cart := cart }
  | .unmount => s.cart.unmount.map fun cart => { s with cart := cart }

/-- The tasks were just created, and no cartridge is mounted. -/
def initState (resumeRtc : Option ResumeState) (resumeNvs : Option ResumeBlob) : State where
  service := .init resumeRtc resumeNvs
  pc := .waiting
  cmdQueue := []
  readerCmd := none
  decoderCmd := none
  reader := ⟨.idle, ⟨0, 0, []⟩, 0, 0, 0, false, none, 0, 0, false, 0⟩
  decoder := .idle
  chunkQueue := []
  bufPoolSem := chunkBufCount
  cart := .init
  deliveries := []

/-! ## What the handlers do to the track information -/

/-- The chunk a seek command asks for. -/
def seekTarget (p : Service) : Msg → Option Nat
  | .control .fastForward => some (fastSeekTarget true p)
  | .control .fastBackward => some (fastSeekTarget false p)
  | .seekAbsolute seconds => some (p.clampChunk seconds)
  | _ => none

/-- The message is a seek that moves the position, so that its handler empties the
lookup window. -/
def seekMoves (p : Service) (msg : Msg) : Bool :=
  (seekTarget p msg).any fun target =>
    p.playing && p.trackInfo.lookupTableLen != 0 && target != seekBase p

theorem seekTo_trackInfo (env : Env) (target : Nat) (p : Service) :
    (seekTo env target p).1.trackInfo =
      if target = seekBase p then p.trackInfo else invalidateLookupWindow p.trackInfo := by
  unfold seekTo
  split
  · rfl
  · dsimp only
    split
    · rfl
    · obtain ⟨rtc, nvs, h⟩ := @Service.resumeOnly_cache
        { p with resumeChunk := target, trackInfo := invalidateLookupWindow p.trackInfo } env
      rw [h]

/-- A seek handler, up to its stop. -/
theorem seek_trackInfo (env : Env) (target : Nat) (p : Service) :
    (if !p.playing || p.trackInfo.lookupTableLen == 0 then (p, .done)
      else seekTo env target p : Service × Next).1.trackInfo =
      if p.playing && p.trackInfo.lookupTableLen != 0 && target != seekBase p then
        invalidateLookupWindow p.trackInfo
      else p.trackInfo := by
  cases hplaying : p.playing with
  | false => rfl
  | true =>
    by_cases hlen : p.trackInfo.lookupTableLen = 0
    · simp [hlen]
    · by_cases htarget : target = seekBase p <;> simp [hlen, htarget, seekTo_trackInfo]

/-- **Only a seek that moves the position touches the track information**, of all the
handlers up to their stop. -/
theorem handle_trackInfo (env : Env) (p : Service) (msg : Msg) :
    (handle env p msg).1.trackInfo =
      if seekMoves p msg then invalidateLookupWindow p.trackInfo else p.trackInfo := by
  cases msg with
  | cartridgeInserted | cartridgeRemoved => rfl
  | persistForShutdown =>
    obtain ⟨rtc, nvs, h⟩ := @Service.resumeOnly_persist p env
    rw [handle, h]
    rfl
  | trackComplete generation =>
    rw [handle]
    by_cases hlive : generation = p.activeGeneration ∧ generation ≠ p.cancelledGeneration
    · obtain ⟨rfl, hcancelled⟩ := hlive
      obtain ⟨posted, heq⟩ := StateInvariant.handleTrackComplete_live env hcancelled
      rw [heq]
      split
      · rfl
      · obtain ⟨pos, h⟩ := nextIndex_touches false { p with posted := posted }
        dsimp only
        rw [h]
        rfl
    · rw [StateInvariant.handleTrackComplete_stale env hlive]
      rfl
  | playIndex _ =>
    rw [handle]
    split <;> rfl
  | seekAbsolute seconds => exact seek_trackInfo env (p.clampChunk seconds) p
  | control control =>
    cases control with
    | next =>
      rw [handle, handleControl]
      split
      · rfl
      · obtain ⟨pos, h⟩ := nextIndex_touches true p
        dsimp only
        rw [h]
        rfl
    | previous =>
      rw [handle, handleControl]
      split <;> rfl
    | fastForward => exact seek_trackInfo env (fastSeekTarget true p) p
    | fastBackward => exact seek_trackInfo env (fastSeekTarget false p) p
    | volumeUp | volumeDown =>
      rw [handle, handleControl]
      split <;> rfl
    | pause =>
      rw [handle, handleControl]
      split
      · rfl
      · split <;> rfl

/-- Past the stop a handler keeps the track information or frees it. -/
theorem afterStop_trackInfo (env : Env) (p : Service) (after : AfterStop) :
    (afterStop env p after).1.trackInfo = p.trackInfo ∨
      (afterStop env p after).1.trackInfo = .zero := by
  cases after with
  | start _ | seek => exact .inl rfl
  | removed => exact .inr rfl
  | previous =>
    left
    rw [afterStop]
    split
    · rfl
    · obtain ⟨pos, h⟩ := prevIndex_touches p
      dsimp only
      rw [h]
  | pause track =>
    obtain ⟨rtc, nvs, h⟩ := @Service.resumeOnly_cache { p with paused := true } env
    rw [afterStop, h]
    exact .inl rfl
  | inserted =>
    right
    rw [afterStop, afterInserted]
    dsimp only
    split
    · rfl
    · obtain ⟨playlist, pos, posted, -, hscan⟩ := scanPlaylist_touches env
        { p with trackInfo := .zero, paused := false, playing := false, trackStartedUnix := 0 }
      rw [hscan]
      split
      · rfl
      · generalize hr : Service.mk .. = r
        obtain ⟨rtc, nvs, hload⟩ := @Service.resumeOnly_loadSaved r env
        split
        all_goals
          next heq =>
          rw [heq] at hload
          dsimp only at hload ⊢
          rw [hload, ← hr]

theorem cache_trackInfo (env : Env) (p : Service) :
    (p.cacheCurrentPlaybackStatus env).trackInfo = p.trackInfo := by
  obtain ⟨rtc, nvs, h⟩ := @Service.resumeOnly_cache p env
  rw [h]

theorem beginTrack_trackInfo (env : Env) (index chunk : Nat) (p : Service) :
    (beginTrack env index chunk p).trackInfo = p.trackInfo := by
  unfold beginTrack
  dsimp only
  generalize hr : Service.mk .. = r
  obtain ⟨pos, h⟩ := sync_touches index r
  rw [h, ← hr]

theorem beginPaused_trackInfo (env : Env) (index chunk : Nat) (p : Service) :
    (beginPaused env index chunk p).trackInfo = p.trackInfo := by
  unfold beginPaused
  dsimp only
  generalize hr : Service.mk .. = r
  obtain ⟨pos, h⟩ := sync_touches index r
  rw [h, ← hr]

theorem setPlaybackMode_trackInfo (random : Nat → Nat) (mode : PlaybackMode) (p : Service) :
    (setPlaybackMode random mode p).trackInfo = p.trackInfo := by
  obtain ⟨l, pos, -, h⟩ := setPlaybackMode_touches random mode p
  rw [h]

theorem decodeChunk_trackInfo (cart : Formats.Jbm.Cartridge) (chunk : Nat) (crcOk : Bool)
    (p : Service) : (decodeChunk cart chunk crcOk p).trackInfo = p.trackInfo := by
  obtain ⟨emitted, posted, h⟩ := decodeChunk_touches cart chunk crcOk p
  rw [h]

end Jukeboy.Player.ReadSessions
