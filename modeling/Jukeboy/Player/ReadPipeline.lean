import Jukeboy.Base.Runs

/-! # The read pipeline of one generation

The reader task walks the chunks of a track. It takes a token of the buffer pool
for each read, asks the cartridge reader task for the read, and queues a message
for each chunk that lies in the bytes read; a flush message tells the decoder to
give the token back once the messages before it are decoded. The cartridge
reader task alternates between two buffers. The semaphore, the depth-two queue
and the buffer index are the only ties between the three tasks. -/
namespace Jukeboy.Player.ReadPipeline

/-- `PLAYER_SVC_CHUNK_BUF_COUNT`: the tokens of `s_buf_pool_sem` and the depth of
`s_chunk_queue`. -/
def chunkBufCount : Nat := 2

/-- `PLAYER_SVC_CHUNK_MAX_BYTES`. -/
def chunkMaxBytes : Nat := 24 * 1024

/-- `PLAYER_SVC_CHUNK_CRC_BYTES`. -/
def chunkCrcBytes : Nat := 4

/-! ## The tasks -/

/-- A chunk message: the read buffer and the offset its data points to. `window`
is the number of the read in the session, which the code does not store. -/
structure Chunk where
  window : Nat
  buf : Bool
  offset : Nat
  len : Nat
  chunkIndex : Nat
deriving DecidableEq, Repr

/-- `player_service_chunk_msg_t`: a chunk, `release_buf`, or `is_eof`. -/
inductive ChunkMsg where
  | chunk (c : Chunk)
  | releaseBuf (window : Nat)
  | eof
deriving DecidableEq, Repr

/-- Where the reader is in its loop over the chunks: at its head, sending the
flush of the window before, taking a token, asking for the read, waiting for the
notification, looking at the result, sending the chunk; then at `track_done`,
sending the EOF, and done. -/
inductive ReaderPc where
  | loop
  | flushing
  | taking
  | requesting
  | waiting
  | resulting
  | queueing
  | trackDone
  | sendingEof
  | ended
deriving DecidableEq, Repr

/-- The reader's variables; `rd` is the buffer the last read went to. -/
structure Reader where
  pc : ReaderPc
  chunkIndex : Nat
  chunkStart : Nat
  chunkEnd : Nat
  bufferCheckedOut : Bool
  rd : Option Bool
  rdLen : Nat
  windowStart : Nat
deriving DecidableEq, Repr

/-- Where the cartridge reader task is; `filling` is its `fread`. -/
inductive CartPc where
  | idle
  | received
  | filling (buf : Bool)
deriving DecidableEq, Repr

/-- `s_result_data`, `s_result_len` and whether `s_result_status` is `ESP_OK`. -/
structure ReadResult where
  data : Option Bool
  len : Nat
  ok : Bool
deriving DecidableEq, Repr

/-- Where the decoder is: opening Opus, at its receive, past the receive of a
flush or a chunk, or past its session. -/
inductive DecoderPc where
  | opening
  | receiving
  | releasing (window : Nat)
  | decoding (c : Chunk)
  | ended (byEof : Bool)
deriving DecidableEq, Repr

/-- `lookupTableLen` is that of the track. `taken` counts the tokens taken so
far, one for each window; `released` and `returned` list the windows whose token
the decoder and the reader gave back. -/
structure State where
  lookupTableLen : Nat
  reader : Reader
  readQueue : Bool
  cart : CartPc
  bufIndex : Bool
  result : ReadResult
  notified : Bool
  chunkQueue : List ChunkMsg
  bufPoolSem : Nat
  decoder : DecoderPc
  shouldStop : Bool
  taken : Nat
  released : List Nat
  returned : List Nat
deriving DecidableEq, Repr

namespace State

variable (s : State)

/-- The reader goes on at `pc`. -/
def goto (pc : ReaderPc) : State := { s with reader := { s.reader with pc := pc } }

/-- `xSemaphoreGive(s_buf_pool_sem)`: at its limit the semaphore stays as it is. -/
def give : Nat := if s.bufPoolSem < chunkBufCount then s.bufPoolSem + 1 else s.bufPoolSem

/-- The number of the window the reader works on. -/
def window : Nat := s.taken - 1

/-- The reader gives the token of its window back. -/
def readerGives : State :=
  { s with
    bufPoolSem := s.give
    returned := s.returned ++ [s.window]
    reader := { s.reader with bufferCheckedOut := false } }

/-- `player_service_queue_chunk_message` when the queue has room. -/
def queueChunk (msg : ChunkMsg) : Option State :=
  if s.chunkQueue.length < chunkBufCount then
    some { s with chunkQueue := s.chunkQueue ++ [msg] }
  else none

end State

/-! ## The reader task -/

/-- What the reader's calls answer: the bounds of the chunk at hand, whether the
read could be requested, and whether a send, a take or a wait has timed out and
then sees the stop. -/
structure ReaderIo where
  bounds : Option (Nat × Nat)
  requestOk : Bool
  timedOut : Bool

/-- Past `player_service_get_chunk_bounds`: the chunk is skipped, lies in the
bytes read, or needs a new read. -/
def boundedChunk (s : State) (chunkStart chunkEnd : Nat) : Option State :=
  if !(decide (chunkStart ≤ chunkEnd) && decide (chunkEnd - chunkStart ≤ chunkMaxBytes)) then none
  else if chunkEnd - chunkStart ≤ chunkCrcBytes then
    some { s with reader := { s.reader with chunkIndex := s.reader.chunkIndex + 1 } }
  else
    let r := { s.reader with chunkStart := chunkStart, chunkEnd := chunkEnd }
    let fits := r.rd.isSome && decide (chunkStart ≥ r.windowStart) &&
      decide (chunkEnd ≤ r.windowStart + r.rdLen)
    some { s with
      reader := { r with
        pc := if fits then .queueing else if r.rd.isSome then .flushing else .taking } }

/-- One step of `player_service_reader_task` in its session; a stop is seen where
the code looks for it. -/
def readerStep (io : ReaderIo) (s : State) : Option State :=
  match s.reader.pc with
  | .loop =>
    if s.reader.chunkIndex ≥ s.lookupTableLen then some (s.goto .trackDone)
    else if s.shouldStop then some (s.goto .trackDone)
    else match io.bounds with
    | none => some (s.goto .trackDone)
    | some (chunkStart, chunkEnd) => boundedChunk s chunkStart chunkEnd
  | .flushing =>
    if io.timedOut && s.shouldStop then some (s.goto .trackDone)
    else (s.queueChunk (.releaseBuf s.window)).map fun s =>
      { s with reader := { s.reader with pc := .taking, bufferCheckedOut := false } }
  | .taking =>
    if io.timedOut && s.shouldStop then some (s.goto .trackDone)
    else if s.bufPoolSem = 0 then none
    else some { s with
      bufPoolSem := s.bufPoolSem - 1
      taken := s.taken + 1
      reader := { s.reader with pc := .requesting, bufferCheckedOut := true } }
  | .requesting =>
    if s.shouldStop then some (s.goto .trackDone)
    else if io.requestOk && !s.readQueue then some ({ s with readQueue := true }.goto .waiting)
    else
      let s := s.readerGives
      some { s with reader := { s.reader with pc := .trackDone, rd := none } }
  | .waiting =>
    if !s.notified then none
    else if io.timedOut && s.shouldStop then some ({ s with notified := false }.goto .trackDone)
    else some ({ s with notified := false }.goto .resulting)
  | .resulting =>
    if !s.result.ok || decide (s.result.len < s.reader.chunkEnd - s.reader.chunkStart) then
      let s := s.readerGives
      some { s with reader := { s.reader with pc := .trackDone, rd := none } }
    else some { s with
      reader := { s.reader with
        pc := .queueing
        rd := s.result.data
        rdLen := s.result.len
        windowStart := s.reader.chunkStart } }
  | .queueing =>
    if io.timedOut && s.shouldStop then some (s.goto .trackDone)
    else
      let c : Chunk :=
        { window := s.window
          buf := s.reader.rd.getD false
          offset := s.reader.chunkStart - s.reader.windowStart
          len := s.reader.chunkEnd - s.reader.chunkStart
          chunkIndex := s.reader.chunkIndex }
      (s.queueChunk (.chunk c)).map fun s =>
        { s with reader := { s.reader with pc := .loop, chunkIndex := s.reader.chunkIndex + 1 } }
  | .trackDone =>
    if s.reader.bufferCheckedOut then some (s.readerGives.goto .sendingEof)
    else some (s.goto .sendingEof)
  | .sendingEof =>
    if io.timedOut && s.shouldStop then some (s.goto .ended)
    else (s.queueChunk .eof).map fun s => s.goto .ended
  | .ended => none

/-! ## The cartridge reader task -/

/-- The steps of `cartridge_reader_task`: it takes the request, refuses it (not
mounted, another mount, no such file), seeks in the next buffer's turn, reads. -/
inductive CartLabel where
  | receive
  | refuse
  | seek (ok : Bool)
  | read (bytesRead : Nat)

/-- The result of a read is there and the reader is notified. -/
def cartDone (s : State) (result : ReadResult) : State :=
  { s with cart := .idle, result := result, notified := true }

def cartStep (s : State) : CartLabel → Option State
  | .receive =>
    match s.cart, s.readQueue with
    | .idle, true => some { s with cart := .received, readQueue := false }
    | _, _ => none
  | .refuse =>
    match s.cart with
    | .received => some (cartDone s ⟨none, 0, false⟩)
    | _ => none
  | .seek ok =>
    match s.cart with
    | .received =>
      let buf := s.bufIndex
      let s := { s with bufIndex := !s.bufIndex }
      if ok then some { s with cart := .filling buf } else some (cartDone s ⟨some buf, 0, false⟩)
    | _ => none
  | .read bytesRead =>
    match s.cart with
    | .filling buf => some (cartDone s ⟨some buf, bytesRead, true⟩)
    | _ => none

/-! ## The decoder task -/

/-- The steps of `player_service_decoder_task` in its session. -/
inductive DecoderLabel where
  | opened (ok : Bool)
  | receive
  | release
  | decoded

def decoderStep (s : State) : DecoderLabel → Option State
  | .opened ok =>
    match s.decoder with
    | .opening => some { s with decoder := if ok then .receiving else .ended false }
    | _ => none
  | .receive =>
    match s.decoder with
    | .receiving =>
      if s.shouldStop then some { s with decoder := .ended false }
      else match s.chunkQueue with
      | [] => none
      | .eof :: rest => some { s with chunkQueue := rest, decoder := .ended true }
      | .releaseBuf window :: rest =>
        some { s with chunkQueue := rest, decoder := .releasing window }
      | .chunk c :: rest => some { s with chunkQueue := rest, decoder := .decoding c }
    | _ => none
  | .release =>
    match s.decoder with
    | .releasing window =>
      some { s with
        bufPoolSem := s.give
        released := s.released ++ [window]
        decoder := .receiving }
    | _ => none
  | .decoded =>
    match s.decoder with
    | .decoding _ =>
      -- a stop seen between two packets ends the session
      some { s with decoder := if s.shouldStop then .ended false else .receiving }
    | _ => none

/-! ## Runs -/

/-- A task takes a step, or the service task asks for a stop. -/
inductive Action where
  | reader (io : ReaderIo)
  | cart (l : CartLabel)
  | decoder (l : DecoderLabel)
  | requestStop

def step (s : State) : Action → Option State
  | .reader io => readerStep io s
  | .cart l => cartStep s l
  | .decoder l => decoderStep s l
  | .requestStop => some { s with shouldStop := true }

/-- Both tasks have cleared their idle bit; the pipeline was reset before their
start commands were queued. -/
def initState (lookupTableLen startChunk : Nat) (bufIndex : Bool) (result : ReadResult) : State where
  lookupTableLen := lookupTableLen
  reader :=
    { pc := .loop, chunkIndex := startChunk, chunkStart := 0, chunkEnd := 0
      bufferCheckedOut := false, rd := none, rdLen := 0, windowStart := 0 }
  readQueue := false
  cart := .idle
  bufIndex := bufIndex
  result := result
  notified := false
  chunkQueue := []
  bufPoolSem := chunkBufCount
  decoder := .opening
  shouldStop := false
  taken := 0
  released := []
  returned := []

end Jukeboy.Player.ReadPipeline
