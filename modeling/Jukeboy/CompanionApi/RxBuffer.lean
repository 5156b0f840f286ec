import Jukeboy.CompanionApi.Protocol

/-! # The receive buffer of the companion API

`companion_api_handle_rx_chunk` and `companion_api_parse_rx_buffer`, as the
sequence of things they do with the bytes: count an error, answer with an error
frame, or hand a request to its handler. No handler touches the buffer, so the
sequence depends on the bytes alone. -/
namespace Jukeboy.CompanionApi.RxBuffer
open Jukeboy.Base Jukeboy.Base.LittleEndian Jukeboy.CompanionApi.Tlv
open Jukeboy.CompanionApi.Protocol

/-- A request frame as it is handed to `companion_api_handle_request`. -/
structure Request where
  opcode : UInt16
  requestId : UInt32
  payload : Bytes
deriving DecidableEq, Repr

/-- What the receive path does, in order. -/
inductive RxEvent where
  /-- The chunk does not fit: the buffer is dropped, an error counted and sent. -/
  | overflow
  /-- A byte that starts no frame is skipped and counted as an error. -/
  | resync
  | sendError (opcode : UInt16) (requestId : UInt32) (error : ApiError)
  | request (r : Request)
deriving DecidableEq, Repr

/-- What one turn of the parse loop does at the current offset. -/
inductive ParseStep where
  | wait
  | advance (event : RxEvent) (rest : Bytes)
deriving DecidableEq, Repr

/-- One turn of the loop; `buffer` is the part from the current offset on. -/
def parseStep (buffer : Bytes) : ParseStep :=
  if buffer.length < headerLen then
    .wait
  else if buffer.getD 0 0 ≠ magic0 ∨ buffer.getD 1 0 ≠ magic1 then
    .advance .resync (buffer.drop 1)
  else
    let opcode := readU16 (buffer.drop 4)
    let requestId := readU32 (buffer.drop 6)
    let payloadLen := (readU16 (buffer.drop 10)).toNat
    let frameLen := headerLen + payloadLen
    if buffer.getD 2 0 ≠ apiVersion then
      .advance (.sendError opcode requestId .unsupportedVersion) (buffer.drop headerLen)
    else if frameLen > frameMaxLen then
      .advance (.sendError opcode requestId .badFrame) (buffer.drop headerLen)
    else if buffer.length < frameLen then
      .wait
    else if buffer.getD 3 0 ≠ FrameType.request.code then
      .advance (.sendError opcode requestId .badFrame) (buffer.drop frameLen)
    else
      .advance (.request ⟨opcode, requestId, (buffer.drop headerLen).take payloadLen⟩)
        (buffer.drop frameLen)

/-- The parse loop; every turn that goes on consumes a byte, so the buffer's
length bounds the turns. Returns what it did and the bytes it leaves. -/
def parseFrom : Nat → Bytes → List RxEvent × Bytes
  | 0, buffer => ([], buffer)
  | fuel + 1, buffer =>
    match parseStep buffer with
    | .wait => ([], buffer)
    | .advance event rest =>
      let (events, left) := parseFrom fuel rest
      (event :: events, left)

/-- `companion_api_parse_rx_buffer`. -/
def parseRxBuffer (buffer : Bytes) : List RxEvent × Bytes := parseFrom buffer.length buffer

/-- `companion_api_handle_rx_chunk` on the buffered bytes. -/
def handleRxChunk (buffer data : Bytes) : List RxEvent × Bytes :=
  if data.length = 0 then
    ([], buffer)
  else if data.length > frameMaxLen - buffer.length then
    ([.overflow], [])
  else
    parseRxBuffer (buffer ++ data)

/-- The chunks fed one by one. -/
def feedChunks : Bytes → List Bytes → List RxEvent × Bytes
  | buffer, [] => ([], buffer)
  | buffer, chunk :: chunks =>
    let (events, buffer') := handleRxChunk buffer chunk
    let (rest, left) := feedChunks buffer' chunks
    (events ++ rest, left)

end Jukeboy.CompanionApi.RxBuffer
