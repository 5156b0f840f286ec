import Jukeboy.Base.Framing
import Jukeboy.CompanionApi.Chunking

/-! # The companion client

`CompanionBleClient` of `tools/companion.py`: the notifications it puts together again,
the requests that wait for an answer, and the queue of the frames nobody waits for. -/
namespace Jukeboy.CompanionApi.BleClient

open Jukeboy.Base Jukeboy.Base.Framing Jukeboy.Base.LittleEndian
open Jukeboy.CompanionApi.Tlv Jukeboy.CompanionApi.Protocol

/-! ## Frames -/

/-- `Tlv` of the client: any type code. -/
abbrev RawTlv := UInt16 × Bytes

/-- `Frame` of the client. -/
structure ClientFrame where
  frameType : FrameType
  opcode : UInt16
  requestId : UInt32
  payload : Bytes
  tlvs : Option (List RawTlv)
deriving DecidableEq, Repr

/-- The `FrameType` with this code; there is a `ValueError` for any other. -/
def frameTypeOf (code : UInt8) : Option FrameType :=
  [.request, .response, .event, .heartbeat, .error].find? (·.code == code)

/-- The loop of `parse_tlvs`; every turn consumes a TLV header. -/
def parseTlvsFrom : Nat → Bytes → Option (List RawTlv)
  | 0, payload => if payload.length = 0 then some [] else none
  | fuel + 1, payload =>
    if payload.length < tlvHeaderLen then
      if payload.length = 0 then some [] else none
    else
      let tlvLen := (readU16 (payload.drop 2)).toNat
      let rest := payload.drop tlvHeaderLen
      if rest.length < tlvLen then none
      else (parseTlvsFrom fuel (rest.drop tlvLen)).map ((readU16 payload, rest.take tlvLen) :: ·)

/-- `parse_tlvs`. -/
def parseTlvs (payload : Bytes) : Option (List RawTlv) := parseTlvsFrom payload.length payload

/-- `tlv_first`. -/
def tlvFirst (tlvs : List RawTlv) (type : TlvType) : Option Bytes :=
  (tlvs.find? (·.1 == type.code)).map (·.2)

/-- `CompanionBleClient._decode_frame`. -/
def decodeFrame (raw : Bytes) : Option ClientFrame :=
  let opcode := readU16 (raw.drop 4)
  let payload := (raw.drop headerLen).take (readU16 (raw.drop 10)).toNat
  (frameTypeOf (raw.getD 3 0)).map fun frameType =>
    { frameType, opcode, requestId := readU32 (raw.drop 6), payload
      tlvs := if frameType ≠ .response ∨ opcode ≠ Opcode.ping.code then parseTlvs payload
        else none }

/-! ## Requests -/

/-- How a request ends. -/
inductive Answer where
  | result (frame : ClientFrame)
  | error (opcode : UInt16) (requestId : UInt32) (code : Int) (message : Bytes)
  | disconnected
  | timedOut
deriving DecidableEq, Repr

/-- `_pending`, each id with whether its future is done; `_next_request_id`;
`_event_queue`; and how the requests ended, in order. -/
structure Requests where
  pending : List (Nat × Bool)
  nextRequestId : Nat
  eventQueue : List ClientFrame
  answers : List (Nat × Answer)
deriving DecidableEq, Repr

namespace Requests

variable (r : Requests)

/-- `request`, up to the write: an id that is no `uint32_t` fails to be packed. -/
def request : Requests :=
  let id := r.nextRequestId
  { r with
    nextRequestId := id + 1
    pending := if id < 2 ^ 32 then r.pending ++ [(id, false)] else r.pending }

/-- The future with this id, if it is not done yet. -/
def waits (id : Nat) : Bool := (id, false) ∈ r.pending

/-- `_pending.pop`. -/
def pop (id : Nat) : Requests := { r with pending := r.pending.filter (·.1 ≠ id) }

def finish (id : Nat) (answer : Answer) : Requests :=
  if r.waits id then { r with answers := r.answers ++ [(id, answer)] } else r

/-- `asyncio.wait_for` gives up. The id stays in `_pending`. -/
def timeout (id : Nat) : Requests :=
  { r.finish id .timedOut with
    pending := r.pending.map fun p => if p.1 = id then (id, true) else p }

/-- `_fail_pending`. -/
def failPending : Requests :=
  { r with
    pending := []
    answers := r.answers ++
      (r.pending.filter (!·.2)).map fun p => (p.1, .disconnected) }

/-- What an error frame says, or `none` for the `ValueError` of `tlv_value_u16`. -/
def errorAnswer (frame : ClientFrame) : Option Answer :=
  let tlvs := frame.tlvs.getD []
  let message := (tlvFirst tlvs .errorMessage).getD (ascii "error")
  match tlvFirst tlvs .errorCode with
  | none => some (.error frame.opcode frame.requestId (-1) message)
  | some code =>
    if code.length = 2 then
      some (.error frame.opcode frame.requestId (readU16 code).toNat message)
    else none

/-- The part of `_process_notification` behind `_decode_frame`: what it does with the
frame, and whether it goes on. -/
def dispatch (frame : ClientFrame) : Requests × Bool :=
  let id := frame.requestId.toNat
  if (frame.frameType = .response ∨ frame.frameType = .error) ∧ id ∈ r.pending.map (·.1) then
    if ¬ r.waits id then (r.pop id, true)
    else if frame.frameType = .error then
      match errorAnswer frame with
      | none => (r.pop id, false)
      | some answer => ((r.finish id answer).pop id, true)
    else ((r.finish id (.result frame)).pop id, true)
  else ({ r with eventQueue := r.eventQueue ++ [frame] }, true)

/-! What a frame is for. -/

/-- What a response or an error says to the request it answers. -/
def answerOf (frame : ClientFrame) : Answer :=
  if frame.frameType = .error then
    let tlvs := frame.tlvs.getD []
    .error frame.opcode frame.requestId
      (((tlvFirst tlvs .errorCode).map fun code => Int.ofNat (readU16 code).toNat).getD (-1))
      ((tlvFirst tlvs .errorMessage).getD (ascii "error"))
  else .result frame

/-- A response or an error ends the pending request with its id, if that still waits;
every other frame goes to the event queue. -/
def receive (frame : ClientFrame) : Requests :=
  let id := frame.requestId.toNat
  if (frame.frameType = .response ∨ frame.frameType = .error) ∧ id ∈ r.pending.map (·.1) then
    (r.finish id (answerOf frame)).pop id
  else { r with eventQueue := r.eventQueue ++ [frame] }

variable {r} {frame : ClientFrame}

theorem errorAnswer_eq (htype : frame.frameType = .error)
    (h : (errorAnswer frame).isSome = true) : errorAnswer frame = some (answerOf frame) := by
  rw [answerOf, if_pos htype]
  unfold errorAnswer at h ⊢
  dsimp only at h ⊢
  cases hcode : tlvFirst (frame.tlvs.getD []) .errorCode with
  | none => rfl
  | some code =>
    rw [hcode] at h
    dsimp only at h ⊢
    by_cases hlen : code.length = 2
    · rw [if_pos hlen]
      rfl
    · rw [if_neg hlen] at h
      cases h

theorem dispatch_eq (h : frame.frameType = .error → (errorAnswer frame).isSome = true) :
    r.dispatch frame = (r.receive frame, true) := by
  unfold dispatch receive
  dsimp only
  split
  · by_cases hwaits : r.waits frame.requestId.toNat = true
    · rw [if_neg (not_not.mpr hwaits)]
      by_cases htype : frame.frameType = .error
      · rw [if_pos htype, errorAnswer_eq htype (h htype)]
      · rw [if_neg htype, answerOf, if_neg htype]
    · rw [if_pos hwaits, finish, if_neg hwaits]
  · rfl

end Requests

/-! ## Notifications -/

/-- The client, with the frames it ever took out of its buffer. -/
structure Client where
  rxBuffer : Bytes
  requests : Requests
  taken : List Bytes
deriving DecidableEq, Repr

def init : Client where
  rxBuffer := []
  requests := { pending := [], nextRequestId := 1, eventQueue := [], answers := [] }
  taken := []

/-- One turn of the loop of `_process_notification`. -/
def findFrame (buffer : Bytes) : Found UInt8 :=
  if buffer.length < headerLen then .wait
  else if buffer.take 2 ≠ [magic0, magic1] then .skip (buffer.drop 1)
  else if buffer.getD 2 0 ≠ apiVersion then .skip (buffer.drop headerLen)
  else
    let frameLen := headerLen + (readU16 (buffer.drop 10)).toNat
    if frameLen > frameMaxLen then .skip (buffer.drop headerLen)
    else if buffer.length < frameLen then .wait
    else .frame (buffer.take frameLen) (buffer.drop frameLen)

/-- A frame is taken out of the buffer; whether the loop goes on. -/
def Client.take (c : Client) (raw : Bytes) : Client × Bool :=
  let c := { c with taken := c.taken ++ [raw] }
  match decodeFrame raw with
  | none => (c, false)
  | some frame =>
    let (requests, goesOn) := c.requests.dispatch frame
    ({ c with requests }, goesOn)

/-- The loop of `_process_notification`; every turn that goes on shortens the buffer. An
exception leaves it with the rest of the buffer unread. -/
def Client.processFrom : Nat → Client → Client
  | 0, c => c
  | fuel + 1, c =>
    match findFrame c.rxBuffer with
    | .wait => c
    | .skip rest => processFrom fuel { c with rxBuffer := rest }
    | .frame raw rest =>
      let (c, goesOn) := { c with rxBuffer := rest }.take raw
      if goesOn then processFrom fuel c else c

/-- `CompanionBleClient._process_notification`. -/
def Client.processNotification (c : Client) (data : Bytes) : Client :=
  let rxBuffer := c.rxBuffer ++ data
  { c with rxBuffer }.processFrom rxBuffer.length

/-! ## Frames on the wire -/

/-- A frame as the device sends it. -/
structure WireFrame where
  type : FrameType
  opcode : UInt16
  requestId : UInt32
  payload : Bytes
deriving DecidableEq, Repr

namespace WireFrame

variable (f : WireFrame)

/-- The 12 bytes before the payload. -/
def header : Bytes :=
  [magic0, magic1, apiVersion, f.type.code] ++ (u16Bytes f.opcode ++
    (u32Bytes f.requestId ++ leBytes 2 f.payload.length))

def encode : Bytes := f.header ++ f.payload

/-- The frame as the client sees it. -/
def decoded : ClientFrame where
  frameType := f.type
  opcode := f.opcode
  requestId := f.requestId
  payload := f.payload
  tlvs := if f.type ≠ .response ∨ f.opcode ≠ Opcode.ping.code then parseTlvs f.payload else none

/-- The frame has at most 2048 bytes. -/
def Short : Prop := headerLen + f.payload.length ≤ frameMaxLen

instance : Decidable f.Short := inferInstanceAs (Decidable (_ ≤ _))

/-- The frame is short enough, and the code of an error has two bytes. -/
def WellFormed : Prop :=
  f.Short ∧ (f.type = .error → (Requests.errorAnswer f.decoded).isSome = true)

instance : Decidable f.WellFormed := inferInstanceAs (Decidable (_ ∧ _))

theorem encode_eq_encodeFrame :
    f.encode = encodeFrame f.type.code f.opcode f.requestId f.payload := by
  simp [encode, header, encodeFrame]

theorem length_header : f.header.length = headerLen := by
  simp [header, headerLen]

theorem length_encode : f.encode.length = headerLen + f.payload.length := by
  rw [encode, List.length_append, length_header]

variable {f}

theorem drop_header (rest : Bytes) :
    (f.header ++ rest).drop 4 = u16Bytes f.opcode ++
        (u32Bytes f.requestId ++ (leBytes 2 f.payload.length ++ rest)) ∧
      (f.header ++ rest).drop 6 = u32Bytes f.requestId ++ (leBytes 2 f.payload.length ++ rest) ∧
      (f.header ++ rest).drop 10 = leBytes 2 f.payload.length ++ rest ∧
      (f.header ++ rest).drop headerLen = rest := by
  have hdrop4 : (f.header ++ rest).drop 4 = u16Bytes f.opcode ++
      (u32Bytes f.requestId ++ (leBytes 2 f.payload.length ++ rest)) := by
    simp [header]
  have hdrop6 : (f.header ++ rest).drop 6 =
      u32Bytes f.requestId ++ (leBytes 2 f.payload.length ++ rest) := by
    rw [show 6 = 4 + 2 from rfl, ← List.drop_drop, hdrop4,
      List.drop_left' (length_u16Bytes _)]
  have hdrop10 : (f.header ++ rest).drop 10 = leBytes 2 f.payload.length ++ rest := by
    rw [show 10 = 6 + 4 from rfl, ← List.drop_drop, hdrop6,
      List.drop_left' (length_u32Bytes _)]
  exact ⟨hdrop4, hdrop6, hdrop10, List.drop_left' (length_header f)⟩

theorem payloadLen_header (h : f.Short) (rest : Bytes) :
    (readU16 ((f.header ++ rest).drop 10)).toNat = f.payload.length := by
  unfold Short frameMaxLen at h
  rw [(drop_header rest).2.2.1]
  exact Chunking.toNat_readU16_leBytes rest (by omega)

/-- Behind the header of a well-formed frame the client waits for the payload and then
takes the frame. -/
theorem findFrame_header (h : f.Short) (rest : Bytes) :
    findFrame (f.header ++ rest) =
      if rest.length < f.payload.length then .wait
      else .frame (f.header ++ rest.take f.payload.length) (rest.drop f.payload.length) := by
  have hlen := length_header f
  have hmagic : ¬ (f.header ++ rest).take 2 ≠ [magic0, magic1] := by simp [header]
  have hversion : ¬ (f.header ++ rest).getD 2 0 ≠ apiVersion := by simp [header]
  have htotal : (f.header ++ rest).length = headerLen + rest.length := by
    rw [List.length_append, hlen]
  have htake : (f.header ++ rest).take (headerLen + f.payload.length) =
      f.header ++ rest.take f.payload.length := by
    rw [← hlen, List.take_length_add_append]
  have hdrop : (f.header ++ rest).drop (headerLen + f.payload.length) =
      rest.drop f.payload.length := by
    rw [← List.drop_drop, (drop_header rest).2.2.2]
  simp only [findFrame, payloadLen_header h, htotal, htake, hdrop]
  unfold Short at h
  rw [if_neg (by omega), if_neg hmagic, if_neg hversion, if_neg (by omega)]
  by_cases hrest : rest.length < f.payload.length
  · rw [if_pos hrest, if_pos (by omega)]
  · rw [if_neg hrest, if_neg (by omega)]

theorem findFrame_noise (rest : Bytes) (hhead : ∀ b ∈ rest.head?, b = magic0) :
    findFrame (magic0 :: rest) = if rest.length < 11 then .wait else .skip rest := by
  unfold findFrame
  by_cases hshort : rest.length < 11
  · rw [if_pos hshort, if_pos (by rw [List.length_cons, headerLen]; omega)]
  · have hnot : (magic0 :: rest).take 2 ≠ [magic0, magic1] := by
      cases rest with
      | nil => exact fun h => by simp at h
      | cons b rest =>
        rw [hhead b rfl]
        exact fun h => by simp [magic0, magic1] at h
    rw [if_neg hshort, if_neg (by rw [List.length_cons, headerLen]; omega), if_pos hnot]
    rfl

/-- The client's loop reads frames that are short enough. -/
theorem reads : Reads findFrame encode Short magic0 11 where
  nil := rfl
  frame f h rest := by
    rw [encode, List.append_assoc, findFrame_header h, if_neg (by rw [List.length_append]; omega),
      List.take_left, List.drop_left]
  wait f h p t more hp hlt := by
    by_cases hshort : p.length < headerLen
    · rw [findFrame, if_pos hshort]
    · have htake : p.take headerLen = f.header := by
        have hboth := congrArg (List.take headerLen) hp
        rwa [List.take_append_of_le_length (by omega), encode, List.append_assoc,
          List.take_left' (length_header f)] at hboth
      have hsplit : p = f.header ++ p.drop headerLen := by
        rw [← htake, List.take_append_drop]
      rw [length_encode] at hlt
      rw [hsplit, findFrame_header h, if_pos (by rw [List.length_drop]; omega)]
  first f _ := rfl
  long f _ := by
    rw [length_encode, headerLen]
    omega
  noise := findFrame_noise

theorem frameTypeOf_code (type : FrameType) : frameTypeOf type.code = some type := by
  cases type <;> rfl

theorem decodeFrame_encode (h : f.WellFormed) : decodeFrame f.encode = some f.decoded := by
  obtain ⟨hdrop4, hdrop6, -, hdrop⟩ := drop_header (f := f) f.payload
  have hlen := payloadLen_header h.1 f.payload
  have htype : (f.header ++ f.payload).getD 3 0 = f.type.code := rfl
  simp only [decodeFrame, encode, htype, frameTypeOf_code, hdrop4, hdrop6, hdrop, hlen,
    Chunking.readU16_u16Bytes, Chunking.readU32_u32Bytes, List.take_length, Option.map_some]
  rfl

end WireFrame

/-! ## What the loop does with frames -/

/-- The client after some whole frames. -/
def Client.receiveAll (c : Client) (frames : List WireFrame) (rxBuffer : Bytes) : Client where
  rxBuffer
  requests := frames.foldl (fun r f => r.receive f.decoded) c.requests
  taken := c.taken ++ frames.map WireFrame.encode

theorem take_encode {c : Client} {f : WireFrame} (h : f.WellFormed) :
    c.take f.encode = (c.receiveAll [f] c.rxBuffer, true) := by
  unfold Client.take
  rw [WireFrame.decodeFrame_encode h]
  dsimp only
  rw [Requests.dispatch_eq h.2]
  rfl

theorem receiveAll_nil (c : Client) : c.receiveAll [] c.rxBuffer = c := by
  rw [Client.receiveAll, List.map_nil, List.append_nil]
  rfl

theorem receiveAll_append (c : Client) (frames more : List WireFrame) (buffer rxBuffer : Bytes) :
    (c.receiveAll frames buffer).receiveAll more rxBuffer =
      c.receiveAll (frames ++ more) rxBuffer := by
  simp [Client.receiveAll]

/-- The loop hands on what a reader of frames takes. -/
theorem processFrom_eq {fuel : Nat} {c : Client} {frames : List WireFrame} {left : Bytes}
    (hwf : ∀ f ∈ frames, f.WellFormed)
    (hread : Framing.read findFrame fuel c.rxBuffer = (frames.map WireFrame.encode, left)) :
    c.processFrom fuel = c.receiveAll frames left := by
  induction fuel generalizing c frames with
  | zero =>
    obtain ⟨hnil, rfl⟩ := Prod.mk.inj hread
    rw [List.map_eq_nil_iff.mp hnil.symm, receiveAll_nil]
    rfl
  | succ fuel ih =>
    rw [Framing.read] at hread
    rw [Client.processFrom]
    cases hfind : findFrame c.rxBuffer with
    | wait =>
      rw [hfind] at hread
      obtain ⟨hnil, rfl⟩ := Prod.mk.inj hread
      rw [List.map_eq_nil_iff.mp hnil.symm, receiveAll_nil]
    | skip rest =>
      rw [hfind] at hread
      exact ih (c := { c with rxBuffer := rest }) hwf hread
    | frame raw rest =>
      rw [hfind] at hread
      obtain ⟨hraws, hleft⟩ := Prod.mk.inj hread
      cases frames with
      | nil => cases hraws
      | cons f frames =>
        obtain ⟨rfl, hrest⟩ := List.cons.inj hraws
        have hnext : Framing.read findFrame fuel rest = (frames.map WireFrame.encode, left) := by
          rw [← hrest, ← hleft]
        dsimp only
        rw [take_encode (hwf f List.mem_cons_self), if_pos rfl,
          ih (fun g hg => hwf g (List.mem_cons_of_mem f hg)) hnext, receiveAll_append]
        rfl

theorem take_taken (c : Client) (raw : Bytes) :
    (c.take raw).1.taken = c.taken ++ [raw] ∧ (c.take raw).1.rxBuffer = c.rxBuffer := by
  unfold Client.take
  dsimp only
  cases decodeFrame raw with
  | none => exact ⟨rfl, rfl⟩
  | some frame => exact ⟨rfl, rfl⟩

/-- One frame that a reader takes is taken out of the buffer, whatever it says. -/
theorem processFrom_taken {fuel : Nat} {c : Client} {raw left : Bytes}
    (hread : Framing.read findFrame fuel c.rxBuffer = ([raw], left)) :
    (c.processFrom fuel).taken = c.taken ++ [raw] := by
  induction fuel generalizing c with
  | zero => cases hread
  | succ fuel ih =>
    rw [Framing.read] at hread
    rw [Client.processFrom]
    cases hfind : findFrame c.rxBuffer with
    | wait =>
      rw [hfind] at hread
      cases hread
    | skip rest =>
      rw [hfind] at hread
      exact ih (c := { c with rxBuffer := rest }) hread
    | frame first rest =>
      rw [hfind] at hread
      obtain ⟨hraws, hleft⟩ := Prod.mk.inj hread
      obtain ⟨rfl, hrest⟩ := List.cons.inj hraws
      obtain ⟨htaken, hbuffer⟩ := take_taken { c with rxBuffer := rest } first
      dsimp only
      split
      · have hnone : Framing.read findFrame fuel
            ({ c with rxBuffer := rest }.take first).1.rxBuffer =
            (([] : List WireFrame).map WireFrame.encode, left) := by
          rw [hbuffer, List.map_nil, ← hrest, ← hleft]
        rw [processFrom_eq (List.forall_mem_nil _) hnone, Client.receiveAll, List.map_nil, List.append_nil]
        exact htaken
      · exact htaken

/-- A notification that goes on with the stream. -/
theorem processNotification_eq {c : Client} {frames : List WireFrame} {n : Nat}
    {left data t : Bytes} (hwf : ∀ f ∈ frames, f.WellFormed)
    (hbuffer : c.rxBuffer = List.replicate n magic0 ++ left)
    (h : left ++ data ++ t = stream WireFrame.encode frames) :
    ∃ n' done rest left', frames = done ++ rest ∧
      left ++ data = stream WireFrame.encode done ++ left' ∧
      left' ++ t = stream WireFrame.encode rest ∧ Partial WireFrame.encode rest left' ∧
      c.processNotification data = c.receiveAll done (List.replicate n' magic0 ++ left') := by
  have hlen : n + (left ++ data).length ≤ (c.rxBuffer ++ data).length := by
    rw [hbuffer]
    simp
  obtain ⟨n', done, rest, left', rfl, hb, hleft, hpart, hread⟩ :=
    read_next WireFrame.reads (fun f hf => (hwf f hf).1) h n hlen
  refine ⟨n', done, rest, left', rfl, hb, hleft, hpart, ?_⟩
  rw [← List.append_assoc, ← hbuffer] at hread
  exact processFrom_eq (c := { c with rxBuffer := c.rxBuffer ++ data })
    (fun f hf => hwf f (List.mem_append_left rest hf)) hread

end Jukeboy.CompanionApi.BleClient
