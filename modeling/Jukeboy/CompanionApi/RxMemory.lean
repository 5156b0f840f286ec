import Jukeboy.Base.ByteLayout
import Jukeboy.CompanionApi.Chunking

/-! # The receive parser in its memory

`companion_api_handle_rx_chunk` on `s_rx_buffer` and `s_rx_len` themselves: sizes wrap
around, and a read behind `s_rx_len` or a write behind the buffer is a fault. It has none,
and does what the parser on the buffered bytes does. -/
namespace Jukeboy.CompanionApi.RxMemory

open Jukeboy.Base.LittleEndian Jukeboy.Base.ByteFile Jukeboy.Base.ByteLayout
open Jukeboy.CompanionApi.Tlv Jukeboy.CompanionApi.Protocol Jukeboy.CompanionApi.RxBuffer
open Jukeboy.CompanionApi.Chunking

/-! ## The parser -/

/-- `s_rx_buffer` and `s_rx_len`. -/
structure Memory where
  buffer : Bytes
  len : UInt32
deriving DecidableEq, Repr

namespace Memory

/-- `n` bytes from an address on, when all of them are received ones. -/
def read (m : Memory) (address n : Nat) : Option Bytes :=
  if address + n ≤ m.len.toNat ∧ address + n ≤ m.buffer.length then
    some (slice m.buffer address n)
  else none

def readByte (m : Memory) (address : Nat) : Option UInt8 :=
  (m.read address 1).map fun bytes => bytes.getD 0 0

/-- The buffer with bytes copied to an address, when they lie inside it. -/
def write (m : Memory) (address : Nat) (bytes : Bytes) : Option Bytes :=
  if address + bytes.length ≤ m.buffer.length then some (overwrite m.buffer address bytes)
  else none

/-- The buffered bytes. -/
def bytes (m : Memory) : Bytes := m.buffer.take m.len.toNat

end Memory

/-- What one turn of the parse loop does. -/
inductive Turn where
  | leave
  | next (event : RxEvent) (offset : UInt32)
deriving DecidableEq, Repr

/-- The first check of a turn: the second byte is only read when the first is right. -/
def startsNoFrame (m : Memory) (frame : Nat) : Option Bool := do
  let first ← m.readByte frame
  if first ≠ magic0 then pure true
  else
    let second ← m.readByte (frame + 1)
    pure (decide (second ≠ magic1))

/-- The end of a turn at a frame that is there as a whole. -/
def frameTurn (m : Memory) (offset : UInt32) (opcode : UInt16) (requestId : UInt32)
    (payloadLen : UInt16) : Option Turn := do
  let frame := offset.toNat
  let frameLen : UInt32 := 12 + payloadLen.toUInt32
  let type ← m.readByte (frame + 3)
  if type ≠ FrameType.request.code then
    pure (.next (.sendError opcode requestId .badFrame) (offset + frameLen))
  else
    let payload ← m.read (frame + headerLen) payloadLen.toNat
    pure (.next (.request ⟨opcode, requestId, payload⟩) (offset + frameLen))

/-- A turn at the two magic bytes. -/
def headerTurn (m : Memory) (offset : UInt32) : Option Turn := do
  let frame := offset.toNat
  let version ← m.readByte (frame + 2)
  let opcode ← m.read (frame + 4) 2
  let requestId ← m.read (frame + 6) 4
  if version ≠ apiVersion then
    pure (.next (.sendError (readU16 opcode) (readU32 requestId) .unsupportedVersion) (offset + 12))
  else
    let payloadLen ← m.read (frame + 10) 2
    let frameLen : UInt32 := 12 + (readU16 payloadLen).toUInt32
    if frameLen > 2048 then
      pure (.next (.sendError (readU16 opcode) (readU32 requestId) .badFrame) (offset + 12))
    else if m.len - offset < frameLen then pure .leave
    else frameTurn m offset (readU16 opcode) (readU32 requestId) (readU16 payloadLen)

/-- One turn of the loop of `companion_api_parse_rx_buffer`. -/
def parseTurn (m : Memory) (offset : UInt32) : Option Turn :=
  if m.len - offset < 12 then some .leave
  else do
    let skip ← startsNoFrame m offset.toNat
    if skip then pure (.next .resync (offset + 1))
    else headerTurn m offset

/-- The loop; it fails when it still goes on after so many turns. -/
def parseLoop (m : Memory) : Nat → UInt32 → Option (List RxEvent × UInt32)
  | 0, _ => none
  | turns + 1, offset => do
    match ← parseTurn m offset with
    | .leave => pure ([], offset)
    | .next event offset =>
      let (events, offset) ← parseLoop m turns offset
      pure (event :: events, offset)

/-- `companion_api_parse_rx_buffer`; the loop may take a turn for every byte. -/
def parseRxBuffer (m : Memory) : Option (List RxEvent × Memory) := do
  let (events, offset) ← parseLoop m (m.len.toNat + 1) 0
  if offset > 0 then
    let left ← m.read offset.toNat (m.len - offset).toNat
    let buffer ← m.write 0 left
    pure (events, ⟨buffer, m.len - offset⟩)
  else pure (events, m)

/-- What a chunk holds: as many bytes as a `size_t` can say. -/
abbrev Chunk := { bytes : Bytes // bytes.length < 2 ^ 32 }

/-- `companion_api_handle_rx_chunk`. -/
def handleRxChunk (m : Memory) (data : Chunk) : Option (List RxEvent × Memory) :=
  let len := UInt32.ofNat data.val.length
  if len = 0 then some ([], m)
  else if len > 2048 - m.len then some ([.overflow], { m with len := 0 })
  else do
    let buffer ← m.write m.len.toNat data.val
    parseRxBuffer ⟨buffer, m.len + len⟩

/-! ## Reading -/

variable {m : Memory} {offset : UInt32}

/-- The buffer has its size, and the received bytes lie in it. -/
structure Memory.Valid (m : Memory) : Prop where
  size : m.buffer.length = frameMaxLen
  len_le : m.len.toNat ≤ frameMaxLen

/-- The buffered bytes from an offset on. -/
def Memory.rest (m : Memory) (offset : UInt32) : Bytes := m.bytes.drop offset.toNat

theorem length_bytes (hm : m.Valid) : m.bytes.length = m.len.toNat := by
  rw [Memory.bytes, List.length_take, hm.size, Nat.min_eq_left hm.len_le]

theorem length_rest (hm : m.Valid) : (m.rest offset).length = m.len.toNat - offset.toNat := by
  rw [Memory.rest, List.length_drop, length_bytes hm]

theorem toNat_left (ho : offset ≤ m.len) (hm : m.Valid) :
    (m.len - offset).toNat = (m.rest offset).length := by
  rw [UInt32.toNat_sub_of_le _ _ ho, length_rest hm]

/-- Bytes behind the offset are read when they are there. -/
theorem read_eq (hm : m.Valid) (ho : offset ≤ m.len) {k n : Nat}
    (h : k + n ≤ (m.rest offset).length) :
    m.read (offset.toNat + k) n = some (((m.rest offset).drop k).take n) := by
  have hle := UInt32.le_iff_toNat_le.mp ho
  have hlen := hm.len_le
  rw [length_rest hm] at h
  rw [Memory.read, if_pos ⟨by omega, by rw [hm.size]; omega⟩, Memory.rest, Memory.bytes,
    List.drop_drop, List.drop_take, List.take_take, slice, Nat.min_eq_left (by omega)]

theorem readByte_eq (hm : m.Valid) (ho : offset ≤ m.len) {k : Nat}
    (h : k < (m.rest offset).length) :
    m.readByte (offset.toNat + k) = some ((m.rest offset).getD k 0) := by
  rw [Memory.readByte, read_eq hm ho (n := 1) h, Option.map_some, List.getD_eq_getElem?_getD,
    List.getD_eq_getElem?_getD, List.getElem?_take_of_lt Nat.one_pos, List.getElem?_drop,
    Nat.add_zero]

theorem readU16_take (bytes : Bytes) : readU16 (bytes.take 2) = readU16 bytes := by
  rw [readU16, readU16, List.take_take, Nat.min_self]

theorem readU32_take (bytes : Bytes) : readU32 (bytes.take 4) = readU32 bytes := by
  rw [readU32, readU32, List.take_take, Nat.min_self]

/-! ## One turn -/

/-- What a turn does is what one turn on the bytes does, and it goes on behind the
offset, and not behind the received bytes. -/
def Refines (m : Memory) (offset : UInt32) : Turn → ParseStep → Prop
  | .leave, .wait => True
  | .next event offset', .advance event' rest =>
    event = event' ∧ rest = m.rest offset' ∧ offset < offset' ∧ offset' ≤ m.len
  | _, _ => False

/-- Skipping bytes that are there. -/
theorem refines_next (hm : m.Valid) (ho : offset ≤ m.len) {k : UInt32} (event : RxEvent)
    (hpos : 0 < k.toNat) (h : k.toNat ≤ (m.rest offset).length) :
    Refines m offset (.next event (offset + k)) (.advance event ((m.rest offset).drop k.toNat)) := by
  have hle := UInt32.le_iff_toNat_le.mp ho
  have hlen := hm.len_le
  have hrest : (m.rest offset).length = m.len.toNat - offset.toNat := length_rest hm
  have hsum : (offset + k).toNat = offset.toNat + k.toNat := by
    rw [UInt32.toNat_add]
    unfold frameMaxLen at hlen
    omega
  refine ⟨rfl, ?_, ?_, ?_⟩
  · rw [Memory.rest, Memory.rest, hsum, List.drop_drop]
  · rw [UInt32.lt_iff_toNat_lt, hsum]
    omega
  · rw [UInt32.le_iff_toNat_le, hsum]
    omega

theorem startsNoFrame_eq (hm : m.Valid) (ho : offset ≤ m.len)
    (h : headerLen ≤ (m.rest offset).length) :
    startsNoFrame m offset.toNat = some
      (decide ((m.rest offset).getD 0 0 ≠ magic0 ∨ (m.rest offset).getD 1 0 ≠ magic1)) := by
  unfold headerLen at h
  have hfirst := readByte_eq hm ho (k := 0) (by omega)
  have hsecond := readByte_eq hm ho (k := 1) (by omega)
  rw [Nat.add_zero] at hfirst
  rw [startsNoFrame, hfirst, Option.bind_eq_bind, Option.bind_some]
  by_cases hmagic : (m.rest offset).getD 0 0 = magic0
  · rw [if_neg (not_not.mpr hmagic), hsecond, Option.bind_some]
    refine congrArg some (decide_eq_decide.mpr (or_iff_right ?_).symm)
    exact not_not.mpr hmagic
  · rw [if_pos hmagic]
    exact congrArg some (decide_eq_true (Or.inl hmagic)).symm

theorem toNat_frameLen (payloadLen : UInt16) :
    (12 + payloadLen.toUInt32).toNat = headerLen + payloadLen.toNat := by
  have hlt := payloadLen.toNat_lt
  rw [UInt32.toNat_add, UInt16.toNat_toUInt32]
  unfold headerLen
  change (12 + payloadLen.toNat) % 2 ^ 32 = _
  omega

/-- A frame that is there as a whole. -/
theorem frameTurn_refines (hm : m.Valid) (ho : offset ≤ m.len) (opcode : UInt16)
    (requestId : UInt32) {payloadLen : UInt16}
    (h : headerLen + payloadLen.toNat ≤ (m.rest offset).length) :
    ∃ t, frameTurn m offset opcode requestId payloadLen = some t ∧ Refines m offset t
      (if (m.rest offset).getD 3 0 ≠ FrameType.request.code then
        .advance (.sendError opcode requestId .badFrame)
          ((m.rest offset).drop (headerLen + payloadLen.toNat))
      else
        .advance (.request ⟨opcode, requestId,
            ((m.rest offset).drop headerLen).take payloadLen.toNat⟩)
          ((m.rest offset).drop (headerLen + payloadLen.toNat))) := by
  have hframeLen := toNat_frameLen payloadLen
  have hpos : 0 < (12 + payloadLen.toUInt32).toNat := by
    rw [hframeLen]
    exact Nat.lt_add_right _ (by decide)
  have htype := readByte_eq hm ho (k := 3) (Nat.lt_of_lt_of_le (Nat.lt_add_right _ (by decide)) h)
  have hpayload := read_eq hm ho h
  have hnext := fun event => refines_next hm ho event hpos (hframeLen ▸ h)
  rw [hframeLen] at hnext
  simp only [frameTurn, htype, hpayload, Option.bind_eq_bind, Option.bind_some]
  by_cases hrequest : (m.rest offset).getD 3 0 = FrameType.request.code
  · rw [if_neg (not_not.mpr hrequest), if_neg (not_not.mpr hrequest)]
    exact ⟨_, rfl, hnext _⟩
  · rw [if_pos hrequest, if_pos hrequest]
    exact ⟨_, rfl, hnext _⟩

/-- A header with the two magic bytes. -/
theorem headerTurn_refines (hm : m.Valid) (ho : offset ≤ m.len)
    (h : headerLen ≤ (m.rest offset).length)
    (hmagic : ¬ ((m.rest offset).getD 0 0 ≠ magic0 ∨ (m.rest offset).getD 1 0 ≠ magic1)) :
    ∃ t, headerTurn m offset = some t ∧ Refines m offset t (parseStep (m.rest offset)) := by
  have hlong : 12 ≤ (m.rest offset).length := h
  have hversion := readByte_eq hm ho (k := 2) (by omega)
  have hopcode := read_eq hm ho (k := 4) (n := 2) (by omega)
  have hrequestId := read_eq hm ho (k := 6) (n := 4) (by omega)
  have hpayloadLen := read_eq hm ho (k := 10) (n := 2) (by omega)
  have hskip := fun event => refines_next hm ho (k := 12) event (by decide) h
  rw [show (12 : UInt32).toNat = headerLen from rfl] at hskip
  rw [parseStep, if_neg (Nat.not_lt.mpr h), if_neg hmagic]
  simp only [headerTurn, hversion, hopcode, hrequestId, hpayloadLen, Option.bind_eq_bind,
    Option.bind_some, readU16_take, readU32_take]
  by_cases hsupported : (m.rest offset).getD 2 0 = apiVersion
  · rw [if_neg (not_not.mpr hsupported), if_neg (not_not.mpr hsupported)]
    have hframeLen := toNat_frameLen (readU16 ((m.rest offset).drop 10))
    have htooLong : 12 + (readU16 ((m.rest offset).drop 10)).toUInt32 > 2048 ↔
        headerLen + (readU16 ((m.rest offset).drop 10)).toNat > frameMaxLen := by
      rw [gt_iff_lt, UInt32.lt_iff_toNat_lt, hframeLen]
      rfl
    have hwait : m.len - offset < 12 + (readU16 ((m.rest offset).drop 10)).toUInt32 ↔
        (m.rest offset).length < headerLen + (readU16 ((m.rest offset).drop 10)).toNat := by
      rw [UInt32.lt_iff_toNat_lt, hframeLen, toNat_left ho hm]
    simp only [htooLong, hwait]
    split
    · exact ⟨_, rfl, hskip _⟩
    · split
      · exact ⟨_, rfl, trivial⟩
      · next hwhole => exact frameTurn_refines hm ho _ _ (Nat.not_lt.mp hwhole)
  · rw [if_pos hsupported, if_pos hsupported]
    exact ⟨_, rfl, hskip _⟩

/-- **One turn** has no fault. -/
theorem parseTurn_refines (hm : m.Valid) (ho : offset ≤ m.len) :
    ∃ t, parseTurn m offset = some t ∧ Refines m offset t (parseStep (m.rest offset)) := by
  have hshort : m.len - offset < 12 ↔ (m.rest offset).length < headerLen := by
    rw [UInt32.lt_iff_toNat_lt, toNat_left ho hm]
    rfl
  rw [parseTurn]
  by_cases h : (m.rest offset).length < headerLen
  · rw [if_pos (hshort.mpr h), parseStep, if_pos h]
    exact ⟨_, rfl, trivial⟩
  · rw [if_neg (mt hshort.mp h), startsNoFrame_eq hm ho (Nat.not_lt.mp h), Option.bind_eq_bind,
      Option.bind_some]
    by_cases hmagic : (m.rest offset).getD 0 0 ≠ magic0 ∨ (m.rest offset).getD 1 0 ≠ magic1
    · rw [decide_eq_true hmagic, if_pos rfl, parseStep, if_neg h, if_pos hmagic]
      refine ⟨_, rfl, refines_next hm ho (k := 1) .resync (by decide) ?_⟩
      exact Nat.le_trans (by decide) (Nat.not_lt.mp h)
    · rw [decide_eq_false hmagic, if_neg Bool.false_ne_true]
      exact headerTurn_refines hm ho (Nat.not_lt.mp h) hmagic

/-! ## The loop -/

/-- Every turn consumes a byte, so the loop ends, where a turn on the bytes waits. -/
theorem parseLoop_refines (hm : m.Valid) (ho : offset ≤ m.len) {turns fuel : Nat}
    (hturns : (m.rest offset).length < turns) (hfuel : (m.rest offset).length ≤ fuel) :
    ∃ events left, parseLoop m turns offset = some (events, left) ∧ left ≤ m.len ∧
      parseFrom fuel (m.rest offset) = (events, m.rest left) := by
  induction turns generalizing offset fuel with
  | zero => omega
  | succ turns ih =>
    obtain ⟨t, hturn, hrefines⟩ := parseTurn_refines hm ho
    rw [parseLoop, hturn, Option.bind_eq_bind, Option.bind_some]
    cases hstep : parseStep (m.rest offset) with
    | wait =>
      rw [hstep] at hrefines
      cases t with
      | leave =>
        refine ⟨[], offset, rfl, ho, ?_⟩
        cases fuel with
        | zero => rfl
        | succ fuel => rw [parseFrom, hstep]
      | next event offset' => exact hrefines.elim
    | advance event rest =>
      rw [hstep] at hrefines
      cases t with
      | leave => exact hrefines.elim
      | next event' offset' =>
        obtain ⟨rfl, rfl, hlt, hle⟩ := hrefines
        have hlt := UInt32.lt_iff_toNat_lt.mp hlt
        have hle' := UInt32.le_iff_toNat_le.mp hle
        rw [length_rest hm] at hturns hfuel
        have hshorter : (m.rest offset').length < turns := by
          rw [length_rest hm]
          omega
        obtain ⟨fuel, rfl⟩ : ∃ k, fuel = k + 1 := ⟨fuel - 1, by omega⟩
        have hfuel' : (m.rest offset').length ≤ fuel := by
          rw [length_rest hm]
          omega
        obtain ⟨events, left, hloop, hleft, hparse⟩ := ih hle hshorter hfuel'
        dsimp only
        refine ⟨event' :: events, left, ?_, hleft, ?_⟩
        · rw [hloop]
          rfl
        · rw [parseFrom, hstep]
          simp only [hparse]

/-- The bytes that are left are moved to the front. -/
theorem parseRxBuffer_refines (hm : m.Valid) : ∃ m',
    parseRxBuffer m = some ((RxBuffer.parseRxBuffer m.bytes).1, m') ∧ m'.Valid ∧
      m'.bytes = (RxBuffer.parseRxBuffer m.bytes).2 := by
  have hzero : m.rest 0 = m.bytes := rfl
  have hlen := length_bytes hm
  obtain ⟨events, left, hloop, hleft, hparse⟩ := parseLoop_refines hm (UInt32.zero_le)
    (by rw [hzero, hlen]; exact Nat.lt_succ_self _) (Nat.le_of_eq (congrArg List.length hzero))
  rw [hzero] at hparse
  rw [parseRxBuffer, hloop, Option.bind_eq_bind, Option.bind_some, RxBuffer.parseRxBuffer, hparse]
  dsimp only
  by_cases hpos : left > 0
  · have hread := read_eq hm hleft (k := 0) (n := (m.len - left).toNat)
      (by rw [toNat_left hleft hm, Nat.zero_add])
    rw [Nat.add_zero, List.drop_zero, toNat_left hleft hm, List.take_length] at hread
    have hrest : (m.rest left).length = m.len.toNat - left.toNat := length_rest hm
    have hfits : 0 + (m.rest left).length ≤ m.buffer.length := by
      have := hm.len_le
      rw [hm.size]
      omega
    rw [if_pos hpos, toNat_left hleft hm, hread, Option.bind_eq_bind, Option.bind_some,
      Memory.write, if_pos hfits, Option.bind_some]
    refine ⟨_, rfl, ⟨?_, ?_⟩, ?_⟩
    · rw [length_overwrite hfits]
      exact hm.size
    · rw [toNat_left hleft hm, ← hm.size]
      exact Nat.le_trans (Nat.le_add_left ..) hfits
    · rw [Memory.bytes, toNat_left hleft hm, overwrite_of_le (Nat.zero_le _), List.take_zero,
        List.nil_append, List.take_left]
  · have hnone : left = 0 := UInt32.le_antisymm (UInt32.not_lt.mp hpos) UInt32.zero_le
    rw [if_neg hpos, hnone, hzero]
    exact ⟨m, rfl, hm, rfl⟩

/-- **A chunk** is handled without a fault, as the parser on the buffered bytes does. -/
theorem handleRxChunk_refines (hm : m.Valid) (data : Chunk) : ∃ m',
    handleRxChunk m data = some ((RxBuffer.handleRxChunk m.bytes data.val).1, m') ∧ m'.Valid ∧
      m'.bytes = (RxBuffer.handleRxChunk m.bytes data.val).2 := by
  have hsize : (UInt32.ofNat data.val.length).toNat = data.val.length :=
    UInt32.toNat_ofNat_of_lt' data.property
  have hempty : UInt32.ofNat data.val.length = 0 ↔ data.val.length = 0 := by
    rw [← UInt32.toNat_inj, hsize]
    rfl
  have hlen := hm.len_le
  have hroom : (2048 - m.len).toNat = frameMaxLen - m.bytes.length := by
    rw [UInt32.toNat_sub_of_le _ _ (UInt32.le_iff_toNat_le.mpr hlen), length_bytes hm]
    rfl
  have hfull : UInt32.ofNat data.val.length > 2048 - m.len ↔
      data.val.length > frameMaxLen - m.bytes.length := by
    rw [gt_iff_lt, UInt32.lt_iff_toNat_lt, hsize, hroom]
  rw [handleRxChunk, RxBuffer.handleRxChunk]
  simp only [hempty, hfull]
  split
  · exact ⟨m, rfl, hm, rfl⟩
  split
  · exact ⟨_, rfl, ⟨hm.size, Nat.zero_le _⟩, rfl⟩
  next hfits =>
  have hbytes := length_bytes hm
  have hroom' : m.len.toNat + data.val.length ≤ m.buffer.length := by
    rw [hm.size]
    omega
  have hsum : (m.len + UInt32.ofNat data.val.length).toNat = m.len.toNat + data.val.length := by
    rw [UInt32.toNat_add, hsize]
    unfold frameMaxLen at *
    omega
  rw [Memory.write, if_pos hroom', Option.bind_eq_bind, Option.bind_some]
  have hbuffer := overwrite_of_le (Nat.le_trans (Nat.le_add_right ..) hroom') data.val
  have hafter : (⟨overwrite m.buffer m.len.toNat data.val,
      m.len + UInt32.ofNat data.val.length⟩ : Memory).bytes = m.bytes ++ data.val := by
    rw [Memory.bytes, hsum, hbuffer, ← List.append_assoc, List.take_left']
    · rfl
    · rw [List.length_append]
      exact congrArg (· + data.val.length) hbytes
  rw [← hafter]
  refine parseRxBuffer_refines ⟨?_, ?_⟩
  · rw [length_overwrite hroom', hm.size]
  · rw [hsum, ← hm.size]
    exact hroom'

end Jukeboy.CompanionApi.RxMemory
