import Jukeboy.Base.Runs
import Jukeboy.CompanionApi.RxMemory

/-! # The receive parser makes progress

What the parser consumes of the bytes, and what it waits for. -/
namespace Jukeboy.CompanionApi.RxProgress

open Jukeboy.Base.LittleEndian Jukeboy.Base.Runs
open Jukeboy.CompanionApi.Tlv Jukeboy.CompanionApi.Protocol Jukeboy.CompanionApi.RxBuffer
open Jukeboy.CompanionApi.Chunking
open Jukeboy.CompanionApi.RxMemory (Memory Chunk length_bytes handleRxChunk_refines)

/-! ## Receptions -/

/-- What the task hands the receive path: a chunk, or a change of the link. -/
inductive Input where
  | chunk (data : Chunk)
  | link

/-- The memory, all bytes of the chunks so far, and what was done with them. -/
structure Reception where
  memory : Memory
  received : Bytes
  events : List RxEvent

/-- Handling an input; no handler of a request touches the memory. -/
def receive (s : Reception) : Input → Option Reception
  | .chunk data => (RxMemory.handleRxChunk s.memory data).map fun (events, memory) =>
      ⟨memory, s.received ++ data.val, s.events ++ events⟩
  | .link => some { s with memory := { s.memory with len := 0 } }

/-- The allocation of the buffer. -/
def initial : Reception := ⟨⟨List.replicate frameMaxLen 0, 0⟩, [], []⟩

/-- The bytes are too few for a header, or they start with the header of a supported
frame that is not complete. -/
def Awaiting (bytes : Bytes) : Prop :=
  bytes.length < headerLen ∨
    bytes.take 3 = [magic0, magic1, apiVersion] ∧
      headerLen + (readU16 (bytes.drop 10)).toNat ≤ frameMaxLen ∧
      bytes.length < headerLen + (readU16 (bytes.drop 10)).toNat

instance (bytes : Bytes) : Decidable (Awaiting bytes) := inferInstanceAs (Decidable (_ ∨ _))

/-! ## One turn -/

variable {buffer rest data : Bytes} {event : RxEvent}

/-- The header that a buffer starts with. -/
theorem take_header (h : headerLen ≤ buffer.length) : buffer.take headerLen =
    [buffer.getD 0 0, buffer.getD 1 0, buffer.getD 2 0, buffer.getD 3 0] ++
      (u16Bytes (readU16 (buffer.drop 4)) ++ (u32Bytes (readU32 (buffer.drop 6)) ++
        leBytes 2 (readU16 (buffer.drop 10)).toNat)) := by
  unfold headerLen at h
  have hopcode : leBytes 2 (readU16 (buffer.drop 4)).toNat = (buffer.drop 4).take 2 :=
    leBytes_readU16 (by rw [List.length_drop]; omega)
  have hrequestId : leBytes 4 (readU32 (buffer.drop 6)).toNat = (buffer.drop 6).take 4 :=
    leBytes_readU32 (by rw [List.length_drop]; omega)
  have hpayloadLen : leBytes 2 (readU16 (buffer.drop 10)).toNat = (buffer.drop 10).take 2 :=
    leBytes_readU16 (by rw [List.length_drop]; omega)
  have hfirst : buffer.take 4 =
      [buffer.getD 0 0, buffer.getD 1 0, buffer.getD 2 0, buffer.getD 3 0] := by
    match buffer, h with
    | _ :: _ :: _ :: _ :: _, _ => rfl
  rw [u16Bytes, u32Bytes, hopcode, hrequestId, hpayloadLen, ← hfirst]
  rw [show headerLen = 4 + (2 + (4 + 2)) from rfl, List.take_add, List.take_add, List.take_add,
    List.drop_drop, List.drop_drop]

theorem take_three (h : headerLen ≤ buffer.length) :
    buffer.take 3 = [buffer.getD 0 0, buffer.getD 1 0, buffer.getD 2 0] := by
  match buffer, h with
  | _ :: _ :: _ :: _, _ => rfl

/-- A turn that waits has nothing to skip, and no whole frame. -/
theorem awaiting_of_wait (h : parseStep buffer = .wait) : Awaiting buffer := by
  unfold parseStep at h
  split at h
  · next hshort => exact Or.inl hshort
  next hheader =>
  split at h
  · cases h
  next hmagic =>
  dsimp only at h
  split at h
  · cases h
  next hversion =>
  split at h
  · cases h
  next hlong =>
  split at h
  · next hpart =>
    obtain ⟨hfirst, hsecond⟩ := not_or.mp hmagic
    refine Or.inr ⟨?_, Nat.not_lt.mp hlong, hpart⟩
    rw [take_three (Nat.not_lt.mp hheader), not_not.mp hfirst, not_not.mp hsecond,
      not_not.mp hversion]
  · split at h
    · cases h
    · cases h

/-- A turn that goes on skips bytes that are there. -/
theorem skips (h : parseStep buffer = .advance event rest) :
    ∃ k, 0 < k ∧ k ≤ buffer.length ∧ rest = buffer.drop k ∧
      ∀ r, event = .request r → buffer.take k = encodeRequest r ∧ WellFormed r := by
  unfold parseStep at h
  split at h
  · cases h
  next hheader =>
  have hheader := Nat.not_lt.mp hheader
  have hpos : 0 < headerLen := by decide
  split at h
  · cases h
    exact ⟨1, Nat.one_pos, Nat.le_trans hpos hheader, rfl, fun _ h => by cases h⟩
  next hmagic =>
  dsimp only at h
  split at h
  · cases h
    exact ⟨headerLen, hpos, hheader, rfl, fun _ h => by cases h⟩
  next hversion =>
  split at h
  · cases h
    exact ⟨headerLen, hpos, hheader, rfl, fun _ h => by cases h⟩
  next hlong =>
  split at h
  · cases h
  next hwhole =>
  have hwhole := Nat.not_lt.mp hwhole
  split at h
  · cases h
    exact ⟨_, Nat.lt_add_right _ hpos, hwhole, rfl, fun _ h => by cases h⟩
  next htype =>
  cases h
  refine ⟨_, Nat.lt_add_right _ hpos, hwhole, rfl, ?_⟩
  intro r hr
  cases hr
  obtain ⟨hfirst, hsecond⟩ := not_or.mp hmagic
  have hpayload : ((buffer.drop headerLen).take (readU16 (buffer.drop 10)).toNat).length =
      (readU16 (buffer.drop 10)).toNat := by
    rw [List.length_take, List.length_drop]
    omega
  constructor
  · rw [List.take_add, take_header hheader, encodeRequest, requestHeader, hpayload,
      not_not.mp hfirst, not_not.mp hsecond, not_not.mp hversion, not_not.mp htype]
  · rw [WellFormed, hpayload]
    exact Nat.not_lt.mp hlong

/-! ## Chunks -/

/-- What a parse has done: it waits, with a rest of the bytes, and the requests handed out
lie in the bytes. -/
structure Parsed (stream : Bytes) (events : List RxEvent) (left : Bytes) : Prop where
  waits : parseStep left = .wait
  left_suffix : left <:+ stream
  requests : ∀ r, .request r ∈ events → encodeRequest r <:+: stream ∧ WellFormed r

theorem Parsed.of_suffix {stream left : Bytes} {events : List RxEvent}
    (h : Parsed buffer events left) (hbuffer : buffer <:+ stream) : Parsed stream events left where
  waits := h.waits
  left_suffix := h.left_suffix.trans hbuffer
  requests r hr := ⟨(h.requests r hr).1.trans hbuffer.isInfix, (h.requests r hr).2⟩

theorem parseFrom_parsed {fuel : Nat} (hfuel : buffer.length ≤ fuel) :
    Parsed buffer (parseFrom fuel buffer).1 (parseFrom fuel buffer).2 := by
  induction fuel generalizing buffer with
  | zero =>
    rw [List.length_eq_zero_iff.mp (Nat.le_zero.mp hfuel)]
    exact ⟨rfl, List.suffix_refl _, fun _ h => by cases h⟩
  | succ fuel ih =>
    rw [parseFrom]
    cases hstep : parseStep buffer with
    | wait => exact ⟨hstep, List.suffix_refl _, fun _ h => by cases h⟩
    | advance event rest =>
      obtain ⟨k, hpos, hle, rfl, hrequest⟩ := skips hstep
      have hshorter : (buffer.drop k).length ≤ fuel := by
        rw [List.length_drop]
        omega
      obtain ⟨hwaits, hsuffix, hrequests⟩ := (ih hshorter).of_suffix (List.drop_suffix k buffer)
      refine ⟨hwaits, hsuffix, ?_⟩
      intro r hr
      obtain hr | hr := List.mem_cons.mp hr
      · obtain ⟨hframe, hwf⟩ := hrequest r hr.symm
        rw [← hframe]
        exact ⟨(List.take_prefix k buffer).isInfix, hwf⟩
      · exact hrequests r hr

/-- A chunk behind what was buffered of a stream. -/
theorem handleRxChunk_parsed {stream : Bytes} (hwaits : parseStep buffer = .wait)
    (hbuffer : buffer <:+ stream) (data : Bytes) : Parsed (stream ++ data)
      (RxBuffer.handleRxChunk buffer data).1 (RxBuffer.handleRxChunk buffer data).2 := by
  rw [RxBuffer.handleRxChunk]
  by_cases hempty : data.length = 0
  · rw [if_pos hempty, List.length_eq_zero_iff.mp hempty, List.append_nil]
    exact ⟨hwaits, hbuffer, fun _ h => by cases h⟩
  rw [if_neg hempty]
  by_cases hfull : data.length > frameMaxLen - buffer.length
  · rw [if_pos hfull]
    refine ⟨rfl, List.nil_suffix, ?_⟩
    intro r hr
    cases List.mem_singleton.mp hr
  · rw [if_neg hfull]
    obtain ⟨before, rfl⟩ := hbuffer
    refine (parseFrom_parsed (Nat.le_refl _)).of_suffix ?_
    exact ⟨before, by rw [List.append_assoc]⟩

/-! ## Runs -/

structure Inv (s : Reception) : Prop where
  valid : s.memory.Valid
  parsed : Parsed s.received s.events s.memory.bytes

theorem inv_initial : Inv initial where
  valid := ⟨List.length_replicate, Nat.zero_le _⟩
  parsed := ⟨rfl, List.nil_suffix, fun _ h => by cases h⟩

/-- An input has no fault. -/
theorem receive_inv {s : Reception} (hs : Inv s) (input : Input) :
    ∃ t, receive s input = some t ∧ Inv t := by
  obtain ⟨hvalid, hparsed⟩ := hs
  cases input with
  | link =>
    exact ⟨_, rfl, ⟨hvalid.size, Nat.zero_le _⟩, ⟨rfl, List.nil_suffix, hparsed.requests⟩⟩
  | chunk data =>
    obtain ⟨memory, hchunk, hvalid', hbytes⟩ := handleRxChunk_refines hvalid data
    have hparsed' := handleRxChunk_parsed hparsed.waits hparsed.left_suffix data.val
    rw [← hbytes] at hparsed'
    rw [receive, hchunk, Option.map_some]
    refine ⟨_, rfl, hvalid', hparsed'.waits, hparsed'.left_suffix, ?_⟩
    intro r hr
    obtain hr | hr := List.mem_append.mp hr
    · obtain ⟨hwithin, hwf⟩ := hparsed.requests r hr
      exact ⟨hwithin.trans (List.prefix_append ..).isInfix, hwf⟩
    · exact hparsed'.requests r hr

/-- **The receive parser makes progress.** Whatever is received, no parsing reads behind
the received bytes, writes behind the buffer or goes on for ever; then at most 2048 bytes
are buffered, a part of a frame at most, and every payload that was handed out is what
follows a valid header of a request with its length in the bytes received. -/
theorem rx_progress (inputs : List Input) : ∃ s, run receive initial inputs = some s ∧
    s.memory.len ≤ 2048 ∧ Awaiting s.memory.bytes ∧
    ∀ r, .request r ∈ s.events → headerLen + r.payload.length ≤ frameMaxLen ∧
      requestHeader r ++ r.payload <:+: s.received := by
  obtain ⟨s, hs, hvalid, hparsed⟩ := run_total (fun s input hs => receive_inv hs input) inv_initial
    inputs
  refine ⟨s, hs, UInt32.le_iff_toNat_le.mpr hvalid.len_le, awaiting_of_wait hparsed.waits, ?_⟩
  intro r hr
  obtain ⟨hwithin, hwf⟩ := hparsed.requests r hr
  exact ⟨hwf, hwithin⟩

end Jukeboy.CompanionApi.RxProgress
