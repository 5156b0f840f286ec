import Jukeboy.Player.Track

/-! # From the file to the Opus decoder

The reader task hands out the chunks of a track from a 64 KiB read buffer that
it refills when the next chunk does not lie in it; the decoder task checks the
CRC of a chunk and walks its length-prefixed packets. Both are modelled for a
session that nothing stops and whose file operations succeed. -/
namespace Jukeboy.Player.Decode
open Jukeboy.Base Jukeboy.Base.LittleEndian Jukeboy.Formats.Jba Jukeboy.Player.Track

def opusMaxFrameLen : Nat := 1275

/-! ## The packet walk of the decoder -/

/-- What one iteration of the walk does with the bytes from the cursor on. -/
inductive WalkStep where
  | stop
  | skip (rest : List UInt8)
  | decode (packet : Packet) (rest : List UInt8)

/-- The body of the walk once the length prefix is read: `body` are the bytes
after the prefix. -/
def walkFrame (frameLen : Nat) (body : List UInt8) : WalkStep :=
  if frameLen > opusMaxFrameLen then
    .stop
  else if frameLen = 0 then
    .skip body
  else if frameLen > body.length then
    .stop
  else
    .decode (body.take frameLen) (body.drop frameLen)

def walkStep : List UInt8 → WalkStep
  | [] => .stop
  | byte1 :: rest =>
    if byte1.toNat < 252 then
      walkFrame byte1.toNat rest
    else
      match rest with
      | [] => .stop
      | byte2 :: body => walkFrame (byte2.toNat * 4 + byte1.toNat) body

theorem walkFrame_length {frameLen : Nat} {body : List UInt8} :
    (∀ rest, walkFrame frameLen body = .skip rest → rest.length ≤ body.length) ∧
      ∀ packet rest, walkFrame frameLen body = .decode packet rest → rest.length ≤ body.length := by
  unfold walkFrame
  constructor
  · intro rest h
    split_ifs at h
    cases h
    exact Nat.le_refl _
  · intro packet rest h
    split_ifs at h
    cases h
    rw [List.length_drop]
    exact Nat.sub_le _ _

/-- Every iteration consumes at least the length prefix. -/
theorem walkStep_length {data : List UInt8} :
    (∀ rest, walkStep data = .skip rest → rest.length < data.length) ∧
      ∀ packet rest, walkStep data = .decode packet rest → rest.length < data.length := by
  unfold walkStep
  split
  · exact ⟨fun _ h => (by cases h), fun _ _ h => (by cases h)⟩
  · next byte1 rest =>
    split
    · exact ⟨fun r h => Nat.lt_succ_of_le (walkFrame_length.1 r h),
        fun p r h => Nat.lt_succ_of_le (walkFrame_length.2 p r h)⟩
    · split
      · exact ⟨fun _ h => (by cases h), fun _ _ h => (by cases h)⟩
      · next byte2 body =>
        refine ⟨fun r h => ?_, fun p r h => ?_⟩
        · have := walkFrame_length.1 r h
          simp only [List.length_cons]
          omega
        · have := walkFrame_length.2 p r h
          simp only [List.length_cons]
          omega

/-- The packets the walk over the payload of a chunk hands to the decoder. -/
def walkPackets (data : List UInt8) : List Packet :=
  match _h : walkStep data with
  | .stop => []
  | .skip rest => walkPackets rest
  | .decode packet rest => packet :: walkPackets rest
termination_by data.length
decreasing_by
  · exact walkStep_length.1 rest _h
  · exact walkStep_length.2 packet rest _h

/-- The stored checksum of a chunk is the checksum of its payload. -/
def crcMatches (romCrc32 : List UInt8 → UInt32) (data : List UInt8) : Bool :=
  leNat (data.take chunkCrcBytes) == (romCrc32 (data.drop chunkCrcBytes)).toNat

/-- The decoder's handling of one chunk message. -/
def decodeChunk (romCrc32 : List UInt8 → UInt32) (data : List UInt8) : List Packet :=
  if data.length ≤ chunkCrcBytes ∨ data.length > chunkMaxBytes then
    []
  else if !crcMatches romCrc32 data then
    []
  else
    walkPackets (data.drop chunkCrcBytes)

/-! ## The reader loop -/

/-- The buffer of the last read and the data offset it starts at. -/
structure ReadBuffer where
  windowStart : Nat
  rd : List UInt8

/-- `cartridge_service_read_chunk_async`: up to 64 KiB of the file from `offset` on. -/
def readChunk (file : List UInt8) (offset : Nat) : List UInt8 :=
  (file.drop offset).take cartridgeReadBufSize

def fits (buffer : Option ReadBuffer) (chunkStart chunkEnd : Nat) : Bool :=
  match buffer with
  | none => false
  | some b => decide (b.windowStart ≤ chunkStart) && decide (chunkEnd ≤ b.windowStart + b.rd.length)

/-- The buffer chunk `chunkStart .. chunkEnd` is served from: the one that is
checked out when the chunk lies in it, else a fresh read. -/
def bufferFor (file : List UInt8) (info : TrackInfo) (buffer : Option ReadBuffer)
    (chunkStart chunkEnd : Nat) : ReadBuffer :=
  match buffer with
  | some b =>
    if fits (some b) chunkStart chunkEnd then b
    else ⟨chunkStart, readChunk file (info.dataOffset + chunkStart)⟩
  | none => ⟨chunkStart, readChunk file (info.dataOffset + chunkStart)⟩

/-- The `for` loop of the reader, with `n` chunks to go from `chunkIndex` on:
the error it ends with and the chunk messages it queues. -/
def readerLoop (file : List UInt8) :
    Nat → Nat → TrackInfo → Option ReadBuffer → EspErr × List (List UInt8)
  | 0, _, _, _ => (.ok, [])
  | n + 1, chunkIndex, info, buffer =>
    match getChunkBounds file {} info chunkIndex with
    | (.error err, _) => (err, [])
    | (.ok none, _) => (.fail, [])
    | (.ok (some (chunkStart, chunkEnd)), info') =>
      let chunkLen := chunkEnd - chunkStart
      if chunkLen ≤ chunkCrcBytes then
        readerLoop file n (chunkIndex + 1) info' buffer
      else
        let b := bufferFor file info' buffer chunkStart chunkEnd
        if b.rd.length < chunkLen then
          (.fail, [])
        else
          let data := (b.rd.drop (chunkStart - b.windowStart)).take chunkLen
          let (err, messages) := readerLoop file n (chunkIndex + 1) info' (some b)
          (err, data :: messages)

/-- A reader session from chunk `startChunk` on. -/
def readerSession (file : List UInt8) (info : TrackInfo) (startChunk : Nat) :
    EspErr × List (List UInt8) :=
  if startChunk ≥ info.lookupTableLen then
    (.invalidArg, [])
  else
    readerLoop file (info.lookupTableLen - startChunk) startChunk info none

/-! ## The walk inverts the writer -/

theorem walkPackets_decode {data rest : List UInt8} {packet : Packet}
    (h : walkStep data = .decode packet rest) :
    walkPackets data = packet :: walkPackets rest := by
  rw [walkPackets]
  split
  · next heq => rw [h] at heq; cases heq
  · next heq => rw [h] at heq; cases heq
  · next heq => rw [h] at heq; cases heq; rfl

theorem walkPackets_nil : walkPackets [] = [] := by
  rw [walkPackets]
  rfl

theorem walkFrame_append {packet : Packet} (rest : List UInt8) (hpos : packet ≠ [])
    (hmax : packet.length ≤ opusMaxFrameLen) :
    walkFrame packet.length (packet ++ rest) = .decode packet rest := by
  have hlen := List.length_pos_of_ne_nil hpos
  rw [walkFrame, if_neg (by omega), if_neg (by omega),
    if_neg (by rw [List.length_append]; omega), List.take_left, List.drop_left]

/-- The walk reads back one packet behind the length prefix the writer gave it. -/
theorem walkStep_encode {packet : Packet} {prefixBytes : List UInt8} (rest : List UInt8)
    (h : encodePacketLength packet.length = .ok prefixBytes) (hpos : packet ≠ []) :
    walkStep (prefixBytes ++ packet ++ rest) = .decode packet rest := by
  obtain ⟨hmax, ⟨hshort, rfl⟩ | ⟨b0, b1, rfl, hb0, hlen⟩⟩ := encodePacketLength_ok h
  · have hb : (UInt8.ofNat packet.length).toNat = packet.length := by
      rw [UInt8.toNat_ofNat']
      omega
    simp only [List.cons_append, walkStep, hb, if_pos hshort]
    exact walkFrame_append rest hpos hmax
  · simp only [List.cons_append, List.nil_append, walkStep, if_neg (Nat.not_lt_of_le hb0), hlen]
    exact walkFrame_append rest hpos hmax

/-- **The packet walk inverts `build_chunks`** on the payload of one chunk. -/
theorem walkPackets_buildPayload {packets : List Packet} {payload : List UInt8}
    (h : buildPayload packets = .ok payload) (hne : ∀ p ∈ packets, p ≠ []) :
    walkPackets payload = packets := by
  induction packets generalizing payload with
  | nil =>
    cases h
    exact walkPackets_nil
  | cons packet rest ih =>
    obtain ⟨prefixBytes, tail, hp, ht, rfl⟩ := buildPayload_cons_ok h
    rw [walkPackets_decode (walkStep_encode tail hp (hne packet List.mem_cons_self)),
      ih ht fun p hp => hne p (List.mem_cons_of_mem _ hp)]

/-- A chunk the writer made passes the length and CRC checks of the decoder,
which then finds the packets of the group. -/
theorem decodeChunk_buildChunk {crc32 : List UInt8 → Nat} {romCrc32 : List UInt8 → UInt32}
    (hcrc : ∀ bytes, (romCrc32 bytes).toNat = crc32 bytes) {group : List Packet} {chunk : Chunk}
    (h : buildChunk crc32 group = .ok chunk) (hgroup : group ≠ []) (hne : ∀ p ∈ group, p ≠ []) :
    4 < chunk.length ∧ chunk.length ≤ chunkMaxBytes ∧ crcMatches romCrc32 chunk = true ∧
      decodeChunk romCrc32 chunk = group := by
  obtain ⟨payload, hp, rfl, hmax⟩ := buildChunk_ok h
  have hdrop : (leBytes 4 (crc32 payload % 2 ^ 32) ++ payload).drop chunkCrcBytes = payload :=
    List.drop_left' (length_leBytes 4 _)
  have hwalk := walkPackets_buildPayload hp hne
  have hpayload : payload ≠ [] := by
    rintro rfl
    rw [walkPackets_nil] at hwalk
    exact hgroup hwalk.symm
  have hlen : 4 < (leBytes 4 (crc32 payload % 2 ^ 32) ++ payload).length := by
    have := List.length_pos_of_ne_nil hpayload
    rw [List.length_append, length_leBytes]
    omega
  have hmatch : crcMatches romCrc32 (leBytes 4 (crc32 payload % 2 ^ 32) ++ payload) = true := by
    have hlt : crc32 payload < 2 ^ 32 := hcrc payload ▸ (romCrc32 payload).toNat_lt
    rw [crcMatches, hdrop, chunkCrcBytes, Nat.mod_eq_of_lt hlt, leNat_take_leBytes payload hlt,
      hcrc, beq_self_eq_true]
  refine ⟨hlen, hmax, hmatch, ?_⟩
  have hrange : ¬ ((leBytes 4 (crc32 payload % 2 ^ 32) ++ payload).length ≤ chunkCrcBytes ∨
      (leBytes 4 (crc32 payload % 2 ^ 32) ++ payload).length > chunkMaxBytes) := by
    unfold chunkCrcBytes
    change _ ≤ chunkMaxBytes at hmax
    omega
  rw [decodeChunk, if_neg hrange, hmatch, hdrop, hwalk]
  rfl

end Jukeboy.Player.Decode
