import Jukeboy.Base.EspErr
import Jukeboy.Base.LittleEndian
import Mathlib.Data.List.Forall2

/-! # The `.jba` writer of `make_album.py`

`encode_packet_length`, `build_chunks` and `build_jba`, with the errors they
raise. What a successful call returned is read off once: the chunks are the
encodings of the 50-packet groups, and the file is header, lookup table,
padding and chunks. -/
namespace Jukeboy.Formats.Jba
open Jukeboy.Base Jukeboy.Base.LittleEndian

def jbaVersion : Nat := 0x1
def headerBlockSize : Nat := 512
def packetsPerSecond : Nat := 50
def maxChunkBytes : Nat := 24 * 1024
def uint32Max : Nat := 0xFFFFFFFF

/-- `struct.calcsize("<BII")`, and `sizeof(jukeboy_jba_header_t)` on the device. -/
def headerLen : Nat := 9

abbrev Packet := List UInt8
abbrev Chunk := List UInt8

/-! ## Chunks -/

/-- A Python length is never negative, so that check of the source has no branch here. -/
def encodePacketLength (packetLen : Nat) : Except String (List UInt8) :=
  if packetLen < 252 then
    .ok [UInt8.ofNat packetLen]
  else if packetLen > 1275 then
    .error s!"packet length {packetLen} exceeds 2-byte container limit"
  else
    let first := 252 + ((packetLen - 252) &&& 0x3)
    let second := (packetLen - first) / 4
    .ok [UInt8.ofNat first, UInt8.ofNat second]

/-- The payload loop of `build_chunks` over one packet group. -/
def buildPayload : List Packet → Except String (List UInt8)
  | [] => .ok []
  | packet :: rest => do
    let prefixBytes ← encodePacketLength packet.length
    let payload ← buildPayload rest
    return prefixBytes ++ packet ++ payload

def buildChunk (crc32 : List UInt8 → Nat) (packetGroup : List Packet) : Except String Chunk := do
  let payload ← buildPayload packetGroup
  let chunk := leBytes 4 (crc32 payload % 2 ^ 32) ++ payload
  if chunk.length > maxChunkBytes then
    throw s!"1-second chunk exceeds {maxChunkBytes} bytes; got {chunk.length} bytes"
  return chunk

/-- The slices `opus_packets[start : start + 50]`, `start` running through
`range(0, len(opus_packets), 50)`. -/
def packetGroups (opusPackets : List Packet) : List (List Packet) :=
  (List.range ((opusPackets.length + (packetsPerSecond - 1)) / packetsPerSecond)).map fun k =>
    (opusPackets.drop (packetsPerSecond * k)).take packetsPerSecond

def buildChunksOf (crc32 : List UInt8 → Nat) : List (List Packet) → Except String (List Chunk)
  | [] => .ok []
  | group :: rest => do
    let chunk ← buildChunk crc32 group
    let chunks ← buildChunksOf crc32 rest
    return chunk :: chunks

def buildChunks (crc32 : List UInt8 → Nat) (opusPackets : List Packet) :
    Except String (List Chunk) :=
  buildChunksOf crc32 (packetGroups opusPackets)

/-! ## The file -/

def requireUint32 (value : Nat) (description : String) : Except String Unit :=
  if value > uint32Max then .error s!"{description} must fit in uint32; got {value}" else .ok ()

/-- The loop of `build_jba`: the lookup table from chunk `index` on, whose
first chunk starts at `offset`, and the offset after the last chunk. -/
def buildLookupTable : Nat → Nat → List Chunk → Except String (List Nat × Nat)
  | _, offset, [] => .ok ([], offset)
  | index, offset, chunk :: rest => do
    requireUint32 offset s!"lookup offset for chunk {index}"
    requireUint32 (offset + chunk.length) "combined JBA payload size"
    let (table, total) ← buildLookupTable (index + 1) (offset + chunk.length) rest
    return (offset :: table, total)

def headerBlocks (entries : Nat) : Nat :=
  (headerLen + 4 * entries + headerBlockSize - 1) / headerBlockSize

def buildJba (chunks : List Chunk) : Except String (List UInt8) := do
  if chunks.isEmpty then
    throw "cannot build JBA without chunks"
  let (lookupTable, offset) ← buildLookupTable 0 0 chunks
  requireUint32 lookupTable.length "lookup table entry count"
  let lookupBytes := lookupTable.flatMap (leBytes 4)
  let blocks := (headerLen + lookupBytes.length + headerBlockSize - 1) / headerBlockSize
  requireUint32 blocks "JBA header block count"
  let header := leBytes 1 jbaVersion ++ leBytes 4 blocks ++ leBytes 4 lookupTable.length
  let paddingLen := blocks * headerBlockSize - (header.length + lookupBytes.length)
  requireUint32 (blocks * headerBlockSize + offset) "JBA file size"
  return header ++ lookupBytes ++ List.replicate paddingLen 0 ++ chunks.flatten

/-! ## What a successful call returned -/

theorem encodePacketLength_ok {packetLen : Nat} {bytes : List UInt8}
    (h : encodePacketLength packetLen = .ok bytes) :
    packetLen ≤ 1275 ∧
      ((packetLen < 252 ∧ bytes = [UInt8.ofNat packetLen]) ∨
        ∃ b0 b1 : UInt8, bytes = [b0, b1] ∧ 252 ≤ b0.toNat ∧
          b1.toNat * 4 + b0.toNat = packetLen) := by
  unfold encodePacketLength at h
  split at h
  · next hshort =>
    cases h
    exact ⟨by omega, .inl ⟨hshort, rfl⟩⟩
  · split at h
    · cases h
    · next hlong hmax =>
      cases h
      refine ⟨by omega, .inr ⟨_, _, rfl, ?_⟩⟩
      have hmod : (packetLen - 252) &&& 0x3 = (packetLen - 252) % 4 :=
        Nat.and_two_pow_sub_one_eq_mod (packetLen - 252) 2
      rw [hmod, UInt8.toNat_ofNat', UInt8.toNat_ofNat']
      omega

theorem encodePacketLength_of_le {packetLen : Nat} (h : packetLen ≤ 1275) :
    ∃ bytes, encodePacketLength packetLen = .ok bytes := by
  unfold encodePacketLength
  split
  · exact ⟨_, rfl⟩
  · rw [if_neg (by omega)]
    exact ⟨_, rfl⟩

theorem buildPayload_cons_ok {packet : Packet} {rest : List Packet} {payload : List UInt8}
    (h : buildPayload (packet :: rest) = .ok payload) :
    ∃ prefixBytes tail, encodePacketLength packet.length = .ok prefixBytes ∧
      buildPayload rest = .ok tail ∧ payload = prefixBytes ++ packet ++ tail := by
  obtain ⟨prefixBytes, hp, h⟩ := bind_ok h
  obtain ⟨tail, ht, h⟩ := bind_ok h
  exact ⟨prefixBytes, tail, hp, ht, (Except.ok.inj h).symm⟩

theorem buildChunk_ok {crc32 : List UInt8 → Nat} {group : List Packet} {chunk : Chunk}
    (h : buildChunk crc32 group = .ok chunk) :
    ∃ payload, buildPayload group = .ok payload ∧
      chunk = leBytes 4 (crc32 payload % 2 ^ 32) ++ payload ∧ chunk.length ≤ maxChunkBytes := by
  obtain ⟨payload, hp, h⟩ := bind_ok h
  dsimp only at h
  split at h
  · cases h
  · next hlen =>
    cases h
    exact ⟨payload, hp, rfl, by omega⟩

/-- Chunk by chunk, `build_chunks` returned the encodings of the groups. -/
theorem buildChunksOf_ok {crc32 : List UInt8 → Nat} {groups : List (List Packet)}
    {chunks : List Chunk} (h : buildChunksOf crc32 groups = .ok chunks) :
    List.Forall₂ (fun group chunk => buildChunk crc32 group = .ok chunk) groups chunks := by
  induction groups generalizing chunks with
  | nil => cases h; exact .nil
  | cons group rest ih =>
    obtain ⟨chunk, hc, h⟩ := bind_ok h
    obtain ⟨tail, ht, h⟩ := bind_ok h
    cases h
    exact .cons hc (ih ht)

/-- Consecutive slices of length `n` that reach the end of a list make up the list. -/
theorem flatten_slices {α : Type} (n : Nat) (l : List α) (m : Nat) (h : l.length ≤ n * m) :
    ((List.range m).map fun k => (l.drop (n * k)).take n).flatten = l := by
  induction m generalizing l with
  | zero =>
    have hl : l = [] := List.length_eq_zero_iff.mp (by omega)
    simp [hl]
  | succ m ih =>
    have hdrop : (l.drop n).length ≤ n * m := by
      rw [List.length_drop]
      rw [Nat.mul_succ] at h
      omega
    rw [List.range_succ_eq_map, List.map_cons, List.map_map, List.flatten_cons]
    have htail : List.map ((fun k => (l.drop (n * k)).take n) ∘ Nat.succ) (List.range m) =
        (List.range m).map fun k => ((l.drop n).drop (n * k)).take n := by
      apply List.map_congr_left
      intro k _
      simp only [Function.comp_apply, List.drop_drop, Nat.mul_succ, Nat.add_comm n]
    rw [htail, ih (l.drop n) hdrop]
    simp

theorem packetGroups_flatten (opusPackets : List Packet) :
    (packetGroups opusPackets).flatten = opusPackets := by
  apply flatten_slices
  unfold packetsPerSecond
  omega

theorem packetGroups_ne_nil {opusPackets : List Packet} {group : List Packet}
    (h : group ∈ packetGroups opusPackets) : group ≠ [] := by
  obtain ⟨k, hk, rfl⟩ := List.mem_map.mp h
  have hk := List.mem_range.mp hk
  intro hnil
  have hlen := congrArg List.length hnil
  simp only [List.length_take, List.length_drop, List.length_nil, packetsPerSecond] at hlen hk
  omega

theorem requireUint32_ok {value : Nat} {description : String}
    (h : requireUint32 value description = .ok ()) : value ≤ uint32Max := by
  unfold requireUint32 at h
  split at h
  · cases h
  · omega

/-- Entry `k` of the lookup table is the length of the chunks before chunk `k`. -/
theorem buildLookupTable_ok {chunks : List Chunk} {index offset total : Nat} {table : List Nat}
    (h : buildLookupTable index offset chunks = .ok (table, total)) :
    table = (List.range chunks.length).map (fun k => offset + (chunks.take k).flatten.length) ∧
      total = offset + chunks.flatten.length := by
  induction chunks generalizing index offset table total with
  | nil => cases h; exact ⟨rfl, rfl⟩
  | cons chunk rest ih =>
    obtain ⟨_, _, h⟩ := bind_ok h
    obtain ⟨_, _, h⟩ := bind_ok h
    obtain ⟨⟨t, tot⟩, ht, h⟩ := bind_ok h
    cases h
    obtain ⟨htab, htot⟩ := ih ht
    constructor
    · rw [List.length_cons, List.range_succ_eq_map, List.map_cons, List.map_map, htab]
      simp [Function.comp_def, Nat.add_assoc]
    · simp [htot, Nat.add_assoc]

/-- **The bytes of a built file**: header, lookup table, zero padding up to the
block boundary, chunks. -/
theorem buildJba_ok {chunks : List Chunk} {file : List UInt8} (h : buildJba chunks = .ok file) :
    let n := chunks.length
    let table := (List.range n).map fun k => (chunks.take k).flatten.length
    chunks ≠ [] ∧ headerBlocks n * headerBlockSize + chunks.flatten.length ≤ uint32Max ∧
      file = leBytes 1 jbaVersion ++ leBytes 4 (headerBlocks n) ++ leBytes 4 n ++
        table.flatMap (leBytes 4) ++
        List.replicate (headerBlocks n * headerBlockSize - (headerLen + 4 * n)) 0 ++
        chunks.flatten := by
  intro n table
  unfold buildJba at h
  by_cases hnil : chunks.isEmpty = true
  · rw [if_pos hnil] at h
    cases h
  rw [if_neg hnil] at h
  obtain ⟨⟨t, tot⟩, ht, h⟩ := bind_ok h
  obtain ⟨htab, htot⟩ := buildLookupTable_ok ht
  have htab' : t = table := by simpa [table, n] using htab
  have hbytes : (table.flatMap (leBytes 4)).length = 4 * n := by
    simp [table, List.length_flatMap, n, Nat.mul_comm, Function.comp_def]
  obtain ⟨_, _, h⟩ := bind_ok h
  obtain ⟨_, _, h⟩ := bind_ok h
  obtain ⟨_, hsize, h⟩ := bind_ok h
  have hsize := requireUint32_ok hsize
  have hlen : table.length = n := by simp [table]
  simp only [htab', htot, hbytes, hlen, List.length_append, length_leBytes, Nat.zero_add] at hsize h
  refine ⟨fun he => hnil (by simp [he]), hsize, ?_⟩
  exact (Except.ok.inj h).symm

/-! ## When the writer raises nothing -/

/-- The most bytes the encoding of a packet group can take. -/
def payloadBound (group : List Packet) : Nat := (group.map fun p => p.length + 2).sum

theorem buildPayload_of_le {group : List Packet} (h : ∀ p ∈ group, p.length ≤ 1275) :
    ∃ payload, buildPayload group = .ok payload ∧ payload.length ≤ payloadBound group := by
  induction group with
  | nil => exact ⟨[], rfl, Nat.zero_le _⟩
  | cons packet rest ih =>
    obtain ⟨tail, ht, hlen⟩ := ih fun p hp => h p (List.mem_cons_of_mem _ hp)
    obtain ⟨prefixBytes, hp⟩ := encodePacketLength_of_le (h packet List.mem_cons_self)
    have hprefix : prefixBytes.length ≤ 2 := by
      obtain ⟨-, ⟨-, rfl⟩ | ⟨b0, b1, rfl, -⟩⟩ := encodePacketLength_ok hp <;> simp
    refine ⟨prefixBytes ++ packet ++ tail, ?_, ?_⟩
    · rw [buildPayload, hp, ht]
      rfl
    · simp only [payloadBound, List.map_cons, List.sum_cons, List.length_append] at *
      omega

theorem buildChunk_of_le (crc32 : List UInt8 → Nat) {group : List Packet}
    (h : ∀ p ∈ group, p.length ≤ 1275) (hsum : 4 + payloadBound group ≤ maxChunkBytes) :
    ∃ chunk, buildChunk crc32 group = .ok chunk := by
  obtain ⟨payload, hp, hlen⟩ := buildPayload_of_le h
  refine ⟨leBytes 4 (crc32 payload % 2 ^ 32) ++ payload, ?_⟩
  have hfits : ¬ (leBytes 4 (crc32 payload % 2 ^ 32) ++ payload).length > maxChunkBytes := by
    rw [List.length_append, length_leBytes]
    omega
  simp only [buildChunk, hp, bind, Except.bind, if_neg hfits]
  rfl

theorem buildChunksOf_of_le (crc32 : List UInt8 → Nat) {groups : List (List Packet)}
    (h : ∀ g ∈ groups, (∀ p ∈ g, p.length ≤ 1275) ∧ 4 + payloadBound g ≤ maxChunkBytes) :
    ∃ chunks, buildChunksOf crc32 groups = .ok chunks := by
  induction groups with
  | nil => exact ⟨[], rfl⟩
  | cons g rest ih =>
    obtain ⟨hp, hsum⟩ := h g List.mem_cons_self
    obtain ⟨chunk, hc⟩ := buildChunk_of_le crc32 hp hsum
    obtain ⟨chunks, hcs⟩ := ih fun g' hg' => h g' (List.mem_cons_of_mem _ hg')
    exact ⟨chunk :: chunks, by rw [buildChunksOf, hc, hcs]; rfl⟩

/-- `build_chunks` raises nothing when no packet is longer than 1275 bytes and
no group of 50 can outgrow 24 KiB. -/
theorem buildChunks_of_le (crc32 : List UInt8 → Nat) {packets : List Packet}
    (h : ∀ g ∈ packetGroups packets,
      (∀ p ∈ g, p.length ≤ 1275) ∧ 4 + payloadBound g ≤ maxChunkBytes) :
    ∃ chunks, buildChunks crc32 packets = .ok chunks :=
  buildChunksOf_of_le crc32 h

theorem length_buildChunks {crc32 : List UInt8 → Nat} {packets : List Packet}
    {chunks : List Chunk} (h : buildChunks crc32 packets = .ok chunks) :
    chunks.length = (packetGroups packets).length :=
  (buildChunksOf_ok h).length_eq.symm

theorem requireUint32_of_le {value : Nat} (description : String) (h : value ≤ uint32Max) :
    requireUint32 value description = .ok () :=
  if_neg (Nat.not_lt_of_le h)

theorem buildLookupTable_of_le {chunks : List Chunk} {offset : Nat} (index : Nat)
    (h : offset + chunks.flatten.length ≤ uint32Max) :
    ∃ result, buildLookupTable index offset chunks = .ok result := by
  induction chunks generalizing index offset with
  | nil => exact ⟨_, rfl⟩
  | cons chunk rest ih =>
    rw [List.flatten_cons, List.length_append] at h
    obtain ⟨result, hr⟩ := ih (index + 1)
      (show offset + chunk.length + rest.flatten.length ≤ uint32Max by omega)
    refine ⟨(offset :: result.1, result.2), ?_⟩
    rw [buildLookupTable, requireUint32_of_le _ (by omega), requireUint32_of_le _ (by omega), hr]
    rfl

/-- `build_jba` raises nothing when there is a chunk and the file fits 32 bits. -/
theorem buildJba_of_le {chunks : List Chunk} (hpos : chunks ≠ [])
    (h : headerBlocks chunks.length * headerBlockSize + chunks.flatten.length ≤ uint32Max) :
    ∃ file, buildJba chunks = .ok file := by
  have hblocks : headerBlocks chunks.length ≤ uint32Max ∧ chunks.length ≤ uint32Max := by
    unfold headerBlocks headerBlockSize headerLen uint32Max at *
    omega
  obtain ⟨⟨table, total⟩, ht⟩ :=
    buildLookupTable_of_le 0 (show 0 + chunks.flatten.length ≤ uint32Max by omega)
  obtain ⟨htab, htot⟩ := buildLookupTable_ok ht
  have hlen : table.length = chunks.length := by simp [htab]
  have hbytes : (table.flatMap (leBytes 4)).length = 4 * chunks.length := by
    simp [List.length_flatMap, hlen, Nat.mul_comm]
  have hhead : (headerLen + 4 * chunks.length + headerBlockSize - 1) / headerBlockSize =
    headerBlocks chunks.length := rfl
  rw [Nat.zero_add] at htot
  have hne : chunks.isEmpty = false := by simpa using hpos
  simp only [buildJba, hne, ht, bind, Except.bind, hlen, hbytes, hhead, htot,
    requireUint32_of_le _ hblocks.1, requireUint32_of_le _ hblocks.2, requireUint32_of_le _ h]
  exact ⟨_, rfl⟩

end Jukeboy.Formats.Jba
