import Jukeboy.Player.Decode
import Jukeboy.Player.LookupWindow

/-! # The `.jba` round trip

The reader hands out the bytes between the table's bounds, whichever buffer
they are in. A file the writer made is accepted, its table is the list of
chunk offsets, and reading and decoding it gives the packets back. -/
namespace Jukeboy.Player.RoundTrip
open Jukeboy.Base Jukeboy.Base.Runs Jukeboy.Base.LittleEndian Jukeboy.Formats.Jba
open Jukeboy.Player.Track Jukeboy.Player.LookupWindow Jukeboy.Player.Decode

/-! ## The reader hands out the data between the bounds -/

/-- The bytes of chunk `i` in the data area of the file. -/
def chunkBytes (file : List UInt8) (track : TrackInfo) (i : Nat) : List UInt8 :=
  let bounds := tableBounds file track i
  (file.drop (track.dataOffset + bounds.1)).take (bounds.2 - bounds.1)

section Reader
variable {file : List UInt8} {track info : TrackInfo}

/-- The buffer holds what the file holds from the window's start on. -/
def BufferOk (file : List UInt8) (track : TrackInfo) (b : ReadBuffer) : Prop :=
  b.rd = readChunk file (track.dataOffset + b.windowStart)

/-- A chunk that lies in a good buffer is a slice of the file. -/
theorem take_drop_readChunk {b : ReadBuffer} {chunkStart chunkEnd : Nat}
    (hb : BufferOk file track b) (hstart : b.windowStart ≤ chunkStart)
    (hend : chunkEnd ≤ b.windowStart + b.rd.length) :
    (b.rd.drop (chunkStart - b.windowStart)).take (chunkEnd - chunkStart) =
      (file.drop (track.dataOffset + chunkStart)).take (chunkEnd - chunkStart) := by
  have hlen : b.rd.length ≤ cartridgeReadBufSize := by
    rw [hb, readChunk, List.length_take]
    exact Nat.min_le_left _ _
  rw [show b.rd = _ from hb, readChunk, List.drop_take, List.take_take, List.drop_drop,
    show track.dataOffset + b.windowStart + (chunkStart - b.windowStart) =
      track.dataOffset + chunkStart by omega, Nat.min_eq_left (by omega)]

/-- The buffer a chunk with valid bounds is served from is good and holds the chunk. -/
theorem bufferFor_spec {buffer : Option ReadBuffer} {chunkStart chunkEnd : Nat}
    (hsame : SameTrack track info) (hg : Geometry file track)
    (hbuf : ∀ b, buffer = some b → BufferOk file track b)
    (hv : BoundsValid track (chunkStart, chunkEnd)) :
    let b := bufferFor file info buffer chunkStart chunkEnd
    BufferOk file track b ∧ b.windowStart ≤ chunkStart ∧
      chunkEnd ≤ b.windowStart + b.rd.length := by
  obtain ⟨hle, hdata, -, hmax⟩ := hv
  have hfresh : BufferOk file track
      ⟨chunkStart, readChunk file (info.dataOffset + chunkStart)⟩ := by
    rw [BufferOk, hsame.dataOffset]
  have hroom : chunkEnd ≤ chunkStart + (readChunk file (info.dataOffset + chunkStart)).length := by
    have hpos := hg.data_pos
    have hsize := hg.size_le
    simp only [TrackInfo.dataLen] at hdata
    simp only [readChunk, List.length_take, List.length_drop, hsame.dataOffset,
      cartridgeReadBufSize]
    omega
  intro b
  cases hbuffer : buffer with
  | none =>
    simp only [b, bufferFor, hbuffer]
    exact ⟨hfresh, Nat.le_refl _, hroom⟩
  | some old =>
    simp only [b, bufferFor, hbuffer]
    split
    · next hfits =>
      simp only [fits, Bool.and_eq_true, decide_eq_true_eq] at hfits
      exact ⟨hbuf old hbuffer, hfits⟩
    · exact ⟨hfresh, Nat.le_refl _, hroom⟩

/-- One turn of the loop on a track whose table is valid: the chunk's bytes are
queued, and the rest of the loop starts from a good window and a good buffer. -/
theorem readerLoop_succ (n : Nat) {i : Nat} {buffer : Option ReadBuffer} (hinv : RunInv file track info)
    (hv : TableValid file track) (hi : i < track.lookupTableLen)
    (hbuf : ∀ b, buffer = some b → BufferOk file track b) :
    ∃ info' b, RunInv file track info' ∧ BufferOk file track b ∧
      readerLoop file (n + 1) i info buffer =
        ((readerLoop file n (i + 1) info' (some b)).1,
          chunkBytes file track i :: (readerLoop file n (i + 1) info' (some b)).2) := by
  have hok := (servesTable_of_windowOk hinv.same hinv.geometry hinv.window {} i).whole hv hi
    ⟨rfl, rfl, rfl, rfl, rfl⟩
  have hcall : getChunkBounds file {} info i =
      (.ok (some (tableBounds file track i)), (getChunkBounds file {} info i).2) := by
    rw [← hok]
  have hinv' : RunInv file track (getChunkBounds file {} info i).2 :=
    runInv_step (.getChunkBounds {} i) hinv rfl
  generalize (getChunkBounds file {} info i).2 = info' at hcall hinv'
  have hvalid : BoundsValid track ((tableBounds file track i).1, (tableBounds file track i).2) :=
    hv.2 i hi
  obtain ⟨hb, hstart, hend⟩ := bufferFor_spec hinv'.same hinv.geometry hbuf hvalid
  have hdata := take_drop_readChunk hb hstart hend
  obtain ⟨hle, -, hcrc, -⟩ := hvalid
  refine ⟨info', _, hinv', hb, ?_⟩
  simp only [readerLoop, hcall]
  rw [if_neg (by unfold chunkCrcBytes; omega), if_neg (by omega), hdata]
  rfl

/-- **The reader hands out the chunks of the table**, from any chunk on. -/
theorem readerLoop_chunks {n i : Nat} {buffer : Option ReadBuffer} (hinv : RunInv file track info)
    (hv : TableValid file track) (hn : i + n = track.lookupTableLen)
    (hbuf : ∀ b, buffer = some b → BufferOk file track b) :
    readerLoop file n i info buffer =
      (.ok, (List.range n).map fun k => chunkBytes file track (i + k)) := by
  induction n generalizing i info buffer with
  | zero => rfl
  | succ n ih =>
    have hi : i < track.lookupTableLen := by omega
    obtain ⟨info', b, hinv', hb, heq⟩ := readerLoop_succ n hinv hv hi hbuf
    have hbuf' : ∀ c, some b = some c → BufferOk file track c := by
      rintro c ⟨⟩
      exact hb
    have hrest := ih hinv' (show i + 1 + n = track.lookupTableLen by omega) hbuf'
    rw [heq, hrest, List.range_succ_eq_map, List.map_cons, List.map_map]
    simp only [Function.comp_def, Nat.add_zero, Nat.succ_eq_add_one, Nat.add_assoc,
      Nat.add_comm 1]

theorem readerSession_chunks {startChunk : Nat} (hinv : RunInv file track track)
    (hv : TableValid file track) (hs : startChunk < track.lookupTableLen) :
    readerSession file track startChunk =
      (.ok, (List.range (track.lookupTableLen - startChunk)).map fun k =>
        chunkBytes file track (startChunk + k)) := by
  rw [readerSession, if_neg (Nat.not_le_of_lt hs)]
  exact readerLoop_chunks hinv hv (by omega) (fun b hb => (by cases hb))

end Reader

/-! ## The table of a built file -/

section Built
variable {chunks : List Chunk}

/-- Where chunk `k` starts in the data area. -/
def chunkOffset (chunks : List Chunk) (k : Nat) : Nat := (chunks.take k).flatten.length

theorem chunkOffset_succ {k : Nat} (hk : k < chunks.length) :
    chunkOffset chunks (k + 1) = chunkOffset chunks k + chunks[k].length := by
  rw [chunkOffset, chunkOffset, List.take_succ_eq_append_getElem hk, List.flatten_append]
  simp

theorem chunkOffset_length : chunkOffset chunks chunks.length = chunks.flatten.length := by
  rw [chunkOffset, List.take_length]

theorem chunkOffset_le (chunks : List Chunk) (k : Nat) : chunkOffset chunks k ≤ chunks.flatten.length := by
  have h : chunks.flatten = (chunks.take k).flatten ++ (chunks.drop k).flatten := by
    rw [← List.flatten_append, List.take_append_drop]
  rw [h, List.length_append]
  exact Nat.le_add_right _ _

/-- The data between two offsets is the chunk. -/
theorem flatten_slice {k : Nat} (hk : k < chunks.length) :
    (chunks.flatten.drop (chunkOffset chunks k)).take chunks[k].length = chunks[k] := by
  have h : chunks.flatten =
      (chunks.take k).flatten ++ (chunks[k] ++ (chunks.drop (k + 1)).flatten) := by
    rw [← List.flatten_cons, ← List.drop_eq_getElem_cons hk, ← List.flatten_append,
      List.take_append_drop]
  rw [h, chunkOffset, List.drop_left, List.take_left]

theorem headerLen_le_headerBlocks (n : Nat) :
    headerLen + 4 * n ≤ headerBlocks n * headerBlockSize ∧
      headerBlocks n * headerBlockSize < headerLen + 4 * n + headerBlockSize := by
  unfold headerBlocks headerBlockSize
  omega

/-- The header and the lookup table of a file with these chunks. -/
def tableBytes (chunks : List Chunk) : List UInt8 :=
  ((List.range chunks.length).map (chunkOffset chunks)).flatMap (leBytes 4)

def paddingBytes (n : Nat) : List UInt8 :=
  List.replicate (headerBlocks n * headerBlockSize - (headerLen + 4 * n)) 0

/-- The bytes of a built file, field by field. -/
def builtFile (chunks : List Chunk) : List UInt8 :=
  leBytes 1 jbaVersion ++ (leBytes 4 (headerBlocks chunks.length) ++
    (leBytes 4 chunks.length ++ (tableBytes chunks ++ (paddingBytes chunks.length ++
      chunks.flatten))))

theorem length_tableBytes (chunks : List Chunk) :
    (tableBytes chunks).length = 4 * chunks.length := by
  simp [tableBytes, List.length_flatMap, Function.comp_def, Nat.mul_comm]

theorem length_builtFile (chunks : List Chunk) :
    (builtFile chunks).length =
      headerBlocks chunks.length * headerBlockSize + chunks.flatten.length := by
  have := headerLen_le_headerBlocks chunks.length
  simp only [builtFile, List.length_append, length_leBytes, length_tableBytes, paddingBytes,
    List.length_replicate]
  unfold headerLen at *
  omega

/-- The data area begins after the header blocks. -/
theorem drop_builtFile (chunks : List Chunk) :
    (builtFile chunks).drop (headerBlocks chunks.length * headerBlockSize) = chunks.flatten := by
  have hlen := headerLen_le_headerBlocks chunks.length
  simp only [builtFile, ← List.append_assoc]
  apply List.drop_left'
  simp only [List.length_append, length_leBytes, length_tableBytes, paddingBytes,
    List.length_replicate]
  unfold headerLen at *
  omega

theorem drop_headerLen_builtFile (chunks : List Chunk) :
    (builtFile chunks).drop headerLen =
      tableBytes chunks ++ (paddingBytes chunks.length ++ chunks.flatten) := by
  simp only [builtFile, ← List.append_assoc]
  simp only [List.append_assoc (_ ++ _ ++ _)]
  apply List.drop_left'
  simp [headerLen]

theorem tableEntry_builtFile {k : Nat} (hk : k < chunks.length)
    (hsize : chunks.flatten.length < 2 ^ 32) :
    tableEntry (builtFile chunks) k = chunkOffset chunks k := by
  rw [tableEntry, ← List.drop_drop, drop_headerLen_builtFile]
  refine leNat_table_entry _ _ ?_ ?_
  · simp [hk]
  · have := chunkOffset_le chunks k
    omega

theorem readHeader_builtFile (hn : chunks.length < 2 ^ 32)
    (hb : headerBlocks chunks.length < 2 ^ 32) :
    readHeader ((builtFile chunks).take cartridgeReadBufSize) =
      ⟨jbaVersion, headerBlocks chunks.length, chunks.length⟩ := by
  have hdrop1 : (builtFile chunks).drop 1 = leBytes 4 (headerBlocks chunks.length) ++
      (leBytes 4 chunks.length ++ (tableBytes chunks ++ (paddingBytes chunks.length ++
        chunks.flatten))) := List.drop_left' (length_leBytes 1 _)
  have hdrop5 : (builtFile chunks).drop 5 = leBytes 4 chunks.length ++ (tableBytes chunks ++
      (paddingBytes chunks.length ++ chunks.flatten)) := by
    rw [show 5 = 1 + 4 from rfl, ← List.drop_drop, hdrop1, List.drop_left' (length_leBytes 4 _)]
  simp only [readHeader, List.drop_take, List.take_take, cartridgeReadBufSize, Nat.reduceMul,
    Nat.reduceSub, Nat.reduceLeDiff, Nat.min_eq_left, hdrop1, hdrop5]
  rw [leNat_take_leBytes _ hb, leNat_take_leBytes _ hn]
  exact congrArg (JbaHeader.mk · _ _) (leNat_take_leBytes _ (by decide))

/-- The track description of a built file. -/
def builtTrack (filename : Nat) (chunks : List Chunk) : TrackInfo :=
  invalidateLookupWindow
    { TrackInfo.zero with
      filename := some filename
      lookupTableLen := chunks.length
      dataOffset := headerBlocks chunks.length * headerBlockSize
      totalFileSize := headerBlocks chunks.length * headerBlockSize + chunks.flatten.length }

theorem length_flatten_le {n : Nat} (hmax : ∀ c ∈ chunks, c.length ≤ n) :
    chunks.flatten.length ≤ chunks.length * n := by
  induction chunks with
  | nil => exact Nat.zero_le _
  | cons c rest ih =>
    have hc := hmax c List.mem_cons_self
    have hrest := ih fun d hd => hmax d (List.mem_cons_of_mem _ hd)
    rw [List.flatten_cons, List.length_append, List.length_cons, Nat.succ_mul]
    omega

/-- The chunk count and the chunk lengths the player accepts keep the file below 2 GiB. -/
theorem builtFile_lt (hcount : chunks.length ≤ maxLookupEntries)
    (hmax : ∀ c ∈ chunks, c.length ≤ chunkMaxBytes) :
    headerBlocks chunks.length * headerBlockSize + chunks.flatten.length < 2 ^ 31 := by
  have hflat := length_flatten_le hmax
  have hblocks := headerLen_le_headerBlocks chunks.length
  unfold headerLen headerBlockSize chunkMaxBytes maxLookupEntries at *
  omega

/-- The player accepts the header of a built file. -/
theorem loadTrackInfo_builtFile (filename : Nat) (hpos : chunks ≠ [])
    (hcount : chunks.length ≤ maxLookupEntries) (hlen : ∀ c ∈ chunks, 4 < c.length)
    (hmax : ∀ c ∈ chunks, c.length ≤ chunkMaxBytes) :
    loadTrackInfo filename {} (builtFile chunks) = .ok (builtTrack filename chunks) := by
  have hsize := builtFile_lt hcount hmax
  have hblocks := headerLen_le_headerBlocks chunks.length
  have hn : 0 < chunks.length := List.length_pos_of_ne_nil hpos
  have hdata : 0 < chunks.flatten.length := by
    obtain ⟨c, rest, rfl⟩ := List.exists_cons_of_ne_nil hpos
    have := hlen c List.mem_cons_self
    rw [List.flatten_cons, List.length_append]
    omega
  have hstat : statSize (headerBlocks chunks.length * headerBlockSize + chunks.flatten.length) =
      ((headerBlocks chunks.length * headerBlockSize + chunks.flatten.length : Nat) : Int) := by
    generalize headerBlocks chunks.length * headerBlockSize + chunks.flatten.length = size at *
    simp only [statSize]
    rw [Nat.mod_eq_of_lt (by omega), if_pos hsize]
  have hprefix : ¬ ((builtFile chunks).take cartridgeReadBufSize).length < headerLen := by
    rw [List.length_take, length_builtFile]
    unfold headerLen cartridgeReadBufSize at *
    omega
  have hheader : readHeader ((builtFile chunks).take cartridgeReadBufSize) =
      ⟨jbaVersion, headerBlocks chunks.length, chunks.length⟩ := by
    unfold headerLen headerBlockSize maxLookupEntries at *
    exact readHeader_builtFile (by omega) (by omega)
  simp only [loadTrackInfo, failIf_bind_ok_iff, hheader, length_builtFile, hstat, bne_self_eq_false,
    decide_eq_false_iff_not, hprefix, not_false_eq_true, true_and, beq_eq_false_iff_ne,
    Bool.not_true]
  unfold headerLen headerBlockSize maxLookupEntries sizeMax at *
  refine ⟨by omega, by omega, by omega, by omega, by omega, by omega, ?_⟩
  rfl

theorem dataLen_builtTrack (filename : Nat) (chunks : List Chunk) :
    (builtTrack filename chunks).dataLen = chunks.flatten.length :=
  Nat.add_sub_cancel_left _ _

theorem tableBounds_builtFile {filename k : Nat} (hk : k < chunks.length)
    (hsize : chunks.flatten.length < 2 ^ 32) :
    tableBounds (builtFile chunks) (builtTrack filename chunks) k =
      (chunkOffset chunks k, chunkOffset chunks k + chunks[k].length) := by
  rw [tableBounds, tableEntry_builtFile hk hsize, dataLen_builtTrack]
  change (_, if k + 1 < chunks.length then _ else _) = _
  split
  · next hnext => rw [tableEntry_builtFile hnext hsize, chunkOffset_succ hk]
  · rw [← chunkOffset_succ hk, show k + 1 = chunks.length by omega, chunkOffset_length]

/-- The whole table of a built file is one the player can serve. -/
theorem tableValid_builtFile (filename : Nat) (hpos : chunks ≠ [])
    (hsize : chunks.flatten.length < 2 ^ 32) (hlen : ∀ c ∈ chunks, 4 < c.length)
    (hmax : ∀ c ∈ chunks, c.length ≤ chunkMaxBytes) :
    TableValid (builtFile chunks) (builtTrack filename chunks) := by
  refine ⟨?_, fun k hk => ?_⟩
  · rw [tableEntry_builtFile (List.length_pos_of_ne_nil hpos) hsize]
    rfl
  · change k < chunks.length at hk
    have hin := List.getElem_mem hk
    have hend := chunkOffset_le chunks (k + 1)
    rw [chunkOffset_succ hk] at hend
    rw [tableBounds_builtFile hk hsize, BoundsValid, dataLen_builtTrack]
    have := hlen _ hin
    have hle := hmax _ hin
    unfold chunkMaxBytes at hle
    omega

theorem chunkBytes_builtFile {filename k : Nat} (hk : k < chunks.length)
    (hsize : chunks.flatten.length < 2 ^ 32) :
    chunkBytes (builtFile chunks) (builtTrack filename chunks) k = chunks[k] := by
  simp only [chunkBytes, tableBounds_builtFile hk hsize, Nat.add_sub_cancel_left]
  rw [← List.drop_drop]
  change (((builtFile chunks).drop (headerBlocks chunks.length * headerBlockSize)).drop _).take _ = _
  rw [drop_builtFile, flatten_slice hk]

/-- The reader hands out the chunks of a built file. -/
theorem readerSession_builtFile {filename : Nat} (hpos : chunks ≠ [])
    (hinv : RunInv (builtFile chunks) (builtTrack filename chunks) (builtTrack filename chunks))
    (hv : TableValid (builtFile chunks) (builtTrack filename chunks))
    (hsize : chunks.flatten.length < 2 ^ 32) :
    readerSession (builtFile chunks) (builtTrack filename chunks) 0 = (.ok, chunks) := by
  rw [readerSession_chunks hinv hv (List.length_pos_of_ne_nil hpos)]
  refine congrArg (Prod.mk EspErr.ok) (List.ext_getElem (by simp [builtTrack,
    invalidateLookupWindow]) fun k _ hk => ?_)
  rw [List.getElem_map, List.getElem_range, Nat.zero_add, chunkBytes_builtFile hk hsize]

end Built

/-! ## Write, read, decode -/

section RoundTrip
variable {zlibCrc32 : List UInt8 → Nat} {romCrc32 : List UInt8 → UInt32}
variable {packets : List Packet} {chunks : List Chunk} {file : List UInt8}

theorem buildJba_builtFile (h : buildJba chunks = .ok file) :
    chunks ≠ [] ∧ file = builtFile chunks := by
  obtain ⟨hpos, -, rfl⟩ := buildJba_ok h
  refine ⟨hpos, ?_⟩
  simp only [builtFile, tableBytes, paddingBytes, List.append_assoc]
  rfl

/-- Group by group, what the writer's chunks decode to. -/
theorem decode_chunks_of_groups (hcrc : ∀ bytes, (romCrc32 bytes).toNat = zlibCrc32 bytes)
    {groups : List (List Packet)} (hgroups : ∀ g ∈ groups, g ≠ [] ∧ ∀ p ∈ g, p ≠ [])
    (hall : List.Forall₂ (fun g c => buildChunk zlibCrc32 g = .ok c) groups chunks) :
    (∀ c ∈ chunks, 4 < c.length ∧ c.length ≤ chunkMaxBytes ∧ crcMatches romCrc32 c = true) ∧
      chunks.flatMap (decodeChunk romCrc32) = groups.flatten := by
  induction hall with
  | nil => exact ⟨fun c hc => absurd hc List.not_mem_nil, rfl⟩
  | @cons g c gs cs hc _ ih =>
    obtain ⟨hg, hp⟩ := hgroups g List.mem_cons_self
    obtain ⟨hlen, hmax, hmatch, hdec⟩ := decodeChunk_buildChunk hcrc hc hg hp
    obtain ⟨hrest, hflat⟩ := ih fun g' hg' => hgroups g' (List.mem_cons_of_mem _ hg')
    refine ⟨?_, by rw [List.flatMap_cons, List.flatten_cons, hdec, hflat]⟩
    intro d hd
    rcases List.mem_cons.mp hd with rfl | hd
    · exact ⟨hlen, hmax, hmatch⟩
    · exact hrest d hd

theorem decode_buildChunks (hcrc : ∀ bytes, (romCrc32 bytes).toNat = zlibCrc32 bytes)
    (hne : ∀ p ∈ packets, p ≠ []) (h : buildChunks zlibCrc32 packets = .ok chunks) :
    (∀ c ∈ chunks, 4 < c.length ∧ c.length ≤ chunkMaxBytes ∧ crcMatches romCrc32 c = true) ∧
      chunks.flatMap (decodeChunk romCrc32) = packets := by
  have hgroups : ∀ g ∈ packetGroups packets, g ≠ [] ∧ ∀ p ∈ g, p ≠ [] := by
    refine fun g hg => ⟨packetGroups_ne_nil hg, fun p hp => hne p ?_⟩
    rw [← packetGroups_flatten packets]
    exact List.mem_flatten_of_mem hg hp
  have hdec := decode_chunks_of_groups hcrc hgroups (buildChunksOf_ok h)
  rwa [packetGroups_flatten] at hdec

/-- A player that opened `file` as `track` gets `packets` back from `chunks`: in
every state of the window every chunk is resolved to valid bounds that enclose
its bytes, every CRC is correct, the reader hands out the chunks in order, and
the packet walk over them hands the decoder the packets. -/
structure PlaysBack (romCrc32 : List UInt8 → UInt32) (file : List UInt8) (track : TrackInfo)
    (chunks : List Chunk) (packets : List Packet) : Prop where
  count : track.lookupTableLen = chunks.length
  resolves : ∀ (ops : List WindowOp) (info : TrackInfo) (io : WindowIo) (k : Nat)
    (hk : k < chunks.length), run (windowStep file) track ops = some info → io.good →
    ∃ start stop, (getChunkBounds file io info k).1 = .ok (some (start, stop)) ∧
      BoundsValid track (start, stop) ∧
      (file.drop (track.dataOffset + start)).take (stop - start) = chunks[k]
  crc : ∀ c ∈ chunks, crcMatches romCrc32 c = true
  reads : readerSession file track 0 = (.ok, chunks)
  decodes : (readerSession file track 0).2.flatMap (decodeChunk romCrc32) = packets

/-- **Whole-file round trip of `.jba`.** What `make_album.py` writes for a list
of non-empty packets, the player accepts, resolves, verifies and decodes to
that list, whatever the lengths of the packets and the number of chunks. -/
theorem jba_round_trip (hcrc : ∀ bytes, (romCrc32 bytes).toNat = zlibCrc32 bytes)
    (hne : ∀ p ∈ packets, p ≠ []) (hchunks : buildChunks zlibCrc32 packets = .ok chunks)
    (hfile : buildJba chunks = .ok file) (hcount : chunks.length ≤ 86400) (filename : Nat) :
    ∃ track, loadTrackInfo filename {} file = .ok track ∧
      PlaysBack romCrc32 file track chunks packets := by
  obtain ⟨hpos, rfl⟩ := buildJba_builtFile hfile
  obtain ⟨hchunk, hdec⟩ := decode_buildChunks hcrc hne hchunks
  have hlen : ∀ c ∈ chunks, 4 < c.length := fun c hc => (hchunk c hc).1
  have hmax : ∀ c ∈ chunks, c.length ≤ chunkMaxBytes := fun c hc => (hchunk c hc).2.1
  have hload := loadTrackInfo_builtFile filename hpos hcount hlen hmax
  have hsize : chunks.flatten.length < 2 ^ 32 := by
    have := builtFile_lt hcount hmax
    omega
  have hinv := RunInv.of_load hload
  have hv := tableValid_builtFile filename hpos hsize hlen hmax
  have hread := readerSession_builtFile hpos hinv hv hsize
  refine ⟨_, hload, rfl, ?_, fun c hc => (hchunk c hc).2.2, hread, by rw [hread]; exact hdec⟩
  intro ops info io k hk hrun hio
  have hinfo : RunInv (builtFile chunks) (builtTrack filename chunks) info :=
    hinv.run hrun
  exact ⟨_, _, (servesTable_of_windowOk hinfo.same hinfo.geometry hinfo.window io k).whole hv hk hio,
    hv.2 k hk, chunkBytes_builtFile hk hsize⟩

/-- One byte of CRC-32, bit by bit with the reflected polynomial `0xEDB88320`. -/
def crc32Byte (crc : UInt32) (byte : UInt8) : UInt32 :=
  (List.range 8).foldl
    (fun c _ => if c &&& 1 = 1 then (c >>> 1) ^^^ 0xEDB88320 else c >>> 1) (crc ^^^ byte.toUInt32)

def crc32 (bytes : List UInt8) : UInt32 := (bytes.foldl crc32Byte 0xFFFFFFFF) ^^^ 0xFFFFFFFF

/-- The check value of CRC-32, over the digits 1 to 9. -/
example : crc32 [0x31, 0x32, 0x33, 0x34, 0x35, 0x36, 0x37, 0x38, 0x39] = 0xCBF43926 := by
  decide +kernel

/-- Fifty-two packets in two chunks, two of them with a long length prefix. -/
def samplePackets : List Packet :=
  List.replicate 50 [7] ++ [List.replicate 252 1, List.replicate 301 2]

theorem jba_round_trip_samplePackets :
    ∃ chunks file track, buildChunks (fun bytes => (crc32 bytes).toNat) samplePackets = .ok chunks ∧
      buildJba chunks = .ok file ∧ loadTrackInfo 0 {} file = .ok track ∧
      PlaysBack crc32 file track chunks samplePackets := by
  have hcrc : ∀ bytes, (crc32 bytes).toNat = (fun bytes => (crc32 bytes).toNat) bytes :=
    fun _ => rfl
  have hbound : ∀ g ∈ packetGroups samplePackets,
      (∀ p ∈ g, p.length ≤ 1275) ∧ 4 + payloadBound g ≤ maxChunkBytes := by decide +kernel
  obtain ⟨chunks, hchunks⟩ := buildChunks_of_le (fun bytes => (crc32 bytes).toNat) hbound
  have hcount : chunks.length = 2 := length_buildChunks hchunks
  have hpos : chunks ≠ [] := List.ne_nil_of_length_pos (by omega)
  have hmax : ∀ c ∈ chunks, c.length ≤ chunkMaxBytes := fun c hc =>
    (decode_buildChunks hcrc (by decide +kernel) hchunks).1 c hc |>.2.1
  have hsize := builtFile_lt (by rw [hcount]; decide) hmax
  obtain ⟨file, hfile⟩ := buildJba_of_le hpos (by unfold uint32Max; omega)
  obtain ⟨track, hload, hplays⟩ :=
    jba_round_trip hcrc (by decide +kernel) hchunks hfile (by omega) 0
  exact ⟨chunks, file, track, hchunks, hfile, hload, hplays⟩

end RoundTrip

end Jukeboy.Player.RoundTrip
