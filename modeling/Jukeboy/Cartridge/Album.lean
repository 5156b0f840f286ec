import Jukeboy.Cartridge.Lifecycle
import Jukeboy.Formats.Album
import Jukeboy.Player.RoundTrip

/-! # From the input files to the speaker

The directory that `make_album.py` has written is put on a card. The cartridge service mounts
it, and the player opens the entries of its playlist. -/
namespace Jukeboy.Cartridge.Album

open Jukeboy.Base Jukeboy.Base.Utf8 Jukeboy.Formats.Jba Jukeboy.Formats.Jbm
open Jukeboy.Formats.JbmFile Jukeboy.Formats.Ogg Jukeboy.Formats.Album Jukeboy.Cartridge.Service
open Jukeboy.Player.Track Jukeboy.Player.LookupWindow Jukeboy.Player.Decode
open Jukeboy.Player.RoundTrip

/-! ## The playlist -/

/-- What `player_service_scan_playlist` sets the length of the playlist to. -/
def scanPlaylist (s : State) : Nat := if s.trackCount > maxTrackFiles then 0 else s.trackCount

/-- The buffers of the callers have room for the name. -/
def formatTrackFilename (fileNum : UInt32) : Option Text :=
  if fileNum.toNat > maxTrackFiles then none else some (padded fileNum.toNat ++ ['.', 'j', 'b', 'a'])

def playlistFilename (s : State) (index : Nat) : Option Text :=
  if index ≥ scanPlaylist s then none
  else
    match s.getMetadataTrack index with
    | none => none
    | some _ => formatTrackFilename (s.headerNumber (trackFileNumAt index))

/-! ## Mounting the album -/

variable {espRomCrc32Le : UInt32 → List UInt8 → UInt32} {s : State} {blob : List UInt8}

theorem loadMetadata_ready (hmounted : s.mounted = true) (hpos : 0 < blob.length)
    (hle : blob.length ≤ jbmMaxSizeBytes)
    (hvalid : validateMetadata espRomCrc32Le blob = (.ok, blob)) :
    loadMetadata espRomCrc32Le { jbm := some blob } s =
      ({ s with blob := some blob, status := .ready }, .ok) := by
  have hmax : jbmMaxSizeBytes < 2 ^ 31 := by decide
  have hstat : statSize blob.length = (blob.length : Int) := by
    unfold statSize
    dsimp only
    rw [Nat.mod_eq_of_lt (by omega), if_pos (by omega)]
  have hsize : ¬ ((blob.length : Int) ≤ 0 ∨ (blob.length : Int).toNat > jbmMaxSizeBytes) := by omega
  unfold loadMetadata
  dsimp only
  rw [if_neg (by rw [hmounted]; decide), if_neg (by decide), if_pos rfl, hstat, if_neg hsize,
    if_neg (by decide), if_neg (by decide), Int.toNat_natCast, List.take_length, hvalid]
  rfl

/-- Whether the card is mounted now or has been before, its metadata is loaded. -/
theorem mount_ready (hinit : s.initialised = true) (hpos : 0 < blob.length)
    (hle : blob.length ≤ jbmMaxSizeBytes)
    (hvalid : validateMetadata espRomCrc32Le blob = (.ok, blob)) :
    (mount espRomCrc32Le .ok { jbm := some blob } s).1.status = .ready ∧
      (mount espRomCrc32Le .ok { jbm := some blob } s).1.blob = some blob := by
  cases hmounted : s.mounted with
  | true =>
    rw [mount_mounted .ok _ hinit hmounted, loadMetadata_ready hmounted hpos hle hvalid]
    exact ⟨rfl, rfl⟩
  | false =>
    have hchanged : (s.change true).mounted = true := rfl
    rw [mount_works _ hinit hmounted, loadMetadata_ready hchanged hpos hle hvalid]
    exact ⟨rfl, rfl⟩

/-- The file of the metadata passes the validation unchanged, and is not too long. -/
theorem validateMetadata_buildJbm {crc32 : List UInt8 → UInt32} {album : AlbumMetadata}
    (hcrc : ∀ bytes, crc32 bytes = espRomCrc32Le 0 bytes) (h : buildJbm crc32 album = .ok blob) :
    validateMetadata espRomCrc32Le blob = (.ok, blob) ∧ ReadsBack blob album ∧ 0 < blob.length ∧
      blob.length ≤ jbmMaxSizeBytes := by
  obtain ⟨hcount, hyear, hduration, htracks, rfl⟩ := buildJbm_ok h
  have hread := readsBack_jbmBytes (crc32 (jbmBytes album 0)).toNat hcount hyear hduration htracks
  have hvalid := validateMetadata_of_valid (valid_jbmBytes hcrc hcount hread)
  rw [sanitize_eq_self hread] at hvalid
  have hlen := length_jbmBytes album (crc32 (jbmBytes album 0)).toNat
  refine ⟨hvalid, hread, ?_, ?_⟩
  · rw [hlen]
    exact Nat.lt_of_lt_of_le (show 0 < headerBytes by decide) (Nat.le_add_right _ _)
  · rw [hlen]
    exact Nat.add_le_add_left (Nat.mul_le_mul_right _ hcount) _

/-! ## Opening a track -/

section Track

variable {crc32 : List UInt8 → UInt32} {file : AudioFile} {packets : List Packet}
variable {chunks : List Chunk} {jba : List UInt8}

/-- A track that is not too long plays. -/
theorem plays_of_le (hcrc : ∀ bytes, crc32 bytes = espRomCrc32Le 0 bytes)
    (h : Converted crc32 file packets chunks jba) (hcount : chunks.length ≤ maxLookupEntries)
    (filename : Nat) : ∃ track, loadTrackInfo filename {} jba = .ok track ∧
      PlaysBack (espRomCrc32Le 0) jba track chunks packets := by
  have hsame : ∀ bytes, (espRomCrc32Le 0 bytes).toNat = (crc32 bytes).toNat := fun bytes =>
    congrArg UInt32.toNat (hcrc bytes).symm
  obtain ⟨hpos, rfl⟩ := buildJba_builtFile h.built
  obtain ⟨hchunk, hdecode⟩ := decode_buildChunks hsame h.ne_nil h.chunked
  have hlen : ∀ c ∈ chunks, 4 < c.length := fun c hc => (hchunk c hc).1
  have hmax : ∀ c ∈ chunks, c.length ≤ chunkMaxBytes := fun c hc => (hchunk c hc).2.1
  have hload := loadTrackInfo_builtFile filename hpos hcount hlen hmax
  have hsize : chunks.flatten.length < 2 ^ 32 := by
    have := builtFile_lt hcount hmax
    omega
  have hinv := RunInv.of_load hload
  have hvalid := tableValid_builtFile filename hpos hsize hlen hmax
  have hread := readerSession_builtFile hpos hinv hvalid hsize
  refine ⟨_, hload, {
    count := rfl
    resolves := fun ops info io k hk hrun hio => ?_
    crc := fun c hc => (hchunk c hc).2.2
    reads := hread
    decodes := by rw [hread]; exact hdecode }⟩
  have hinfo := hinv.run hrun
  have hserves := servesTable_of_windowOk hinfo.same hinfo.geometry hinfo.window io k
  exact ⟨_, _, hserves.whole hvalid hk hio, hvalid.2 k hk, chunkBytes_builtFile hk hsize⟩

/-- A track of more than a day is refused, not cut. -/
theorem refused_of_lt (h : Converted crc32 file packets chunks jba)
    (hcount : maxLookupEntries < chunks.length) (filename : Nat) :
    loadTrackInfo filename {} jba = .error .invalidSize := by
  obtain ⟨-, hsize, -⟩ := buildJba_ok h.built
  obtain ⟨-, rfl⟩ := buildJba_builtFile h.built
  have hblocks := headerLen_le_headerBlocks chunks.length
  have hheader : readHeader ((builtFile chunks).take cartridgeReadBufSize) =
      ⟨jbaVersion, headerBlocks chunks.length, chunks.length⟩ := by
    unfold headerLen headerBlockSize uint32Max at *
    exact readHeader_builtFile (by omega) (by omega)
  have hprefix : ¬ ((builtFile chunks).take cartridgeReadBufSize).length < headerLen := by
    rw [List.length_take, length_builtFile]
    unfold headerLen cartridgeReadBufSize at *
    omega
  have hlong : decide (chunks.length > maxLookupEntries) = true := decide_eq_true hcount
  unfold loadTrackInfo
  dsimp only
  rw [hheader, decide_eq_false hprefix]
  dsimp only
  rw [hlong]
  cases decide (chunks.length > (sizeMax - headerLen) / 4) with
  | true => rfl
  | false => rfl

end Track

/-! ## The album plays -/

/-- The player has the title of an input file, finds the track under its number, and gets the
packets of the input back, unless the track lasts more than a day. -/
structure Plays (crc32 : List UInt8 → UInt32) (espRomCrc32Le : UInt32 → List UInt8 → UInt32)
    (card : Directory) (s : State) (index : Nat) (file : AudioFile) : Prop where
  title : s.getTrackName index = some (trackNameAt index) ∧
    ∃ blob, s.blob = some blob ∧ ReadsText blob (trackNameAt index) trackNameBytes file.title
  opens : ∃ name jba packets chunks, playlistFilename s index = some name ∧ card name = some jba ∧
    Converted crc32 file packets chunks jba ∧
    (chunks.length ≤ maxLookupEntries → ∃ track, loadTrackInfo index {} jba = .ok track ∧
      PlaysBack (espRomCrc32Le 0) jba track chunks packets) ∧
    (maxLookupEntries < chunks.length → loadTrackInfo index {} jba = .error .invalidSize)

theorem trackCount_eq {album : AlbumMetadata} (hblob : s.blob = some blob)
    (hread : ReadsBack blob album) : s.trackCount = album.tracks.length := by
  rw [State.trackCount, hblob]
  exact hread.trackCount

theorem getMetadataTrack_of_lt {index : Nat} (hblob : s.blob = some blob)
    (h : index < s.trackCount) : s.getMetadataTrack index = some (trackAt index) := by
  rw [State.getMetadataTrack, if_neg]
  rw [hblob, not_or]
  exact ⟨Bool.false_ne_true, Nat.not_le.mpr h⟩

/-- The player looks for a track under the name the tool has given it. -/
theorem playlistFilename_eq {index : Nat} (hblob : s.blob = some blob) (hlt : index < s.trackCount)
    (hle : s.trackCount ≤ maxTrackFiles) (hnum : (u32At blob (trackFileNumAt index)).toNat = index) :
    playlistFilename s index = some (outputName index) := by
  have hscan : scanPlaylist s = s.trackCount := if_neg (Nat.not_lt.mpr hle)
  have hnumber : s.headerNumber (trackFileNumAt index) = u32At blob (trackFileNumAt index) := by
    rw [State.headerNumber, hblob]
  rw [playlistFilename, hscan, if_neg (Nat.not_le.mpr hlt), getMetadataTrack_of_lt hblob hlt]
  dsimp only
  rw [hnumber, formatTrackFilename, hnum, if_neg (by omega)]
  rfl

theorem plays_of_written {crc32 : List UInt8 → UInt32} {card : Directory} {album : AlbumMetadata}
    {files : List AudioFile} (hcrc : ∀ bytes, crc32 bytes = espRomCrc32Le 0 bytes)
    (hwritten : Written crc32 card files album) (hblob : s.blob = some blob)
    (hread : ReadsBack blob album) (hle : s.trackCount ≤ maxTrackFiles) {index : Nat}
    {file : AudioFile} (hfile : files[index]? = some file) :
    Plays crc32 espRomCrc32Le card s index file := by
  have hcount : s.trackCount = album.tracks.length := trackCount_eq hblob hread
  have hlt : index < album.tracks.length := by
    rw [hwritten.count]
    exact (List.getElem?_eq_some_iff.mp hfile).1
  have htrack := List.getElem?_eq_getElem hlt
  obtain ⟨⟨packets, chunks, jba, hconverted, hcard⟩, hname, hnumber⟩ :=
    hwritten.tracks index file _ hfile htrack
  obtain ⟨htitle, -, -, hnum⟩ := hread.tracks index _ htrack
  have hnum : (u32At blob (trackFileNumAt index)).toNat = index := by
    rw [hnumber] at hnum
    exact Int.ofNat_inj.mp hnum
  rw [← hcount] at hlt
  have hthere := getMetadataTrack_of_lt hblob hlt
  constructor
  · refine ⟨by rw [State.getTrackName, hthere]; rfl, blob, hblob, ?_⟩
    rwa [← hname]
  · exact ⟨outputName index, jba, packets, chunks, playlistFilename_eq hblob hlt hle hnum, hcard,
      hconverted, fun hshort => plays_of_le hcrc hconverted hshort index,
      fun hlong => refused_of_lt hconverted hlong index⟩

/-- **An album plays.** A directory that the tool has written without an error, over whatever
was there before, is one the service mounts and the player plays: every input file is in the
playlist, in its place. -/
theorem album_plays (hcrc : ∀ bytes, crc32 bytes = espRomCrc32Le 0 bytes)
    {input : Input} {before card : Directory} (hinit : s.initialised = true)
    (hwrite : writeOutputs crc32 input before = (card, .ok ())) :
    let mounted := (mount espRomCrc32Le .ok { jbm := card jbmFilename } s).1
    mounted.status = .ready ∧ mounted.trackCount = input.audioFiles.length ∧
      ∀ index file, input.audioFiles[index]? = some file →
        Plays crc32 espRomCrc32Le card mounted index file := by
  intro mounted
  obtain ⟨album, hwritten⟩ := written_of_writeOutputs hwrite
  obtain ⟨bytes, hbuild, hjbm⟩ := hwritten.jbm
  obtain ⟨hvalid, hread, hpos, hle⟩ := validateMetadata_buildJbm hcrc hbuild
  obtain ⟨hready, hblob⟩ : mounted.status = .ready ∧ mounted.blob = some bytes := by
    unfold mounted
    rw [hjbm]
    exact mount_ready hinit hpos hle hvalid
  have hcount : mounted.trackCount = album.tracks.length := trackCount_eq hblob hread
  have hmax : mounted.trackCount ≤ maxTrackFiles := by
    rw [hcount]
    exact (buildJbm_ok hbuild).1
  exact ⟨hready, hcount.trans hwritten.count, fun index file hfile =>
    plays_of_written hcrc hwritten hblob hread hmax hfile⟩

/-- The two packets of the header and one of sound, on a page. -/
def onePage : Page where
  header := List.replicate 22 0
  segments := [8, 8, 1]
  body := opusHead ++ opusTags ++ [7]
  header_length := rfl
  segments_le := by decide
  body_length := rfl

def oneFile : AudioFile := ⟨['a'], ([], []), .ok (stream [onePage]), .ok 0⟩

def oneInput : Input := ⟨[oneFile], .ok none, [], List.replicate 10 [], fun _ => none⟩

theorem convert_oneFile :
    ∃ chunks jba, convert (crc32From 0) oneFile = .ok (chunks, jba) ∧ chunks.length = 1 := by
  have hlaid : LaidOut [opusHead, opusTags, [7]] [onePage] := ⟨by decide, by decide⟩
  have hpackets : extractOpusPackets (stream [onePage]) = .ok [[7]] :=
    extractOpusPackets_stream hlaid (by decide) (by decide) (by decide) (by decide)
  simp only [convert, oneFile, hpackets, bind, Except.bind]
  exact ⟨_, _, rfl, rfl⟩

/-- The album of the answers, which are all empty. -/
def oneAlbum : AlbumMetadata :=
  ⟨[], [], [], 0, 1, [], List.replicate 5 [], [⟨['a'], [], 1, 0⟩]⟩

theorem writeOutputs_oneInput :
    ∃ card, writeOutputs (crc32From 0) oneInput (fun _ => none) = (card, .ok ()) := by
  obtain ⟨chunks, jba, hconvert, hone⟩ := convert_oneFile
  have hcover : writeCover oneInput (fun _ => none) =
      (Directory.unlink (fun _ => none) coverFilename, .ok ()) := rfl
  have htracks (dir : Directory) : writeTracks (crc32From 0) 0 oneInput.audioFiles dir =
      (dir.writeBytes (outputName 0) jba, .ok oneAlbum.tracks) := by
    simp only [oneInput, writeTracks, hconvert]
    dsimp only [oneFile]
    rw [if_pos rfl, hone]
    rfl
  have hcollect : collectAlbumMetadata oneInput oneAlbum.tracks = .ok oneAlbum := rfl
  obtain ⟨bytes, hbytes⟩ : ∃ bytes, buildJbm (crc32From 0) oneAlbum = .ok bytes :=
    buildJbm_of_isUint32 (by decide) (by decide) (by decide) (by decide)
  refine ⟨((Directory.unlink (fun _ => none) coverFilename).writeBytes (outputName 0) jba).writeBytes
    jbmFilename bytes, ?_⟩
  rw [writeOutputs, if_neg (by decide), hcover]
  simp only [htracks, hcollect, bind, Except.bind, hbytes]

theorem album_plays_oneInput : ∃ card,
    writeOutputs (crc32From 0) oneInput (fun _ => none) = (card, .ok ()) ∧
      Plays (crc32From 0) crc32From card
        (mount crc32From .ok { jbm := card jbmFilename } { off with initialised := true }).1 0
        oneFile := by
  obtain ⟨card, hwrite⟩ := writeOutputs_oneInput
  have hcrc : ∀ bytes, crc32From 0 bytes = crc32From 0 bytes := fun _ => rfl
  have hplays := album_plays hcrc (s := { off with initialised := true }) rfl hwrite
  exact ⟨card, hwrite, hplays.2.2 0 oneFile rfl⟩

end Jukeboy.Cartridge.Album
