import Jukeboy.Formats.Jba
import Jukeboy.Formats.JbmFile
import Jukeboy.Formats.Ogg

/-! # Writing an album

`write_outputs` of `make_album.py` converts the input files one by one, asks for what it
cannot guess and writes the metadata last. It may raise at any point; what it has written by
then stays in the directory. -/
namespace Jukeboy.Formats.Album

open Jukeboy.Base Jukeboy.Base.Utf8 Jukeboy.Formats.Jba Jukeboy.Formats.Jbm
open Jukeboy.Formats.JbmFile Jukeboy.Formats.Ogg

/-! ## The directory -/

/-- What the files of the directory hold. -/
abbrev Directory := Text → Option (List UInt8)

def Directory.writeBytes (dir : Directory) (name : Text) (bytes : List UInt8) : Directory :=
  Function.update dir name (some bytes)

def Directory.unlink (dir : Directory) (name : Text) : Directory := Function.update dir name none

/-- A number as `:03d` and `%03lu` print it. -/
def padded (n : Nat) : Text := List.leftpad 3 '0' (Nat.toDigits 10 n)

/-- `f"{index:03d}.jba"`. -/
def outputName (index : Nat) : Text := padded index ++ ['.', 'j', 'b', 'a']

def jbmFilename : Text := ['a', 'l', 'b', 'u', 'm', '.', 'j', 'b', 'm']
def coverFilename : Text := ['c', 'o', 'v', 'e', 'r', '.', 'p', 'n', 'g']

/-! ## What is put in -/

/-- An input file, with what the calls on it give or raise. -/
structure AudioFile where
  stem : Text
  inferTrackInfo : Text × Text
  runFfmpeg : Except String Bytes
  probeDurationSeconds : Except String Int

/-- `coverArt` is what `extract_cover_art` leaves, or nothing, or that it raises. The `lines`
are what is typed, stripped, and `parseInt` is `int(raw, 10)`. -/
structure Input where
  audioFiles : List AudioFile
  coverArt : Except String (Option Bytes)
  inferAlbumName : Text
  lines : List Text
  parseInt : Text → Option Int

/-! ## The questions -/

def eofError : String := "EOF when reading a line"

def promptString (default : Text) : List Text → Except String (Text × List Text)
  | [] => .error eofError
  | value :: lines => .ok (if value ≠ [] then value else default, lines)

/-- The loop asks until it gets a number that fits. -/
def promptUint32 (parseInt : Text → Option Int) : List Text → Except String (Int × List Text)
  | [] => .error eofError
  | raw :: lines =>
    if raw = [] then .ok (0, lines)
    else
      match parseInt raw with
      | none => promptUint32 parseInt lines
      | some value =>
        if value < 0 ∨ value > 0xFFFFFFFF then promptUint32 parseInt lines else .ok (value, lines)

def promptTags : Nat → List Text → Except String (List Text × List Text)
  | 0, lines => .ok ([], lines)
  | n + 1, lines => do
    let (tag, lines) ← promptString [] lines
    let (tags, lines) ← promptTags n lines
    return (tag :: tags, lines)

/-- The artists of a track default to what its name says, and then to those of the album. -/
def promptArtists (artist : Text) :
    List TrackMetadata → List Text → Except String (List TrackMetadata × List Text)
  | [], lines => .ok ([], lines)
  | track :: tracks, lines => do
    let defaultArtist := if track.artists ≠ [] then track.artists else artist
    let (artists, lines) ← promptString defaultArtist lines
    let (tracks, lines) ← promptArtists artist tracks lines
    return ({ track with artists } :: tracks, lines)

def collectAlbumMetadata (input : Input) (trackInfos : List TrackMetadata) :
    Except String AlbumMetadata := do
  let (albumDescription, lines) ← promptString [] input.lines
  let (artist, lines) ← promptString [] lines
  let (year, lines) ← promptUint32 input.parseInt lines
  let (genre, lines) ← promptString [] lines
  let (tags, lines) ← promptTags tagCount lines
  let (tracks, _) ← promptArtists artist trackInfos lines
  return {
    albumName := input.inferAlbumName
    albumDescription, artist, year, genre, tags, tracks
    durationSec := (trackInfos.map TrackMetadata.durationSec).sum }

/-! ## The files -/

section Write

variable (crc32 : List UInt8 → UInt32)

/-- The chunks of an input file and the file of the album made of them. -/
def convert (file : AudioFile) : Except String (List Chunk × List UInt8) := do
  let oggBytes ← file.runFfmpeg
  let opusPackets ← extractOpusPackets oggBytes
  let chunks ← buildChunks (fun bytes => (crc32 bytes).toNat) opusPackets
  let jbaBytes ← buildJba chunks
  return (chunks, jbaBytes)

/-- The title of a track. -/
def AudioFile.title (file : AudioFile) : Text :=
  if file.inferTrackInfo.1 ≠ [] then file.inferTrackInfo.1 else file.stem

/-- The loop over the input files from number `index` on. -/
def writeTracks : Nat → List AudioFile → Directory → Directory × Except String (List TrackMetadata)
  | _, [], dir => (dir, .ok [])
  | index, file :: files, dir =>
    match convert crc32 file with
    | .error message => (dir, .error message)
    | .ok (chunks, jbaBytes) =>
      let dir := dir.writeBytes (outputName index) jbaBytes
      match file.probeDurationSeconds with
      | .error message => (dir, .error message)
      | .ok probed =>
        let durationSec := if probed = 0 then (chunks.length : Int) else probed
        let info := ⟨file.title, file.inferTrackInfo.2, durationSec, index⟩
        let (dir, infos) := writeTracks (index + 1) files dir
        (dir, infos.map fun infos => info :: infos)

/-- A cover there is replaces the one of before. -/
def writeCover (input : Input) (dir : Directory) : Directory × Except String Unit :=
  if input.audioFiles = [] then (dir, .ok ())
  else
    match input.coverArt with
    | .ok (some png) => (dir.writeBytes coverFilename png, .ok ())
    | .ok none => (dir.unlink coverFilename, .ok ())
    | .error message => (dir.unlink coverFilename, .error message)

/-- `write_outputs`: the directory it leaves, and the error it raises. -/
def writeOutputs (input : Input) (dir : Directory) : Directory × Except String Unit :=
  if input.audioFiles.length > maxTrackFiles then
    (dir, .error s!"at most {maxTrackFiles} files are supported per run")
  else
    match writeCover input dir with
    | (dir, .error message) => (dir, .error message)
    | (dir, .ok ()) =>
      match writeTracks crc32 0 input.audioFiles dir with
      | (dir, .error message) => (dir, .error message)
      | (dir, .ok trackInfos) =>
        match (do buildJbm crc32 (← collectAlbumMetadata input trackInfos)) with
        | .error message => (dir, .error message)
        | .ok bytes => (dir.writeBytes jbmFilename bytes, .ok ())

end Write

/-! ## Names -/

/-- The numbers are read back from the names. -/
theorem padded_injective {i j : Nat} (h : padded i = padded j) : i = j := by
  have hread (n : Nat) : Nat.ofDigitChars 10 (padded n) 0 = n := by
    rw [padded, List.leftpad, Nat.ofDigitChars_append, Nat.ofDigitChars_replicate_zero, Nat.mul_zero,
      Nat.ofDigitChars_ten_toDigits]
  rw [← hread i, ← hread j, h]

theorem outputName_injective {i j : Nat} (h : outputName i = outputName j) : i = j :=
  padded_injective (List.append_cancel_right h)

theorem outputName_ne_jbmFilename (index : Nat) : outputName index ≠ jbmFilename := by
  intro h
  have hlast := congrArg List.getLast? h
  rw [outputName, List.getLast?_append] at hlast
  exact absurd (show some 'a' = some 'm' from hlast) (by decide)

theorem coverFilename_ne_jbmFilename : coverFilename ≠ jbmFilename := by decide

@[simp] theorem writeBytes_same (dir : Directory) (name : Text) (bytes : List UInt8) :
    dir.writeBytes name bytes name = some bytes :=
  Function.update_self ..

theorem writeBytes_of_ne {dir : Directory} {name other : Text} {bytes : List UInt8}
    (h : other ≠ name) : dir.writeBytes name bytes other = dir other :=
  Function.update_of_ne h ..

theorem unlink_of_ne {dir : Directory} {name other : Text} (h : other ≠ name) :
    dir.unlink name other = dir other :=
  Function.update_of_ne h ..

/-! ## What the loop writes -/

variable {crc32 : List UInt8 → UInt32} {files : List AudioFile} {before after : Directory}
variable {infos : List TrackMetadata} {index : Nat}

/-- What a converted file is. -/
structure Converted (crc32 : List UInt8 → UInt32) (file : AudioFile) (packets : List Packet)
    (chunks : List Chunk) (jba : List UInt8) : Prop where
  extracted : ∃ ogg, file.runFfmpeg = .ok ogg ∧ extractOpusPackets ogg = .ok packets
  chunked : buildChunks (fun bytes => (crc32 bytes).toNat) packets = .ok chunks
  built : buildJba chunks = .ok jba

theorem converted_of_convert {file : AudioFile} {chunks : List Chunk} {jba : List UInt8}
    (h : convert crc32 file = .ok (chunks, jba)) :
    ∃ packets, Converted crc32 file packets chunks jba := by
  obtain ⟨ogg, hogg, h⟩ := bind_ok h
  obtain ⟨packets, hpackets, h⟩ := bind_ok h
  obtain ⟨chunks', hchunks, h⟩ := bind_ok h
  obtain ⟨jba', hjba, h⟩ := bind_ok h
  cases h
  exact ⟨packets, ⟨ogg, hogg, hpackets⟩, hchunks, hjba⟩

/-- The packets of a converted file are not empty. -/
theorem Converted.ne_nil {file : AudioFile} {packets : List Packet} {chunks : List Chunk}
    {jba : List UInt8} (h : Converted crc32 file packets chunks jba) : ∀ p ∈ packets, p ≠ [] := by
  obtain ⟨ogg, -, hextract⟩ := h.extracted
  obtain ⟨_, _, _, -, -, -, rfl, -⟩ := extractOpusPackets_ok hextract
  intro p hp
  exact of_decide_eq_true (List.mem_filter.mp hp).2

/-- The loop writes no file but those of its numbers, whether it raises or not. -/
theorem writeTracks_frame {name : Text} (hname : ∀ k, index ≤ k → name ≠ outputName k) :
    (writeTracks crc32 index files before).1 name = before name := by
  induction files generalizing index before with
  | nil => rfl
  | cons file files ih =>
    unfold writeTracks
    split
    · rfl
    · next chunks jbaBytes _ =>
      have hother : before.writeBytes (outputName index) jbaBytes name = before name :=
        writeBytes_of_ne (hname index (Nat.le_refl _))
      dsimp only
      split
      · exact hother
      · exact (ih fun k hk => hname k (Nat.le_of_succ_le hk)).trans hother

/-- What is known of a track after the loop. -/
structure WrittenTrack (crc32 : List UInt8 → UInt32) (after : Directory) (number : Nat)
    (file : AudioFile) (info : TrackMetadata) : Prop where
  converted : ∃ packets chunks jba, Converted crc32 file packets chunks jba ∧
    after (outputName number) = some jba
  trackName : info.trackName = file.title
  fileNum : info.fileNum = number

/-- By induction over the files: the later ones do not touch what is written here. -/
theorem writeTracks_ok (h : writeTracks crc32 index files before = (after, .ok infos)) :
    infos.length = files.length ∧ ∀ (k : Nat) file info, files[k]? = some file → infos[k]? = some info →
      WrittenTrack crc32 after (index + k) file info := by
  induction files generalizing index before infos with
  | nil =>
    cases h
    exact ⟨rfl, fun _ _ _ hfile => by cases hfile⟩
  | cons file files ih =>
    unfold writeTracks at h
    split at h
    · cases h
    · next chunks jbaBytes hconvert =>
      dsimp only at h
      split at h
      · cases h
      · next probed _ =>
        obtain ⟨hdir, hinfos⟩ := Prod.mk.inj h
        cases hrest : (writeTracks crc32 (index + 1) files
            (before.writeBytes (outputName index) jbaBytes)).2 with
        | error message =>
          rw [hrest] at hinfos
          cases hinfos
        | ok rest =>
          rw [hrest] at hinfos
          cases hinfos
          obtain ⟨hlen, htracks⟩ := ih (Prod.ext hdir hrest)
          refine ⟨congrArg Nat.succ hlen, fun k => ?_⟩
          cases k with
          | zero =>
            intro file' info hfile hinfo
            cases hfile
            cases hinfo
            obtain ⟨packets, hpackets⟩ := converted_of_convert hconvert
            refine ⟨⟨packets, chunks, jbaBytes, hpackets, ?_⟩, rfl, rfl⟩
            rw [← hdir, writeTracks_frame fun k hk heq => ?_]
            · exact writeBytes_same ..
            · have := outputName_injective heq
              omega
          | succ k =>
            intro file' info hfile hinfo
            rw [show index + (k + 1) = index + 1 + k by omega]
            exact htracks k file' info hfile hinfo

/-! ## The album -/

/-- The questions leave the tracks as they are, but for the artists. -/
theorem promptArtists_ok {artist : Text} {lines rest : List Text} {tracks : List TrackMetadata}
    (h : promptArtists artist infos lines = .ok (tracks, rest)) :
    tracks.length = infos.length ∧ ∀ (k : Nat) (track : TrackMetadata), tracks[k]? = some track →
      ∃ info : TrackMetadata, infos[k]? = some info ∧ track.trackName = info.trackName ∧
        track.fileNum = info.fileNum := by
  induction infos generalizing lines tracks with
  | nil =>
    cases h
    exact ⟨rfl, fun _ _ htrack => by cases htrack⟩
  | cons info infos ih =>
    obtain ⟨⟨artists, lines'⟩, -, h⟩ := bind_ok h
    obtain ⟨⟨tracks', lines''⟩, htracks, h⟩ := bind_ok h
    cases h
    obtain ⟨hlen, hall⟩ := ih htracks
    refine ⟨congrArg Nat.succ hlen, fun k track htrack => ?_⟩
    cases k with
    | zero =>
      cases htrack
      exact ⟨info, rfl, rfl, rfl⟩
    | succ k => exact hall k track htrack

theorem collectAlbumMetadata_ok {input : Input} {album : AlbumMetadata}
    (h : collectAlbumMetadata input infos = .ok album) :
    ∃ artist lines rest, promptArtists artist infos lines = .ok (album.tracks, rest) := by
  obtain ⟨⟨albumDescription, l₁⟩, -, h⟩ := bind_ok h
  obtain ⟨⟨artist, l₂⟩, -, h⟩ := bind_ok h
  obtain ⟨⟨year, l₃⟩, -, h⟩ := bind_ok h
  obtain ⟨⟨genre, l₄⟩, -, h⟩ := bind_ok h
  obtain ⟨⟨tags, l₅⟩, -, h⟩ := bind_ok h
  obtain ⟨⟨tracks, l₆⟩, htracks, h⟩ := bind_ok h
  cases h
  exact ⟨artist, l₅, l₆, htracks⟩

variable {input : Input}

theorem writeCover_frame {name : Text} (hname : name ≠ coverFilename) :
    (writeCover input before).1 name = before name := by
  unfold writeCover
  split
  · rfl
  · split
    · exact writeBytes_of_ne hname
    · exact unlink_of_ne hname
    · exact unlink_of_ne hname

/-- **A run that raises** leaves the metadata of before, if there is some. -/
theorem jbm_of_error {message : String}
    (h : (writeOutputs crc32 input before).2 = .error message) :
    (writeOutputs crc32 input before).1 jbmFilename = before jbmFilename := by
  have hcover : (writeCover input before).1 jbmFilename = before jbmFilename :=
    writeCover_frame coverFilename_ne_jbmFilename.symm
  unfold writeOutputs at h ⊢
  split
  · rfl
  · next hcount =>
    rw [if_neg hcount] at h
    revert h hcover
    rcases writeCover input before with ⟨dir, (_ | ⟨⟩)⟩
    · exact fun _ hcover => hcover
    · intro h hcover
      have htracks : (writeTracks crc32 0 input.audioFiles dir).1 jbmFilename = dir jbmFilename :=
        writeTracks_frame fun k _ => (outputName_ne_jbmFilename k).symm
      dsimp only at h hcover ⊢
      revert h htracks
      rcases writeTracks crc32 0 input.audioFiles dir with ⟨dir', (_ | trackInfos)⟩
      · exact fun _ htracks => htracks.trans hcover
      · intro h htracks
        dsimp only at h htracks ⊢
        split
        · exact htracks.trans hcover
        · next hbytes =>
          rw [hbytes] at h
          cases h

/-- What a run that raises nothing leaves in the directory. -/
structure Written (crc32 : List UInt8 → UInt32) (after : Directory) (files : List AudioFile)
    (album : AlbumMetadata) : Prop where
  jbm : ∃ bytes, buildJbm crc32 album = .ok bytes ∧ after jbmFilename = some bytes
  count : album.tracks.length = files.length
  tracks : ∀ (index : Nat) file track, files[index]? = some file → album.tracks[index]? = some track →
    WrittenTrack crc32 after index file track

theorem written_of_writeOutputs (h : writeOutputs crc32 input before = (after, .ok ())) :
    ∃ album, Written crc32 after input.audioFiles album := by
  unfold writeOutputs at h
  split at h
  · cases h
  · revert h
    rcases writeCover input before with ⟨dir, (_ | ⟨⟩)⟩
    · exact fun h => by cases h
    · dsimp only
      rcases hwrite : writeTracks crc32 0 input.audioFiles dir with ⟨dir', (_ | trackInfos)⟩
      · exact fun h => by cases h
      · dsimp only
        split
        · exact fun h => by cases h
        · next bytes hbytes =>
          intro h
          cases h
          obtain ⟨album, halbum, hbuild⟩ := bind_ok hbytes
          obtain ⟨hlen, htracks⟩ := writeTracks_ok hwrite
          obtain ⟨artist, lines, rest, hartists⟩ := collectAlbumMetadata_ok halbum
          obtain ⟨hcount, hsame⟩ := promptArtists_ok hartists
          refine ⟨album, ⟨bytes, hbuild, writeBytes_same ..⟩, hcount.trans hlen, ?_⟩
          intro index file track hfile htrack
          obtain ⟨info, hinfo, hname, hnum⟩ := hsame index track htrack
          obtain ⟨⟨packets, chunks, jba, hconverted, hafter⟩, htitle, hnumber⟩ :=
            htracks index file info hfile hinfo
          rw [Nat.zero_add] at hafter hnumber
          refine ⟨⟨packets, chunks, jba, hconverted, ?_⟩, hname.trans htitle, hnum.trans hnumber⟩
          rwa [writeBytes_of_ne (outputName_ne_jbmFilename index)]

end Jukeboy.Formats.Album
