import Jukeboy.Base.ByteLayout
import Jukeboy.Base.EspErr
import Jukeboy.Base.Utf8
import Jukeboy.Formats.Jbm
import Mathlib.Data.List.TakeWhile

/-! # Writing and validating a .jbm file

`build_jbm` of `tools/make_album.py` packs an album's metadata; the cartridge service
checks the bytes and reads them through its packed structs. -/
namespace Jukeboy.Formats.JbmFile

open Jukeboy.Base Jukeboy.Base.Utf8 Jukeboy.Base.LittleEndian Jukeboy.Base.ByteFile
open Jukeboy.Base.ByteLayout Jukeboy.Formats.Jbm

def jbmVersion : Nat := 1
def albumNameBytes : Nat := 128
def albumDescriptionBytes : Nat := 1024
def artistBytes : Nat := 256
def genreBytes : Nat := 64
def tagCount : Nat := 5
def tagBytes : Nat := 32
def trackNameBytes : Nat := 128
def trackArtistsBytes : Nat := 256

/-! ## The tool -/

/-- `TrackMetadata`. -/
structure TrackMetadata where
  trackName : Text
  artists : Text
  durationSec : Int
  fileNum : Int

/-- `AlbumMetadata`. -/
structure AlbumMetadata where
  albumName : Text
  albumDescription : Text
  artist : Text
  year : Int
  durationSec : Int
  genre : Text
  tags : List Text
  tracks : List TrackMetadata

/-- `encode_fixed_string`. -/
def encodeFixedString (value : Text) (size : Nat) : List UInt8 :=
  let encoded := encode value
  let encoded := if encoded.length ≥ size then encoded.take (size - 1) else encoded
  encoded ++ [0] ++ List.replicate (size - encoded.length - 1) 0

/-- `require_uint32`. -/
def requireUint32 (value : Int) (description : String) : Except String Unit :=
  if value < 0 ∨ value > 0xFFFFFFFF then .error s!"{description} must fit in uint32; got {value}"
  else .ok ()

/-- The loop of `build_jbm` over the tracks. -/
def buildTracks : List TrackMetadata → Except String (List UInt8)
  | [] => .ok []
  | track :: tracks => do
    requireUint32 track.durationSec ("duration for track " ++ toString track.fileNum)
    requireUint32 track.fileNum ("file number for track " ++ toString track.fileNum)
    let entry := encodeFixedString track.trackName trackNameBytes ++
      encodeFixedString track.artists trackArtistsBytes ++ leBytes 4 track.durationSec.toNat ++
      leBytes 4 track.fileNum.toNat
    let rest ← buildTracks tracks
    return entry ++ rest

/-- `build_jbm`, over the checksum `binascii.crc32` computes. -/
def buildJbm (crc32 : List UInt8 → UInt32) (album : AlbumMetadata) :
    Except String (List UInt8) := do
  if album.tracks.length > maxTrackFiles then
    throw s!"track count exceeds {maxTrackFiles}"
  requireUint32 album.year "album year"
  requireUint32 album.durationSec "album duration"
  requireUint32 album.tracks.length "track count"
  let tags := (List.range tagCount).flatMap fun index =>
    encodeFixedString (album.tags.getD index []) tagBytes
  let header := leBytes 4 jbmVersion ++ leBytes 4 0 ++
    encodeFixedString album.albumName albumNameBytes ++
    encodeFixedString album.albumDescription albumDescriptionBytes ++
    encodeFixedString album.artist artistBytes ++ leBytes 4 album.year.toNat ++
    leBytes 4 album.durationSec.toNat ++ encodeFixedString album.genre genreBytes ++ tags ++
    leBytes 4 album.tracks.length
  let tracks ← buildTracks album.tracks
  let payload := header ++ tracks
  requireUint32 payload.length "JBM metadata size"
  return overwrite payload 4 (leBytes 4 (crc32 payload).toNat)

/-! ## The packed structs -/

/-- The sizes of the fields of `jukeboy_jbm_header_t`. -/
def headerSizes : List Nat :=
  [4, 4, albumNameBytes, albumDescriptionBytes, artistBytes, 4, 4, genreBytes] ++
    List.replicate tagCount tagBytes ++ [4]

/-- The sizes of the fields of `jukeboy_jbm_track_t`. -/
def trackSizes : List Nat := [trackNameBytes, trackArtistsBytes, 4, 4]

example : headerSizes.sum = headerBytes ∧ trackSizes.sum = trackEntryBytes := by decide

def versionAt : Nat := offset headerSizes 0
def checksumAt : Nat := offset headerSizes 1
def albumNameAt : Nat := offset headerSizes 2
def albumDescriptionAt : Nat := offset headerSizes 3
def artistAt : Nat := offset headerSizes 4
def yearAt : Nat := offset headerSizes 5
def durationSecAt : Nat := offset headerSizes 6
def genreAt : Nat := offset headerSizes 7
def tagAt (index : Nat) : Nat := offset headerSizes (8 + index)
def trackCountAt : Nat := offset headerSizes 13

/-- Where track entry `index` starts. -/
def trackAt (index : Nat) : Nat := headerBytes + trackEntryBytes * index

def trackNameAt (index : Nat) : Nat := trackAt index + offset trackSizes 0
def trackArtistsAt (index : Nat) : Nat := trackAt index + offset trackSizes 1
def trackDurationSecAt (index : Nat) : Nat := trackAt index + offset trackSizes 2
def trackFileNumAt (index : Nat) : Nat := trackAt index + offset trackSizes 3

/-- A character array of a struct, read as a C string. -/
def stringAt (blob : List UInt8) (start size : Nat) : List UInt8 :=
  (slice blob start size).takeWhile (· != 0)

/-! ## The firmware -/

/-- The bytes `cartridge_service_sanitize_metadata_strings` writes a NUL to, in its order. -/
def lastBytes (trackCount : Nat) : List Nat :=
  [albumNameAt + albumNameBytes - 1, albumDescriptionAt + albumDescriptionBytes - 1,
    artistAt + artistBytes - 1, genreAt + genreBytes - 1] ++
    ((List.range tagCount).map fun index => tagAt index + tagBytes - 1) ++
    (List.range trackCount).flatMap fun index =>
      [trackNameAt index + trackNameBytes - 1, trackArtistsAt index + trackArtistsBytes - 1]

/-- `cartridge_service_sanitize_metadata_strings`. No byte it writes is of the track count. -/
def sanitizeMetadataStrings (blob : List UInt8) : List UInt8 :=
  zeroAt (lastBytes (u32At blob trackCountAt).toNat) blob

/-- `cartridge_service_validate_metadata` of a blob, over the checksum `esp_rom_crc32_le`
computes: what it returns, and the blob it leaves. -/
def validateMetadata (espRomCrc32Le : UInt32 → List UInt8 → UInt32) (blob : List UInt8) :
    EspErr × List UInt8 :=
  if blob.length < headerBytes then (.invalidSize, blob)
  else if (u32At blob versionAt).toNat ≠ jbmVersion then (.notSupported, blob)
  else if (u32At blob trackCountAt).toNat > maxTrackFiles then (.invalidSize, blob)
  else
    let expectedSize := headerBytes + (u32At blob trackCountAt).toNat * trackEntryBytes
    if blob.length ≠ expectedSize then (.invalidSize, blob)
    else
      let storedChecksum := u32At blob checksumAt
      let cleared := overwrite blob checksumAt (leBytes 4 0)
      let computedChecksum := espRomCrc32Le 0 cleared
      let blob := overwrite cleared checksumAt (leBytes 4 storedChecksum.toNat)
      if computedChecksum ≠ storedChecksum then (.invalidCrc, blob)
      else (.ok, sanitizeMetadataStrings blob)

/-! ## A text field -/

section Text

variable {value : Text} {size : Nat}

/-- What fits, and zeros behind it. -/
theorem encodeFixedString_eq (h : 0 < size) :
    encodeFixedString value size = (encode value).take (size - 1) ++
      List.replicate (size - ((encode value).take (size - 1)).length) 0 := by
  have hfits : (if (encode value).length ≥ size then (encode value).take (size - 1)
      else encode value) = (encode value).take (size - 1) := by
    split
    · rfl
    · rw [List.take_of_length_le (by omega)]
  have hlen : ((encode value).take (size - 1)).length ≤ size - 1 := List.length_take_le _ _
  have hzeros : size - ((encode value).take (size - 1)).length =
      (size - ((encode value).take (size - 1)).length - 1) + 1 := by omega
  rw [encodeFixedString, hfits, hzeros, List.replicate_succ, List.append_assoc]
  rfl

theorem length_encodeFixedString (h : 0 < size) : (encodeFixedString value size).length = size := by
  have hlen : ((encode value).take (size - 1)).length ≤ size - 1 := List.length_take_le _ _
  rw [encodeFixedString_eq h, List.length_append, List.length_replicate]
  omega

theorem getElem?_encodeFixedString (h : 0 < size) :
    (encodeFixedString value size)[size - 1]? = some 0 := by
  have hlen : ((encode value).take (size - 1)).length ≤ size - 1 := List.length_take_le _ _
  rw [encodeFixedString_eq h, List.getElem?_append_right hlen,
    List.getElem?_replicate_of_lt (by omega)]

theorem takeWhile_append_zeros (bytes : List UInt8) (n : Nat) :
    (bytes ++ List.replicate n 0).takeWhile (· != 0) = bytes.takeWhile (· != 0) := by
  induction bytes with
  | nil => cases n <;> rfl
  | cons b bytes ih =>
    rw [List.cons_append, List.takeWhile_cons, List.takeWhile_cons, ih]

theorem takeWhile_eq_self {bytes : List UInt8} (h : 0 ∉ bytes) :
    bytes.takeWhile (· != 0) = bytes := by
  rw [List.takeWhile_eq_self_iff]
  intro b hb
  exact bne_iff_ne.mpr fun hzero => h (hzero ▸ hb)

/-- The field at `start` of a blob reads back this text: a NUL-terminated prefix of its
encoding, cut short only where that does not fit, and all of it where it fits and has no
NUL. -/
structure ReadsText (blob : List UInt8) (start size : Nat) (value : Text) : Prop where
  terminated : (slice blob start size)[size - 1]? = some 0
  isPrefix : stringAt blob start size <+: encode value
  cut : (encode value).length < size → encode value <+: slice blob start size
  whole : (encode value).length < size → 0 ∉ encode value →
    stringAt blob start size = encode value

theorem readsText_of_slice {blob : List UInt8} {start : Nat} (hpos : 0 < size)
    (h : slice blob start size = encodeFixedString value size) :
    ReadsText blob start size value := by
  have hstring : stringAt blob start size =
      ((encode value).take (size - 1)).takeWhile (· != 0) := by
    rw [stringAt, h, encodeFixedString_eq hpos, takeWhile_append_zeros]
  refine ⟨?_, ?_, ?_, ?_⟩
  · rw [h]
    exact getElem?_encodeFixedString hpos
  · rw [hstring]
    exact (List.takeWhile_prefix _).trans (List.take_prefix _ _)
  · intro hfits
    rw [h, encodeFixedString_eq hpos, List.take_of_length_le (by omega)]
    exact List.prefix_append _ _
  · intro hfits hnul
    rw [hstring, List.take_of_length_le (by omega), takeWhile_eq_self hnul]

end Text

/-! ## What the tool wrote -/

/-- The fields of the header, with this checksum. -/
def headerParts (album : AlbumMetadata) (checksum : Nat) : List (List UInt8) :=
  [leBytes 4 jbmVersion, leBytes 4 checksum, encodeFixedString album.albumName albumNameBytes,
    encodeFixedString album.albumDescription albumDescriptionBytes,
    encodeFixedString album.artist artistBytes, leBytes 4 album.year.toNat,
    leBytes 4 album.durationSec.toNat, encodeFixedString album.genre genreBytes] ++
    ((List.range tagCount).map fun index =>
      encodeFixedString (album.tags.getD index []) tagBytes) ++
    [leBytes 4 album.tracks.length]

def trackParts (track : TrackMetadata) : List (List UInt8) :=
  [encodeFixedString track.trackName trackNameBytes,
    encodeFixedString track.artists trackArtistsBytes, leBytes 4 track.durationSec.toNat,
    leBytes 4 track.fileNum.toNat]

def trackBytes (track : TrackMetadata) : List UInt8 := (trackParts track).flatten

/-- The file of an album, with this checksum. -/
def jbmBytes (album : AlbumMetadata) (checksum : Nat) : List UInt8 :=
  (headerParts album checksum).flatten ++ (album.tracks.map trackBytes).flatten

theorem sizes_headerParts (album : AlbumMetadata) (checksum : Nat) :
    (headerParts album checksum).map List.length = headerSizes := by
  have htag (index : Nat) :
      (encodeFixedString (album.tags.getD index []) tagBytes).length = tagBytes :=
    length_encodeFixedString (by decide)
  simp only [headerParts, headerSizes, List.map_append, List.map_cons, List.map_nil, List.map_map,
    Function.comp_def, htag, length_leBytes,
    length_encodeFixedString (show 0 < albumNameBytes by decide),
    length_encodeFixedString (show 0 < albumDescriptionBytes by decide),
    length_encodeFixedString (show 0 < artistBytes by decide),
    length_encodeFixedString (show 0 < genreBytes by decide)]
  rfl

theorem sizes_trackParts (track : TrackMetadata) :
    (trackParts track).map List.length = trackSizes := by
  simp only [trackParts, trackSizes, List.map_cons, List.map_nil, length_leBytes,
    length_encodeFixedString (show 0 < trackNameBytes by decide),
    length_encodeFixedString (show 0 < trackArtistsBytes by decide)]

theorem length_header (album : AlbumMetadata) (checksum : Nat) :
    (headerParts album checksum).flatten.length = headerBytes := by
  rw [List.length_flatten, sizes_headerParts]
  rfl

theorem length_trackBytes (track : TrackMetadata) : (trackBytes track).length = trackEntryBytes := by
  rw [trackBytes, List.length_flatten, sizes_trackParts]
  rfl

theorem sizes_tracks (tracks : List TrackMetadata) :
    (tracks.map trackBytes).map List.length = List.replicate tracks.length trackEntryBytes := by
  rw [List.map_map, List.eq_replicate_iff]
  refine ⟨List.length_map _, fun n hn => ?_⟩
  obtain ⟨track, -, rfl⟩ := List.mem_map.mp hn
  exact length_trackBytes track

theorem length_jbmBytes (album : AlbumMetadata) (checksum : Nat) :
    (jbmBytes album checksum).length = headerBytes + album.tracks.length * trackEntryBytes := by
  rw [jbmBytes, List.length_append, length_header, List.length_flatten, sizes_tracks,
    List.sum_replicate_nat]

/-- A number that a field of 32 bits holds. -/
def IsUint32 (value : Int) : Prop := 0 ≤ value ∧ value ≤ 0xFFFFFFFF

instance (value : Int) : Decidable (IsUint32 value) := inferInstanceAs (Decidable (_ ∧ _))

theorem requireUint32_ok {value : Int} {description : String}
    (h : requireUint32 value description = .ok ()) : IsUint32 value := by
  unfold requireUint32 at h
  split at h
  · cases h
  · unfold IsUint32
    omega

theorem buildTracks_ok {tracks : List TrackMetadata} {bytes : List UInt8}
    (h : buildTracks tracks = .ok bytes) :
    bytes = (tracks.map trackBytes).flatten ∧
      ∀ track ∈ tracks, IsUint32 track.durationSec ∧ IsUint32 track.fileNum := by
  induction tracks generalizing bytes with
  | nil =>
    cases h
    exact ⟨rfl, List.forall_mem_nil _⟩
  | cons track tracks ih =>
    obtain ⟨_, hduration, h⟩ := bind_ok h
    obtain ⟨_, hfile, h⟩ := bind_ok h
    obtain ⟨rest, hrest, h⟩ := bind_ok h
    obtain ⟨rfl, hall⟩ := ih hrest
    cases h
    refine ⟨?_, List.forall_mem_cons.mpr
      ⟨⟨requireUint32_ok hduration, requireUint32_ok hfile⟩, hall⟩⟩
    simp [trackBytes, trackParts]

/-- The checksum is the only thing that a second value of it changes. -/
theorem overwrite_jbmBytes (album : AlbumMetadata) (old new : Nat) :
    overwrite (jbmBytes album old) checksumAt (leBytes 4 new) = jbmBytes album new := by
  have hsplit (checksum : Nat) : ∃ rest, ∀ c, jbmBytes album c =
      leBytes 4 jbmVersion ++ (leBytes 4 c ++ rest) := by
    refine ⟨(headerParts album checksum).tail.tail.flatten ++
      (album.tracks.map trackBytes).flatten, fun c => ?_⟩
    simp [jbmBytes, headerParts]
  obtain ⟨rest, hrest⟩ := hsplit 0
  have hstart : checksumAt = 4 := by decide
  rw [hrest, hrest, hstart, overwrite, resize, length_leBytes,
    List.take_left' (length_leBytes 4 _), show 4 + 4 = 8 from rfl]
  have hdrop : (leBytes 4 jbmVersion ++ (leBytes 4 old ++ rest)).drop 8 = rest := by
    rw [show 8 = 4 + 4 from rfl, ← List.drop_drop, List.drop_left' (length_leBytes 4 _),
      List.drop_left' (length_leBytes 4 _)]
  have hlong : 4 - (leBytes 4 jbmVersion ++ (leBytes 4 old ++ rest)).length = 0 := by
    simp only [List.length_append, length_leBytes]
    omega
  rw [hdrop, hlong, List.replicate_zero, List.append_nil, List.append_assoc]

/-- **The bytes of a built file**: the header and the tracks, with the checksum of the same
bytes over a zero. -/
theorem buildJbm_ok {crc32 : List UInt8 → UInt32} {album : AlbumMetadata} {bytes : List UInt8}
    (h : buildJbm crc32 album = .ok bytes) :
    album.tracks.length ≤ maxTrackFiles ∧ IsUint32 album.year ∧ IsUint32 album.durationSec ∧
      (∀ track ∈ album.tracks, IsUint32 track.durationSec ∧ IsUint32 track.fileNum) ∧
      bytes = jbmBytes album (crc32 (jbmBytes album 0)).toNat := by
  unfold buildJbm at h
  by_cases hmany : album.tracks.length > maxTrackFiles
  · rw [if_pos hmany] at h
    cases h
  rw [if_neg hmany] at h
  dsimp only at h
  obtain ⟨_, hyear, h⟩ := bind_ok h
  obtain ⟨_, hduration, h⟩ := bind_ok h
  obtain ⟨_, _, h⟩ := bind_ok h
  obtain ⟨tracks, htracks, h⟩ := bind_ok h
  obtain ⟨rfl, hall⟩ := buildTracks_ok htracks
  obtain ⟨_, _, h⟩ := bind_ok h
  refine ⟨by omega, requireUint32_ok hyear, requireUint32_ok hduration, hall, ?_⟩
  have hpayload : leBytes 4 jbmVersion ++ leBytes 4 0 ++
      encodeFixedString album.albumName albumNameBytes ++
      encodeFixedString album.albumDescription albumDescriptionBytes ++
      encodeFixedString album.artist artistBytes ++ leBytes 4 album.year.toNat ++
      leBytes 4 album.durationSec.toNat ++ encodeFixedString album.genre genreBytes ++
      ((List.range tagCount).flatMap fun index =>
        encodeFixedString (album.tags.getD index []) tagBytes) ++
      leBytes 4 album.tracks.length ++ (album.tracks.map trackBytes).flatten =
      jbmBytes album 0 := by
    simp [jbmBytes, headerParts, List.flatMap]
  rw [hpayload] at h
  have hstart : checksumAt = 4 := by decide
  have hpatched := overwrite_jbmBytes album 0 (crc32 (jbmBytes album 0)).toNat
  rw [hstart] at hpatched
  rw [← Except.ok.inj h, hpatched]

/-! ## When the tool raises nothing -/

theorem requireUint32_of_isUint32 {value : Int} (description : String) (h : IsUint32 value) :
    requireUint32 value description = .ok () := by
  unfold IsUint32 at h
  exact if_neg (by omega)

theorem buildTracks_of_isUint32 {tracks : List TrackMetadata}
    (h : ∀ track ∈ tracks, IsUint32 track.durationSec ∧ IsUint32 track.fileNum) :
    buildTracks tracks = .ok (tracks.map trackBytes).flatten := by
  induction tracks with
  | nil => rfl
  | cons track tracks ih =>
    rw [List.forall_mem_cons] at h
    rw [buildTracks, requireUint32_of_isUint32 _ h.1.1, requireUint32_of_isUint32 _ h.1.2, ih h.2]
    simp [bind, Except.bind, pure, Except.pure, trackBytes, trackParts]

/-- `build_jbm` raises nothing when its numbers fit their fields. -/
theorem buildJbm_of_isUint32 {crc32 : List UInt8 → UInt32} {album : AlbumMetadata}
    (hcount : album.tracks.length ≤ maxTrackFiles) (hyear : IsUint32 album.year)
    (hduration : IsUint32 album.durationSec)
    (htracks : ∀ track ∈ album.tracks, IsUint32 track.durationSec ∧ IsUint32 track.fileNum) :
    ∃ bytes, buildJbm crc32 album = .ok bytes := by
  have hlen : IsUint32 (album.tracks.length : Int) := by
    unfold IsUint32
    unfold maxTrackFiles at hcount
    omega
  have hsize (payload : List UInt8) (h : payload = jbmBytes album 0) :
      IsUint32 (payload.length : Int) := by
    rw [h, length_jbmBytes]
    unfold IsUint32 headerBytes trackEntryBytes
    unfold maxTrackFiles at hcount
    omega
  unfold buildJbm
  rw [if_neg (Nat.not_lt.mpr hcount), requireUint32_of_isUint32 _ hyear,
    requireUint32_of_isUint32 _ hduration, requireUint32_of_isUint32 _ hlen,
    buildTracks_of_isUint32 htracks]
  simp only [bind, Except.bind, pure, Except.pure]
  rw [requireUint32_of_isUint32 _ (hsize _ (by simp [jbmBytes, headerParts, List.flatMap]))]
  exact ⟨_, rfl⟩

/-! ## Reading it back -/

theorem toNat_u32At {blob : List UInt8} {start v : Nat} (h : slice blob start 4 = leBytes 4 v)
    (hv : v < 2 ^ 32) : (u32At blob start).toNat = v := by
  rw [u32At, ← slice, h, leNat_leBytes_of_lt hv, UInt32.toNat_ofNat', Nat.mod_eq_of_lt hv]

theorem toNat_u32At_int {blob : List UInt8} {start : Nat} {v : Int}
    (h : slice blob start 4 = leBytes 4 v.toNat) (hv : IsUint32 v) :
    ((u32At blob start).toNat : Int) = v := by
  unfold IsUint32 at hv
  rw [toNat_u32At h (by omega)]
  omega

section Fields

variable (album : AlbumMetadata) (checksum : Nat)

/-- A field of the header is read back. -/
theorem slice_header {i size : Nat} {part : List UInt8}
    (h : (headerParts album checksum)[i]? = some part) (hsize : part.length = size) :
    slice (jbmBytes album checksum) (offset headerSizes i) size = part := by
  rw [← hsize]
  exact slice_flatten (sizes_headerParts album checksum) h _

variable {album} in
/-- The entry of a track is read back. -/
theorem slice_track {index : Nat} {track : TrackMetadata} (h : album.tracks[index]? = some track) :
    slice (jbmBytes album checksum) (trackAt index) trackEntryBytes = trackBytes track := by
  have hparts : (album.tracks.map trackBytes)[index]? = some (trackBytes track) := by
    rw [List.getElem?_map, h, Option.map_some]
  obtain ⟨hindex, -⟩ := List.getElem?_eq_some_iff.mp h
  have hslice := slice_flatten (sizes_tracks album.tracks) hparts []
  rw [offset_replicate _ _ _ (Nat.le_of_lt hindex), List.append_nil, length_trackBytes] at hslice
  rw [← hslice, slice, slice, jbmBytes, trackAt, ← List.drop_drop,
    List.drop_left' (length_header album checksum)]

variable {album} in
/-- A field of a track is read back. -/
theorem slice_trackField {index i size : Nat} {track : TrackMetadata} {part : List UInt8}
    (h : album.tracks[index]? = some track) (hpart : (trackParts track)[i]? = some part)
    (hsize : part.length = size) (hend : offset trackSizes i + size ≤ trackEntryBytes) :
    slice (jbmBytes album checksum) (trackAt index + offset trackSizes i) size = part := by
  have hslice := slice_flatten (sizes_trackParts track) hpart []
  rw [List.append_nil, hsize] at hslice
  rw [← slice_slice _ hend, slice_track checksum h, trackBytes, hslice]

end Fields

/-- What the firmware reads of an album's file is what the tool put in. -/
structure ReadsBack (blob : List UInt8) (album : AlbumMetadata) : Prop where
  version : (u32At blob versionAt).toNat = jbmVersion
  albumName : ReadsText blob albumNameAt albumNameBytes album.albumName
  albumDescription :
    ReadsText blob albumDescriptionAt albumDescriptionBytes album.albumDescription
  artist : ReadsText blob artistAt artistBytes album.artist
  year : ((u32At blob yearAt).toNat : Int) = album.year
  durationSec : ((u32At blob durationSecAt).toNat : Int) = album.durationSec
  genre : ReadsText blob genreAt genreBytes album.genre
  tags : ∀ index < tagCount, ReadsText blob (tagAt index) tagBytes (album.tags.getD index [])
  trackCount : (u32At blob trackCountAt).toNat = album.tracks.length
  tracks : ∀ index track, album.tracks[index]? = some track →
    ReadsText blob (trackNameAt index) trackNameBytes track.trackName ∧
      ReadsText blob (trackArtistsAt index) trackArtistsBytes track.artists ∧
      ((u32At blob (trackDurationSecAt index)).toNat : Int) = track.durationSec ∧
      ((u32At blob (trackFileNumAt index)).toNat : Int) = track.fileNum

/-- **Every field** of a built file is read back. -/
theorem readsBack_jbmBytes {album : AlbumMetadata} (checksum : Nat)
    (hcount : album.tracks.length ≤ maxTrackFiles) (hyear : IsUint32 album.year)
    (hduration : IsUint32 album.durationSec)
    (htracks : ∀ track ∈ album.tracks, IsUint32 track.durationSec ∧ IsUint32 track.fileNum) :
    ReadsBack (jbmBytes album checksum) album where
  version := toNat_u32At (slice_header album checksum rfl (length_leBytes 4 _)) (by decide)
  albumName := readsText_of_slice (by decide)
    (slice_header album checksum rfl (length_encodeFixedString (by decide)))
  albumDescription := readsText_of_slice (by decide)
    (slice_header album checksum rfl (length_encodeFixedString (by decide)))
  artist := readsText_of_slice (by decide)
    (slice_header album checksum rfl (length_encodeFixedString (by decide)))
  year := toNat_u32At_int (slice_header album checksum rfl (length_leBytes 4 _)) hyear
  durationSec := toNat_u32At_int (slice_header album checksum rfl (length_leBytes 4 _)) hduration
  genre := readsText_of_slice (by decide)
    (slice_header album checksum rfl (length_encodeFixedString (by decide)))
  tags index hindex := by
    have htag : (headerParts album checksum)[8 + index]? =
        some (encodeFixedString (album.tags.getD index []) tagBytes) := by
      rw [headerParts, List.append_assoc, List.getElem?_append_right (Nat.le_add_right 8 index)]
      simp only [List.length_cons, List.length_nil, Nat.reduceAdd, Nat.add_sub_cancel_left]
      rw [List.getElem?_append_left (by rwa [List.length_map, List.length_range]),
        List.getElem?_map, List.getElem?_range hindex, Option.map_some]
    exact readsText_of_slice (by decide)
      (slice_header album checksum htag (length_encodeFixedString (by decide)))
  trackCount := by
    refine toNat_u32At (slice_header album checksum ?_ (length_leBytes 4 _)) ?_
    · rfl
    · unfold maxTrackFiles at hcount
      omega
  tracks index track h := by
    obtain ⟨hduration, hfile⟩ := htracks track (List.mem_of_getElem? h)
    have hname := slice_trackField (i := 0) checksum h rfl
      (length_encodeFixedString (by decide)) (by decide)
    have hartists := slice_trackField (i := 1) checksum h rfl
      (length_encodeFixedString (by decide)) (by decide)
    have hdurationSec := slice_trackField (i := 2) checksum h rfl (length_leBytes 4 _) (by decide)
    have hfileNum := slice_trackField (i := 3) checksum h rfl (length_leBytes 4 _) (by decide)
    exact ⟨readsText_of_slice (by decide) hname, readsText_of_slice (by decide) hartists,
      toNat_u32At_int hdurationSec hduration, toNat_u32At_int hfileNum hfile⟩

/-! ## Validation -/

theorem overwrite_self {blob : List UInt8} {start : Nat} (h : start + 4 ≤ blob.length) :
    overwrite (overwrite blob start (leBytes 4 0)) start (leBytes 4 (u32At blob start).toNat) =
      blob := by
  have hlen : (slice blob start 4).length = 4 := by
    rw [slice, List.length_take, List.length_drop]
    omega
  have hfield : leBytes 4 (u32At blob start).toNat = slice blob start 4 := by
    have hlt : leNat (slice blob start 4) < 2 ^ 32 := by
      have hbound := leNat_lt (slice blob start 4)
      rw [hlen] at hbound
      omega
    have hback := leBytes_leNat (slice blob start 4)
    rw [hlen] at hback
    rw [u32At, ← slice, UInt32.toNat_ofNat', Nat.mod_eq_of_lt hlt, hback]
  rw [overwrite_overwrite (by omega) (by rw [length_leBytes, length_leBytes]), hfield,
    overwrite_slice h]

/-- What the firmware asks of a blob. -/
structure Valid (espRomCrc32Le : UInt32 → List UInt8 → UInt32) (blob : List UInt8) : Prop where
  version : (u32At blob versionAt).toNat = jbmVersion
  trackCount : (u32At blob trackCountAt).toNat ≤ maxTrackFiles
  length : blob.length = headerBytes + (u32At blob trackCountAt).toNat * trackEntryBytes
  checksum : espRomCrc32Le 0 (overwrite blob checksumAt (leBytes 4 0)) = u32At blob checksumAt

variable {espRomCrc32Le : UInt32 → List UInt8 → UInt32} {blob : List UInt8}

theorem validateMetadata_of_valid (h : Valid espRomCrc32Le blob) :
    validateMetadata espRomCrc32Le blob = (.ok, sanitizeMetadataStrings blob) := by
  have hlen := h.length
  have hroom : checksumAt + 4 ≤ blob.length := by
    rw [hlen, show checksumAt = 4 from by decide]
    unfold headerBytes
    omega
  unfold validateMetadata
  dsimp only
  rw [if_neg (by omega), if_neg (not_not.mpr h.version), if_neg (Nat.not_lt.mpr h.trackCount),
    if_neg (not_not.mpr h.length), if_neg (not_not.mpr h.checksum), overwrite_self hroom]

/-- A blob that is refused stays as it is. -/
theorem validateMetadata_of_not_valid (h : ¬ Valid espRomCrc32Le blob) :
    ∃ err, err ≠ .ok ∧ validateMetadata espRomCrc32Le blob = (err, blob) := by
  unfold validateMetadata
  dsimp only
  by_cases hshort : blob.length < headerBytes
  · exact ⟨_, by decide, if_pos hshort⟩
  rw [if_neg hshort]
  by_cases hversion : (u32At blob versionAt).toNat = jbmVersion
  · rw [if_neg (not_not.mpr hversion)]
    by_cases hcount : (u32At blob trackCountAt).toNat ≤ maxTrackFiles
    · rw [if_neg (Nat.not_lt.mpr hcount)]
      by_cases hlen : blob.length = headerBytes + (u32At blob trackCountAt).toNat * trackEntryBytes
      · have hroom : checksumAt + 4 ≤ blob.length := by
          rw [show checksumAt = 4 from by decide]
          unfold headerBytes at hshort
          omega
        rw [if_neg (not_not.mpr hlen), overwrite_self hroom]
        exact ⟨_, by decide, if_pos fun hcrc => h ⟨hversion, hcount, hlen, hcrc⟩⟩
      · exact ⟨_, by decide, if_pos hlen⟩
    · exact ⟨_, by decide, if_pos (Nat.not_le.mp hcount)⟩
  · exact ⟨_, by decide, if_pos hversion⟩

/-- **Validation** accepts exactly the valid blobs, and then writes a NUL to the last byte
of each text field and nothing else. -/
theorem validateMetadata_spec (espRomCrc32Le : UInt32 → List UInt8 → UInt32) (blob : List UInt8) :
    ((validateMetadata espRomCrc32Le blob).1 = .ok ↔ Valid espRomCrc32Le blob) ∧
      (validateMetadata espRomCrc32Le blob).2.length = blob.length ∧
      ∀ k, ((validateMetadata espRomCrc32Le blob).1 ≠ .ok ∨
          k ∉ lastBytes (u32At blob trackCountAt).toNat) →
        (validateMetadata espRomCrc32Le blob).2[k]? = blob[k]? := by
  by_cases h : Valid espRomCrc32Le blob
  · rw [validateMetadata_of_valid h]
    refine ⟨iff_of_true rfl h, length_zeroAt _ _, ?_⟩
    rintro k (hrefused | hother)
    · exact absurd rfl hrefused
    · exact getElem?_zeroAt_of_notMem hother blob
  · obtain ⟨err, herr, heq⟩ := validateMetadata_of_not_valid h
    rw [heq]
    exact ⟨iff_of_false herr h, rfl, fun _ _ => rfl⟩

/-! ## The round trip -/

section RoundTrip

variable {crc32 : List UInt8 → UInt32} {album : AlbumMetadata}

theorem valid_jbmBytes (hcrc : ∀ bytes, crc32 bytes = espRomCrc32Le 0 bytes)
    (hcount : album.tracks.length ≤ maxTrackFiles)
    (hread : ReadsBack (jbmBytes album (crc32 (jbmBytes album 0)).toNat) album) :
    Valid espRomCrc32Le (jbmBytes album (crc32 (jbmBytes album 0)).toNat) where
  version := hread.version
  trackCount := by rwa [hread.trackCount]
  length := by rw [hread.trackCount, length_jbmBytes]
  checksum := by
    have hstored := toNat_u32At
      (slice_header (i := 1) album (crc32 (jbmBytes album 0)).toNat rfl (length_leBytes 4 _))
      (UInt32.toNat_lt _)
    rw [overwrite_jbmBytes, ← hcrc]
    exact UInt32.toNat_inj.mp hstored.symm

theorem ReadsText.last {start size : Nat} {value : Text} (h : ReadsText blob start size value)
    (hpos : 0 < size) : blob[start + size - 1]? = some 0 := by
  have hlast := h.terminated
  rwa [getElem?_slice (by omega), ← Nat.add_sub_assoc hpos] at hlast

/-- The tool has put the NULs there already. -/
theorem sanitize_eq_self (hread : ReadsBack blob album) : sanitizeMetadataStrings blob = blob := by
  refine zeroAt_eq_self ?_
  rw [hread.trackCount]
  intro k hk
  rcases List.mem_append.mp hk with hk | hk
  · rcases List.mem_append.mp hk with hk | hk
    · simp only [List.mem_cons, List.not_mem_nil, or_false] at hk
      rcases hk with rfl | rfl | rfl | rfl
      · exact hread.albumName.last (by decide)
      · exact hread.albumDescription.last (by decide)
      · exact hread.artist.last (by decide)
      · exact hread.genre.last (by decide)
    · obtain ⟨index, hindex, rfl⟩ := List.mem_map.mp hk
      exact (hread.tags index (List.mem_range.mp hindex)).last (by decide)
  · obtain ⟨index, hindex, hk⟩ := List.mem_flatMap.mp hk
    have htrack := List.getElem?_eq_getElem (List.mem_range.mp hindex)
    obtain ⟨hname, hartists, -, -⟩ := hread.tracks index _ htrack
    simp only [List.mem_cons, List.not_mem_nil, or_false] at hk
    rcases hk with rfl | rfl
    · exact hname.last (by decide)
    · exact hartists.last (by decide)

/-- **Album metadata is read back.** Whatever file the tool builds passes the firmware's
validation unchanged and gives its fields back; and of all byte strings exactly the valid
ones pass, with no byte changed but the last one of each text field. -/
theorem jbm_round_trip (hcrc : ∀ bytes, crc32 bytes = espRomCrc32Le 0 bytes) :
    (∀ album bytes, buildJbm crc32 album = .ok bytes →
        validateMetadata espRomCrc32Le bytes = (.ok, bytes) ∧ ReadsBack bytes album) ∧
      ∀ blob, ((validateMetadata espRomCrc32Le blob).1 = .ok ↔ Valid espRomCrc32Le blob) ∧
        (validateMetadata espRomCrc32Le blob).2.length = blob.length ∧
        ∀ k ∉ lastBytes (u32At blob trackCountAt).toNat,
          (validateMetadata espRomCrc32Le blob).2[k]? = blob[k]? := by
  refine ⟨fun album bytes h => ?_, fun blob => ?_⟩
  · obtain ⟨hcount, hyear, hduration, htracks, rfl⟩ := buildJbm_ok h
    have hread := readsBack_jbmBytes (crc32 (jbmBytes album 0)).toNat hcount hyear hduration htracks
    rw [validateMetadata_of_valid (valid_jbmBytes hcrc hcount hread), sanitize_eq_self hread]
    exact ⟨rfl, hread⟩
  · obtain ⟨hiff, hlen, hbytes⟩ := validateMetadata_spec espRomCrc32Le blob
    exact ⟨hiff, hlen, fun k hk => hbytes k (.inr hk)⟩

end RoundTrip

/-! ## One album -/

/-- CRC-32 with the reflected polynomial 0xEDB88320, from this value on. -/
def crc32From (crc : UInt32) (bytes : List UInt8) : UInt32 :=
  let bit (crc : UInt32) : UInt32 := if crc &&& 1 = 1 then (crc >>> 1) ^^^ 0xEDB88320 else crc >>> 1
  (bytes.foldl (fun crc byte => bit^[8] (crc ^^^ byte.toUInt32)) (crc ^^^ 0xFFFFFFFF)) ^^^ 0xFFFFFFFF

example : crc32From 0 [0x31, 0x32, 0x33, 0x34, 0x35, 0x36, 0x37, 0x38, 0x39] = 0xCBF43926 := by
  decide +kernel

def oneTrack : AlbumMetadata where
  albumName := ['é']
  albumDescription := []
  artist := ['a']
  year := 1999
  durationSec := 61
  genre := []
  tags := [['t']]
  tracks := [{ trackName := ['b'], artists := ['a'], durationSec := 61, fileNum := 1 }]

theorem jbm_round_trip_oneTrack : ∃ bytes, buildJbm (crc32From 0) oneTrack = .ok bytes ∧
    validateMetadata crc32From bytes = (.ok, bytes) ∧ ReadsBack bytes oneTrack := by
  obtain ⟨bytes, hbytes⟩ : ∃ bytes, buildJbm (crc32From 0) oneTrack = .ok bytes :=
    buildJbm_of_isUint32 (by decide) (by decide) (by decide) (by decide)
  exact ⟨bytes, hbytes, (jbm_round_trip fun _ => rfl).1 oneTrack bytes hbytes⟩

end Jukeboy.Formats.JbmFile
