import Mathlib.Logic.Equiv.Defs
import Jukeboy.Base.Records
import Jukeboy.PlayHistory.Cache

/-! # The play-history file

The cache as the bytes the service writes, and what loading such bytes gives. -/
namespace Jukeboy.PlayHistory.Persistence

open Jukeboy.Base Jukeboy.Base.SlotTable Jukeboy.Base.Records Jukeboy.Formats.Jbm
  Jukeboy.PlayHistory.Cache

/-! ## The records of the file -/

def jbmHeader : Codec JbmHeader where
  size := headerBytes
  encode h := h.bytes
  decode := JbmHeader.ofBytes
  length_encode h := h.length_bytes
  decode_encode h rest := by
    obtain ⟨bytes, hlen⟩ := h
    exact JbmHeader.mk.injEq .. ▸ firstBytes_append hlen rest
  encode_decode bytes h := by
    change firstBytes headerBytes bytes = bytes.take headerBytes
    rw [firstBytes, List.take_append_of_le_length h]

def jbmTrack : Codec JbmTrack where
  size := trackEntryBytes
  encode t := t.bytes
  decode := JbmTrack.ofBytes
  length_encode t := t.length_bytes
  decode_encode t rest := by
    obtain ⟨bytes, hlen⟩ := t
    exact JbmTrack.mk.injEq .. ▸ firstBytes_append hlen rest
  encode_decode bytes h := by
    change firstBytes trackEntryBytes bytes = bytes.take trackEntryBytes
    rw [firstBytes, List.take_append_of_le_length h]

/-- `play_history_file_header_t`. -/
structure FileHeader where
  version : UInt32
  nextSequence : UInt32
  albumCount : UInt32
  trackCount : UInt32
deriving DecidableEq, Repr

def FileHeader.fields : FileHeader ≃ UInt32 × UInt32 × UInt32 × UInt32 where
  toFun h := (h.version, h.nextSequence, h.albumCount, h.trackCount)
  invFun := fun (version, nextSequence, albumCount, trackCount) =>
    ⟨version, nextSequence, albumCount, trackCount⟩
  left_inv _ := rfl
  right_inv _ := rfl

def fileHeader : Codec FileHeader := ofEquiv (pair u32 (pair u32 (pair u32 u32))) FileHeader.fields

def albumFields : Album ≃ UInt32 × UInt32 × UInt32 × UInt32 × JbmHeader where
  toFun a := (a.checksum, a.trackCount, a.firstSeenSequence, a.lastSeenSequence, a.metadata)
  invFun := fun (checksum, trackCount, firstSeenSequence, lastSeenSequence, metadata) =>
    ⟨checksum, trackCount, firstSeenSequence, lastSeenSequence, metadata⟩
  left_inv _ := rfl
  right_inv _ := rfl

/-- `play_history_disk_album_t`. -/
def diskAlbum : Codec Album :=
  ofEquiv (pair u32 (pair u32 (pair u32 (pair u32 jbmHeader)))) albumFields

def trackFields : Track ≃ UInt32 × UInt32 × UInt32 × UInt32 × UInt32 × UInt32 × JbmTrack where
  toFun t := (t.cartridgeChecksum, t.trackIndex, t.trackFileNum, t.playCount,
    t.firstSeenSequence, t.lastSeenSequence, t.metadata)
  invFun := fun (cartridgeChecksum, trackIndex, trackFileNum, playCount, firstSeenSequence,
      lastSeenSequence, metadata) =>
    ⟨cartridgeChecksum, trackIndex, trackFileNum, playCount, firstSeenSequence,
      lastSeenSequence, metadata⟩
  left_inv _ := rfl
  right_inv _ := rfl

/-- `play_history_disk_track_t`. -/
def diskTrack : Codec Track :=
  ofEquiv (pair u32 (pair u32 (pair u32 (pair u32 (pair u32 (pair u32 jbmTrack)))))) trackFields

/-! ## Writing and loading -/

abbrev stateVersion : UInt32 := 1

def serializedSizeForCounts (albumCount trackCount : Nat) : Nat :=
  fileHeader.size + albumCount * diskAlbum.size + trackCount * diskTrack.size

abbrev maxSerializedBytes : Nat := serializedSizeForCounts maxAlbums maxTracks

def headerOf (s : Store) : FileHeader :=
  ⟨stateVersion, s.nextSequence, UInt32.ofNat s.albumCount, UInt32.ofNat s.trackCount⟩

def buildSerializedBlob (s : Store) : Except EspErr (List UInt8) := do
  let totalSize := serializedSizeForCounts s.albumCount s.trackCount
  failIf (maxSerializedBytes < totalSize) .invalidSize
  let blob := fileHeader.encode (headerOf s) ++
    (encodeAll diskAlbum (records s.albums) ++ encodeAll diskTrack (records s.tracks))
  failIf (blob.length != totalSize) .fail
  return blob

/-- The two loops that read the records, and the check that nothing is left. -/
def readTables (header : FileHeader) (bytes : List UInt8) :
    Except EspErr ((Table maxAlbums Album × Nat) × Table maxTracks Track × Nat) := do
  let (bytes, albums) ← readRecords diskAlbum .fail .noMem header.albumCount.toNat bytes empty 0
  let (bytes, tracks) ← readRecords diskTrack .fail .noMem header.trackCount.toNat bytes empty 0
  failIf (!bytes.isEmpty) .invalidResponse
  return (albums, tracks)

/-- `play_history_load_from_serialized_bytes_locked`. -/
def loadFromSerializedBytes (buffer : List UInt8) (s : Store) : Store × EspErr :=
  let s := resetCache s
  if buffer.length < fileHeader.size then (s, .fail) else
  let header := fileHeader.decode buffer
  if header.version ≠ stateVersion ∨ maxAlbums < header.albumCount.toNat ∨
      maxTracks < header.trackCount.toNat then (s, .invalidResponse) else
  if buffer.length ≠ serializedSizeForCounts header.albumCount.toNat header.trackCount.toNat then
    (s, .invalidResponse) else
  match readTables header (buffer.drop fileHeader.size) with
  | .error err => (s, err)
  | .ok ((albums, albumCount), tracks, trackCount) =>
    ({ s with
        nextSequence := if header.nextSequence = 0 then 1 else header.nextSequence
        albumCount, trackCount, albums, tracks
        dirty := s.dirty || header.nextSequence == 0 }, .ok)

/-! ## Loading what was written -/

/-- What loading a written file makes of the store: the same records in the
same order, from the first slot on. -/
def compacted (s : Store) : Store :=
  { s with albums := ofList (records s.albums), tracks := ofList (records s.tracks) }

theorem empty_eq_ofList (n : Nat) (α : Type) : (empty : Table n α) = ofList [] := rfl

theorem readTables_encodeAll {header : FileHeader} {albums : List Album} {tracks : List Track}
    (ha : header.albumCount.toNat = albums.length) (ht : header.trackCount.toNat = tracks.length)
    (hal : albums.length ≤ maxAlbums) (htl : tracks.length ≤ maxTracks) :
    readTables header (encodeAll diskAlbum albums ++ encodeAll diskTrack tracks) =
      .ok ((ofList albums, albums.length), ofList tracks, tracks.length) := by
  have halbums := @readRecords_encodeAll _ EspErr maxAlbums diskAlbum .fail .noMem albums []
    (encodeAll diskTrack tracks) (by rw [List.length_nil, Nat.zero_add]; exact hal)
  have htracks := @readRecords_encodeAll _ EspErr maxTracks diskTrack .fail .noMem tracks [] []
    (by rw [List.length_nil, Nat.zero_add]; exact htl)
  simp only [List.length_nil, List.nil_append, Nat.zero_add] at halbums htracks
  rw [List.append_nil] at htracks
  rw [readTables, empty_eq_ofList, empty_eq_ofList, ha, ht, halbums]
  simp only [bind, Except.bind, htracks]
  rfl

/-- What the two loops have read when they succeed. -/
theorem readTables_ok {header : FileHeader} {bytes : List UInt8} {albums : Table maxAlbums Album}
    {tracks : Table maxTracks Track} {albumCount trackCount : Nat}
    (h : readTables header bytes = .ok ((albums, albumCount), tracks, trackCount)) :
    ∃ la lt, la.length = header.albumCount.toNat ∧ lt.length = header.trackCount.toNat ∧
      la.length ≤ maxAlbums ∧ lt.length ≤ maxTracks ∧
      bytes = encodeAll diskAlbum la ++ encodeAll diskTrack lt ∧ albums = ofList la ∧
      tracks = ofList lt ∧ albumCount = la.length ∧ trackCount = lt.length := by
  obtain ⟨⟨rest, t1, held1⟩, h1, h⟩ := bind_ok h
  obtain ⟨⟨rest2, t2, held2⟩, h2, h⟩ := bind_ok h
  obtain ⟨hempty, hpure⟩ := failIf_bind_ok_iff.mp h
  cases hpure
  obtain rfl : rest2 = [] := by simpa using hempty
  rw [empty_eq_ofList] at h1 h2
  obtain ⟨la, hla, hbytes, rfl, rfl, hal⟩ := readRecords_ok diskAlbum h1 (Nat.zero_le _)
  obtain ⟨lt, hlt, hrest, rfl, rfl, htl⟩ := readRecords_ok diskTrack h2 (Nat.zero_le _)
  rw [List.append_nil] at hrest
  rw [hrest] at hbytes
  exact ⟨la, lt, hla, hlt, hal, htl, hbytes, rfl, rfl, rfl, rfl⟩

theorem readTables_ne_error_ok (header : FileHeader) (bytes : List UInt8) :
    readTables header bytes ≠ .error .ok := by
  intro h
  unfold readTables at h
  cases h1 : readRecords diskAlbum EspErr.fail .noMem header.albumCount.toNat bytes
      (empty : Table maxAlbums Album) 0 with
  | error e =>
    rw [h1] at h
    rcases readRecords_error h1 with rfl | rfl <;> cases h
  | ok r =>
    obtain ⟨rest, t1, held1⟩ := r
    rw [h1] at h
    simp only [bind, Except.bind] at h
    cases h2 : readRecords diskTrack EspErr.fail .noMem header.trackCount.toNat rest
        (empty : Table maxTracks Track) 0 with
    | error e =>
      rw [h2] at h
      rcases readRecords_error h2 with rfl | rfl <;> cases h
    | ok r =>
      rw [h2] at h
      exact @failIf_bind_ne_error_ok _ (!r.1.isEmpty) .invalidResponse
        (fun _ => .ok ((t1, held1), r.2)) (fun _ h => by cases h) (fun h => by cases h) h

/-- **Loading a written file.** The bytes the service writes of a store whose
counters are right and whose sequence number is not zero are accepted, and the
store they give lists the same records in the same order. -/
theorem load_buildSerializedBlob {s : Store} {blob : List UInt8}
    (ha : s.albumCount = inUse s.albums) (ht : s.trackCount = inUse s.tracks)
    (hnext : s.nextSequence ≠ 0) (hbuild : buildSerializedBlob s = .ok blob) (u : Store) :
    loadFromSerializedBytes blob u =
      ({ compacted s with dirty := u.dirty, wrapped := u.wrapped }, .ok) := by
  have hal : s.albumCount ≤ maxAlbums := ha ▸ inUse_le s.albums
  have htl : s.trackCount ≤ maxTracks := ht ▸ inUse_le s.tracks
  have hrecA : (records s.albums).length = s.albumCount := by rw [length_records, ha]
  have hrecT : (records s.tracks).length = s.trackCount := by rw [length_records, ht]
  obtain ⟨-, hrest⟩ := failIf_bind_ok_iff.mp hbuild
  obtain ⟨hlen, hblob⟩ := failIf_bind_ok_iff.mp hrest
  cases hblob
  have hlen := of_not_not (mt bne_iff_ne.mpr (Bool.eq_false_iff.mp hlen))
  have hdecode : fileHeader.decode (fileHeader.encode (headerOf s) ++
      (encodeAll diskAlbum (records s.albums) ++ encodeAll diskTrack (records s.tracks))) =
        headerOf s := fileHeader.decode_encode _ _
  have hcountA : (headerOf s).albumCount.toNat = s.albumCount :=
    UInt32.toNat_ofNat_of_lt' (hal.trans_lt (by decide))
  have hcountT : (headerOf s).trackCount.toNat = s.trackCount :=
    UInt32.toNat_ofNat_of_lt' (htl.trans_lt (by decide))
  have hsize : ¬ (fileHeader.encode (headerOf s) ++ (encodeAll diskAlbum (records s.albums) ++
      encodeAll diskTrack (records s.tracks))).length < fileHeader.size := by
    rw [List.length_append, fileHeader.length_encode]
    omega
  have hheader : ¬ ((headerOf s).version ≠ stateVersion ∨
      maxAlbums < (headerOf s).albumCount.toNat ∨ maxTracks < (headerOf s).trackCount.toNat) := by
    rw [hcountA, hcountT]
    rintro (hv | hv | hv)
    · exact hv rfl
    · exact absurd hal (Nat.not_le.mpr hv)
    · exact absurd htl (Nat.not_le.mpr hv)
  have hread := readTables_encodeAll (hcountA.trans hrecA.symm) (hcountT.trans hrecT.symm)
    (hrecA.trans_le hal) (hrecT.trans_le htl)
  have hseq : (headerOf s).nextSequence = s.nextSequence := rfl
  rw [loadFromSerializedBytes, if_neg hsize, hdecode]
  rw [if_neg hheader, if_neg (by rw [hcountA, hcountT]; exact not_not.mpr hlen),
    List.drop_left' (fileHeader.length_encode _), hread]
  simp only [hseq, if_neg hnext, beq_false_of_ne hnext, Bool.or_false, hrecA, hrecT]
  rfl

end Jukeboy.PlayHistory.Persistence
