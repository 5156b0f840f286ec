import Jukeboy.PlayHistory.Effects
import Jukeboy.PlayHistory.Flush
import Jukeboy.PlayHistory.Invariant

/-! # The play-history file keeps the history

The counters are right in every cache, however it came about, so what a flush
writes is what a load reads back, and what a load accepts is what a flush would
write. -/
namespace Jukeboy.PlayHistory.FileRoundTrip

open Jukeboy.Base Jukeboy.Base.ByteFile Jukeboy.Base.SlotTable Jukeboy.Base.Records
  Jukeboy.Formats.Jbm Jukeboy.PlayHistory.Cache Jukeboy.PlayHistory.Effects
  Jukeboy.PlayHistory.Persistence Jukeboy.PlayHistory.Flush

/-! ## The counters count -/

/-- The counters are the slots in use, and the next sequence number is not zero. -/
structure Counted (s : Store) : Prop where
  albums : s.albumCount = inUse s.albums
  tracks : s.trackCount = inUse s.tracks
  next : s.nextSequence ≠ 0

theorem Counted.resetCache (s : Store) : Counted (resetCache s) where
  albums := (@inUse_empty maxAlbums Album).symm
  tracks := (@inUse_empty maxTracks Track).symm
  next := show (1 : UInt32) ≠ 0 by decide

theorem Counted.nextSequence {s : Store} (h : Counted s) : Counted (nextSequence s).2 := by
  unfold Cache.nextSequence
  dsimp only
  split
  · split
    · exact ⟨h.albums, h.tracks, show (1 : UInt32) ≠ 0 by decide⟩
    · next hwrap => exact ⟨h.albums, h.tracks, hwrap⟩
  · split
    · exact ⟨h.albums, h.tracks, show (1 : UInt32) ≠ 0 by decide⟩
    · next hwrap => exact ⟨h.albums, h.tracks, hwrap⟩

theorem Counted.setAlbum {s : Store} (h : Counted s) {i : Fin maxAlbums} {a : Album}
    (hi : s.albums i = some a) (b : Album) :
    Counted { s with albums := SlotTable.set s.albums i b } :=
  ⟨h.albums.trans (inUse_set_used hi b).symm, h.tracks, h.next⟩

theorem Counted.setTrack {s : Store} (h : Counted s) {i : Fin maxTracks} {t : Track}
    (hi : s.tracks i = some t) (u : Track) :
    Counted { s with tracks := SlotTable.set s.tracks i u } :=
  ⟨h.albums, h.tracks.trans (inUse_set_used hi u).symm, h.next⟩

theorem Counted.removeAlbum {s : Store} (h : Counted s) (i : Fin maxAlbums) :
    Counted (removeAlbum s i) := by
  unfold Cache.removeAlbum
  split
  · exact h
  · next album hi =>
    refine ⟨?_, ?_, h.next⟩
    · dsimp only
      rw [h.albums, ← inUse_clear hi, Nat.add_sub_cancel]
    · dsimp only
      rw [h.tracks, clearLoop_finRange]

theorem Counted.ensureCapacityLoop {keep : UInt32} {preserve : Bool} {da dt turns : Nat}
    {s : Store} (h : Counted s) : Counted (ensureCapacityLoop keep preserve da dt turns s).1 := by
  induction turns generalizing s with
  | zero => exact h
  | succ turns ih =>
    rw [Cache.ensureCapacityLoop]
    split
    · dsimp only
      split
      · exact h
      · exact ih (h.removeAlbum _)
    · exact h

theorem Counted.openAlbum {s t : Store} {checksum : UInt32} {found : Option (Fin maxAlbums)}
    {i : Fin maxAlbums} (h : Counted s) (hopen : openAlbum checksum found s = some (i, t)) :
    Counted t := by
  unfold Cache.openAlbum at hopen
  split at hopen
  · cases hopen
    exact h
  · split at hopen
    · cases hopen
    · next hfree =>
      cases hopen
      have hs := h.nextSequence
      have hfree' : (Cache.nextSequence s).2.albums i = none := by
        rw [nextSequence_albums]
        exact free_some hfree
      exact ⟨(congrArg (· + 1) hs.albums).trans (inUse_set_free hfree' _).symm, hs.tracks, hs.next⟩

theorem Counted.updateAlbum {s : Store} (h : Counted s) (i : Fin maxAlbums)
    (metadata : JbmHeader) (sequence : UInt32) : Counted (updateAlbum i metadata sequence s) := by
  unfold Cache.updateAlbum
  split
  · exact h
  · next album hi => exact h.setAlbum hi _

theorem Counted.openTrack {s t : Store} {checksum index : UInt32} {i : Fin maxTracks}
    (h : Counted s) (hopen : openTrack checksum index s = some (i, t)) : Counted t := by
  unfold Cache.openTrack at hopen
  split at hopen
  · cases hopen
    exact h
  · split at hopen
    · cases hopen
    · next hfree =>
      cases hopen
      have hs := h.nextSequence
      have hfree' : (Cache.nextSequence s).2.tracks i = none := by
        rw [nextSequence_tracks]
        exact free_some hfree
      exact ⟨hs.albums, (congrArg (· + 1) hs.tracks).trans (inUse_set_free hfree' _).symm, hs.next⟩

theorem Counted.updateTrack {s : Store} (h : Counted s) (i : Fin maxTracks)
    (metadata : JbmTrack) (sequence : UInt32) : Counted (updateTrack i metadata sequence s) := by
  unfold Cache.updateTrack
  split
  · exact h
  · next track hi => exact h.setTrack hi _

theorem Counted.syncTracks {cart : Cartridge} {checksum sequence : UInt32} {indices : List Nat}
    {s : Store} (h : Counted s) : Counted (syncTracks cart checksum sequence indices s).1 := by
  induction indices generalizing s with
  | nil => exact h
  | cons index rest ih =>
    rw [Cache.syncTracks]
    split
    · exact ih h
    · split
      · exact h
      · next hopen => exact ih ((h.openTrack hopen).updateTrack ..)

theorem Counted.syncCurrentCartridge {s : Store} (h : Counted s) (cart : Cartridge) :
    Counted (syncCurrentCartridge cart s).1 := by
  unfold Cache.syncCurrentCartridge
  split
  · exact h
  · split
    · exact h
    · next metadata hmeta =>
      dsimp only
      have hroom : ∀ r, ensureCapacity metadata.checksum true
          (if (findAlbumSlot s metadata.checksum).isNone = true then 1 else 0)
          (countMissingTracksForCurrentCartridge cart s metadata.checksum) s = r → Counted r.1 := by
        rintro r rfl
        exact h.ensureCapacityLoop
      split
      · next t hcap =>
        have ht := hroom _ hcap
        split
        · exact ht
        · next slot u hopen =>
          have hu := ht.openAlbum hopen
          have hloop : ∀ r, Cache.syncTracks cart metadata.checksum (Cache.nextSequence u).1
              (List.range cart.getMetadataTrackCount)
              (Cache.updateAlbum slot metadata (Cache.nextSequence u).1
                (Cache.nextSequence u).2) = r → Counted r.1 := by
            rintro r rfl
            exact (hu.nextSequence.updateAlbum ..).syncTracks
          split
          · next v hsync => exact ⟨(hloop _ hsync).albums, (hloop _ hsync).tracks, (hloop _ hsync).next⟩
          · next v err _ hsync => exact hloop _ hsync
      · next t err _ hcap => exact hroom _ hcap

theorem Counted.slotForPlay {s : Store} (h : Counted s) (cart : Cartridge) (event : TrackEvent) :
    Counted (slotForPlay cart event s).1 := by
  unfold Cache.slotForPlay
  split
  · exact h
  · split
    · exact h
    · split
      · have hsync := h.syncCurrentCartridge cart
        split
        · next heq =>
          rw [heq] at hsync
          exact hsync
        · next heq =>
          rw [heq] at hsync
          exact hsync
      · exact h

theorem Counted.countPlay {s : Store} (h : Counted s) (i : Fin maxTracks) (event : TrackEvent) :
    Counted (countPlay i event s).1 := by
  have hs := h.nextSequence
  unfold Cache.countPlay
  dsimp only
  split
  · exact hs
  · next track hi =>
    refine ⟨?_, hs.tracks.trans (inUse_set_used hi _).symm, hs.next⟩
    dsimp only
    split
    · exact hs.albums
    · split
      · exact hs.albums
      · next album hj => exact hs.albums.trans (inUse_set_used hj _).symm

theorem Counted.applyCountablePlay {s : Store} (h : Counted s) (cart : Cartridge)
    (event : TrackEvent) : Counted (applyCountablePlay cart event s).1 := by
  have hslot := h.slotForPlay cart event
  unfold Cache.applyCountablePlay
  split
  · next heq =>
    rw [heq] at hslot
    exact hslot
  · next heq =>
    rw [heq] at hslot
    exact hslot
  · next slot heq =>
    rw [heq] at hslot
    exact Counted.countPlay hslot slot event

/-- **The counters count** after every event. -/
theorem Counted.processEvent {s : Store} (h : Counted s) (cart : Cartridge) (event : Event) :
    Counted (processEvent cart event s).1 := by
  cases event with
  | syncCurrentCartridge => exact h.syncCurrentCartridge cart
  | countablePlay track =>
    have hplay := h.applyCountablePlay cart track
    rw [Cache.processEvent]
    split
    · next heq =>
      rw [heq] at hplay
      exact hplay
    · next heq =>
      rw [heq] at hplay
      exact hplay
  | clear => exact ⟨(Counted.resetCache s).albums, (Counted.resetCache s).tracks, (Counted.resetCache s).next⟩
  | rebuild =>
    have hreset : Counted { Cache.resetCache s with dirty := true } :=
      ⟨(Counted.resetCache s).albums, (Counted.resetCache s).tracks, (Counted.resetCache s).next⟩
    exact hreset.syncCurrentCartridge cart

/-! ## What a load accepts -/

/-- What a load that succeeds has read. -/
theorem loadFromSerializedBytes_ok {bytes : List UInt8} {s t : Store}
    (h : loadFromSerializedBytes bytes s = (t, .ok)) :
    ∃ header albums tracks, header.version = stateVersion ∧
      header.albumCount.toNat = albums.length ∧ header.trackCount.toNat = tracks.length ∧
      albums.length ≤ maxAlbums ∧ tracks.length ≤ maxTracks ∧
      header = fileHeader.decode bytes ∧
      bytes = fileHeader.encode header ++ (encodeAll diskAlbum albums ++ encodeAll diskTrack tracks) ∧
      t = { resetCache s with
        nextSequence := if header.nextSequence = 0 then 1 else header.nextSequence
        albumCount := albums.length, trackCount := tracks.length
        albums := ofList albums, tracks := ofList tracks
        dirty := s.dirty || header.nextSequence == 0 } := by
  unfold loadFromSerializedBytes at h
  dsimp only at h
  split at h
  · cases h
  · next hlong =>
    split at h
    · cases h
    · next hheader =>
      split at h
      · cases h
      · split at h
        · next err herr =>
          cases h
          exact absurd herr (readTables_ne_error_ok _ _)
        · next albums albumCount tracks trackCount hread =>
          cases h
          obtain ⟨la, lt, hla, hlt, hal, htl, hbytes, rfl, rfl, rfl, rfl⟩ := readTables_ok hread
          obtain ⟨hversion, -⟩ := not_or.mp hheader
          refine ⟨_, la, lt, of_not_not hversion, hla.symm, hlt.symm, hal, htl, rfl, ?_, rfl⟩
          rw [fileHeader.encode_decode bytes (Nat.not_lt.mp hlong), ← hbytes,
            List.take_append_drop]

theorem Counted.load (bytes : List UInt8) (s : Store) :
    Counted (loadFromSerializedBytes bytes s).1 := by
  have hreset := Counted.resetCache s
  unfold loadFromSerializedBytes
  dsimp only
  split
  · exact hreset
  · split
    · exact hreset
    · split
      · exact hreset
      · split
        · exact hreset
        · next hread =>
          obtain ⟨la, lt, -, -, hal, htl, -, rfl, rfl, rfl, rfl⟩ := readTables_ok hread
          refine ⟨(inUse_ofList hal).symm, (inUse_ofList htl).symm, ?_⟩
          dsimp only
          split
          · decide
          · next hnext => exact hnext

theorem Counted.loadLocked (f : Faults) (s : Store) (d : Disk) :
    Counted (loadLocked f s d).1 := by
  have hreset : Counted { Cache.resetCache s with dirty := false } :=
    ⟨(Counted.resetCache s).albums, (Counted.resetCache s).tracks, (Counted.resetCache s).next⟩
  unfold Flush.loadLocked
  dsimp only
  split
  · exact hreset
  · repeat' split
    all_goals first | exact hreset | exact Counted.load _ _

theorem Counted.flushLocked {f : Faults} {info : Option (UInt32 × UInt32)} {s t : Store}
    {d d' : Disk} {err : EspErr} (h : Counted s) (hflush : flushLocked f info s d = (t, d', err)) :
    Counted t := by
  by_cases herr : err = .ok
  · subst herr
    by_cases hd : s.dirty = true
    · obtain ⟨-, -, -, rfl⟩ := flushLocked_ok hd hflush
      exact ⟨h.albums, h.tracks, h.next⟩
    · rw [Flush.flushLocked, if_pos (Bool.eq_false_iff.mpr hd)] at hflush
      cases hflush
      exact h
  · obtain ⟨rfl, -⟩ := flushLocked_error hflush herr
    exact h

/-! ## The caches reached -/

/-- The caches of a service that loads whatever file there is, processes events
and flushes, with any file operation failing. -/
inductive Reached : Store → Prop where
  | reset (s : Store) : Reached (resetCache s)
  | event {s : Store} (h : Reached s) (cart : Cartridge) (event : Event) :
      Reached (processEvent cart event s).1
  | load {s : Store} (h : Reached s) (f : Faults) (d : Disk) : Reached (loadLocked f s d).1
  | flush {s : Store} (h : Reached s) (f : Faults) (info : Option (UInt32 × UInt32)) (d : Disk) :
      Reached (flushLocked f info s d).1

theorem Reached.counted {s : Store} (h : Reached s) : Counted s := by
  induction h with
  | reset s => exact .resetCache s
  | event _ cart event ih => exact ih.processEvent cart event
  | load _ f d _ => exact .loadLocked f _ d
  | flush _ f info d ih => exact ih.flushLocked (t := (Flush.flushLocked f info _ d).1) rfl

/-- The bytes a flush writes of a cache whose counters are right. -/
theorem buildSerializedBlob_ok {s : Store} {blob : List UInt8}
    (hbuild : buildSerializedBlob s = .ok blob) :
    blob = fileHeader.encode (headerOf s) ++
        (encodeAll diskAlbum (records s.albums) ++ encodeAll diskTrack (records s.tracks)) ∧
      blob.length = serializedSizeForCounts s.albumCount s.trackCount ∧
      blob.length ≤ maxSerializedBytes := by
  obtain ⟨hmax, hrest⟩ := failIf_bind_ok_iff.mp hbuild
  obtain ⟨hlen, hblob⟩ := failIf_bind_ok_iff.mp hrest
  cases hblob
  have hlen := of_not_not (mt bne_iff_ne.mpr (Bool.eq_false_iff.mp hlen))
  refine ⟨rfl, hlen, ?_⟩
  rw [hlen]
  exact Nat.not_lt.mp (of_decide_eq_false hmax)

/-- What a flush wrote is loaded again: the same records in the same order. -/
theorem load_flushed {s : Store} (h : Counted s) {blob : List UInt8}
    (hbuild : buildSerializedBlob s = .ok blob) {d : Disk} (hfile : d.file = some blob)
    {g : Faults} (hg : ∀ n, g.succeeds n = true) (u : Store) :
    ∃ v d', loadLocked g u d = (v, d', .ok) ∧ records v.albums = records s.albums ∧
      records v.tracks = records s.tracks ∧ v.nextSequence = s.nextSequence ∧
      v.albumCount = s.albumCount ∧ v.trackCount = s.trackCount := by
  obtain ⟨-, hlen, hmax⟩ := buildSerializedBlob_ok hbuild
  have h0 : blob.length ≠ 0 := by
    rw [hlen]
    exact Nat.ne_of_gt (Nat.lt_of_lt_of_le (by decide : 0 < fileHeader.size)
      (Nat.le_trans (Nat.le_add_right _ _) (Nat.le_add_right _ _)))
  obtain ⟨d', hload⟩ := loadLocked_of_succeeds hg hfile h0 hmax u
  rw [load_buildSerializedBlob h.albums h.tracks h.next hbuild] at hload
  have hal := (length_records s.albums).trans_le (inUse_le s.albums)
  have htl := (length_records s.tracks).trans_le (inUse_le s.tracks)
  exact ⟨_, d', hload, records_ofList hal, records_ofList htl, rfl, rfl, rfl⟩

theorem serializedSizeForCounts_le {albums tracks : Nat} (ha : albums ≤ maxAlbums)
    (ht : tracks ≤ maxTracks) : serializedSizeForCounts albums tracks ≤ maxSerializedBytes :=
  Nat.add_le_add (Nat.add_le_add_left (Nat.mul_le_mul_right _ ha) _) (Nat.mul_le_mul_right _ ht)

/-- What a load accepted would be written again. -/
theorem build_loaded {bytes : List UInt8} {s t : Store}
    (h : loadFromSerializedBytes bytes s = (t, .ok))
    (hnext : (fileHeader.decode bytes).nextSequence ≠ 0) : buildSerializedBlob t = .ok bytes := by
  obtain ⟨header, la, lt, hversion, hla, hlt, hal, htl, hheader, hbytes, rfl⟩ :=
    loadFromSerializedBytes_ok h
  rw [← hheader] at hnext
  have hheaderOf : headerOf { resetCache s with
      nextSequence := if header.nextSequence = 0 then 1 else header.nextSequence
      albumCount := la.length, trackCount := lt.length
      albums := ofList la, tracks := ofList lt
      dirty := s.dirty || header.nextSequence == 0 } = header := by
    rw [headerOf, if_neg hnext, ← hla, ← hlt, UInt32.ofNat_toNat, UInt32.ofNat_toNat, ← hversion]
  have hlen : bytes.length = serializedSizeForCounts la.length lt.length := by
    rw [hbytes, List.length_append, List.length_append, fileHeader.length_encode,
      length_encodeAll, length_encodeAll, serializedSizeForCounts, Nat.add_assoc]
  rw [buildSerializedBlob, hheaderOf]
  dsimp only
  rw [records_ofList hal, records_ofList htl, ← hbytes, hlen]
  have hmax : decide (maxSerializedBytes < serializedSizeForCounts la.length lt.length) = false :=
    decide_eq_false (Nat.not_lt.mpr (serializedSizeForCounts_le hal htl))
  rw [hmax, bne_self_eq_false]
  rfl

def calm : Faults := ⟨fun _ => true, fun _ => none⟩

/-- The disk of a new device. -/
def noFile : Disk := ⟨none, 0, []⟩

def bootStore : Store :=
  (loadLocked calm (resetCache ⟨1, 0, 0, empty, empty, false, false⟩) noFile).1

/-- **The history survives the file.** A flush of a dirty cache that reports
success leaves exactly the cache's bytes, which load again to the same records
in the same order; bytes a load accepts are what a flush of that cache writes; a
flush that fails leaves the cache dirty, and one of a clean cache does nothing. -/
theorem history_round_trip :
    (∀ s, Reached s → s.dirty = true → ∀ f info d t d', flushLocked f info s d = (t, d', .ok) →
      ∃ blob, buildSerializedBlob s = .ok blob ∧ d'.file = some blob ∧
        ∀ g, (∀ n, g.succeeds n = true) → ∀ u, ∃ v d'', loadLocked g u d' = (v, d'', .ok) ∧
          records v.albums = records s.albums ∧ records v.tracks = records s.tracks ∧
          v.nextSequence = s.nextSequence ∧ v.albumCount = s.albumCount ∧
          v.trackCount = s.trackCount) ∧
    (∀ bytes s t, loadFromSerializedBytes bytes s = (t, .ok) →
      (fileHeader.decode bytes).nextSequence ≠ 0 → buildSerializedBlob t = .ok bytes) ∧
    (∀ f info s d t d' err, flushLocked f info s d = (t, d', err) → err ≠ .ok →
      t.dirty = true) ∧
    ∀ f info s d, s.dirty = false → flushLocked f info s d = (s, d, .ok) := by
  refine ⟨?_, ?_, ?_, ?_⟩
  · intro s hs hd f info d t d' hflush
    obtain ⟨blob, hbuild, hfile, -⟩ := flushLocked_ok hd hflush
    exact ⟨blob, hbuild, hfile, fun g hg u => load_flushed hs.counted hbuild hfile hg u⟩
  · intro bytes s t h hnext
    exact build_loaded h hnext
  · intro f info s d t d' err hflush herr
    obtain ⟨rfl, hd⟩ := flushLocked_error hflush herr
    exact hd
  · intro f info s d hd
    rw [flushLocked, if_pos hd]

/-- The cache of a new device once it knows the cartridge that is inserted. -/
def syncedStore : Store :=
  (processEvent Invariant.oneTrackCartridge .syncCurrentCartridge bootStore).1

/-- It is saved, and a restart finds the album and its track. -/
theorem history_round_trip_synced : ∃ t d' v d'',
    flushLocked calm none syncedStore noFile = (t, d', .ok) ∧
      loadLocked calm bootStore d' = (v, d'', .ok) ∧ v.albumCount = 1 ∧ v.trackCount = 1 := by
  have hreached : Reached syncedStore :=
    .event (.load (.reset _) calm noFile) Invariant.oneTrackCartridge .syncCurrentCartridge
  have hdirty : syncedStore.dirty = true := by decide +kernel
  have hok : (flushLocked calm none syncedStore noFile).2.2 = .ok := by decide +kernel
  rcases hflush : flushLocked calm none syncedStore noFile with ⟨t, d', err⟩
  rw [hflush] at hok
  obtain rfl : err = .ok := hok
  obtain ⟨blob, -, -, hload⟩ :=
    history_round_trip.1 syncedStore hreached hdirty calm none noFile t d' hflush
  obtain ⟨v, d'', hload, -, -, -, halbums, htracks⟩ := hload calm (fun _ => rfl) bootStore
  exact ⟨t, d', v, d'', rfl, hload, halbums.trans (by decide +kernel),
    htracks.trans (by decide +kernel)⟩

/-! ## A flush that writes nothing -/

/-- **A clean cache need not be in the file**: on a new device the first flush
reports success and there is no file. -/
theorem clean_flush_without_file :
    Reached bootStore ∧ ∃ t d', flushLocked calm none bootStore noFile = (t, d', .ok) ∧
      ∀ blob, buildSerializedBlob bootStore = .ok blob → d'.file ≠ some blob :=
  ⟨.load (.reset _) calm noFile, _, _, rfl, fun _ _ h => by cases h⟩

end Jukeboy.PlayHistory.FileRoundTrip
