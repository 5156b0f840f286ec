import Jukeboy.PlayHistory.Effects

/-! # What each operation on the cache does

One lemma for each function of the service: the path of changes it comes to. -/
namespace Jukeboy.PlayHistory.Operations

open Jukeboy.Base Jukeboy.Base.SlotTable Jukeboy.Formats.Jbm Jukeboy.PlayHistory.Cache
  Jukeboy.PlayHistory.Effects

/-! ## Searches -/

theorem findAlbumSlot_some {s : Store} {checksum : UInt32} {i : Fin maxAlbums}
    (h : findAlbumSlot s checksum = some i) :
    ∃ a, s.albums i = some a ∧ a.checksum = checksum := by
  rw [findAlbumSlot] at h
  obtain ⟨a, hi, hc⟩ := find_some h
  exact ⟨a, hi, eq_of_beq hc⟩

theorem findAlbumSlot_eq_none {s : Store} {checksum : UInt32} :
    findAlbumSlot s checksum = none ↔ albumAt s checksum = none := by
  rw [findAlbumSlot, find_eq_none, albumAt, lookup_eq_none]
  simp only [beq_eq_false_iff_ne]

theorem trackSlot_pred (checksum index : UInt32) (t : Track) :
    (t.cartridgeChecksum == checksum && t.trackIndex == index) = true ↔
      t.key = (checksum, index) := by
  rw [Bool.and_eq_true, beq_iff_eq, beq_iff_eq, Track.key, Prod.mk.injEq]

theorem findTrackSlot_some {s : Store} {checksum index : UInt32} {i : Fin maxTracks}
    (h : findTrackSlot s checksum index = some i) :
    ∃ t, s.tracks i = some t ∧ t.key = (checksum, index) := by
  obtain ⟨t, hi, hp⟩ := find_some h
  exact ⟨t, hi, (trackSlot_pred checksum index t).mp hp⟩

theorem findTrackSlot_eq_none {s : Store} {checksum index : UInt32} :
    findTrackSlot s checksum index = none ↔ trackAt s (checksum, index) = none := by
  rw [findTrackSlot, find_eq_none, trackAt, lookup_eq_none]
  simp only [Bool.eq_false_iff, ne_eq, trackSlot_pred]

theorem findTrackSlot_isNone {s : Store} {checksum index : UInt32} :
    (findTrackSlot s checksum index).isNone = !decide ((checksum, index) ∈ trackKeys s) := by
  rw [Bool.eq_iff_iff, Option.isNone_iff_eq_none, findTrackSlot_eq_none, Bool.not_eq_true',
    decide_eq_false_iff_not, mem_trackKeys, Bool.not_eq_true, Option.isSome_eq_false_iff,
    Option.isNone_iff_eq_none]

/-! ## Making room -/

theorem removeAlbum_eq {s : Store} (hs : Shape s) {i : Fin maxAlbums} {a : Album}
    (hi : s.albums i = some a) : removeAlbum s i = withoutAlbum a.checksum s := by
  have hcount : s.albumCount - 1 = inUse (SlotTable.clear s.albums i) := by
    rw [hs.albumCount, ← inUse_clear hi, Nat.add_sub_cancel]
  simp only [removeAlbum, hi, hs.trackCount, clearLoop_finRange, hcount,
    hs.albums.clear_eq_erase hi, withoutAlbum]

/-- The condition of the loop that makes room. -/
def Over (albumDelta trackDelta : Nat) (s : Store) : Prop :=
  maxAlbums < s.albumCount + albumDelta ∨ maxTracks < s.trackCount + trackDelta

/-- Albums taken out while there is no room, each the one seen first of those
not to be kept. -/
inductive Pruned (keep : UInt32) (albumDelta trackDelta : Nat) :
    Store → List UInt32 → Store → Prop where
  | room {s : Store} (h : ¬ Over albumDelta trackDelta s) : Pruned keep albumDelta trackDelta s [] s
  | prune {s t : Store} {cs : List UInt32} {i : Fin maxAlbums} {a : Album}
      (hover : Over albumDelta trackDelta s) (hi : s.albums i = some a) (hne : a.checksum ≠ keep)
      (hold : ∀ b, Holds s.albums b → b.checksum ≠ keep →
        a.firstSeenSequence.toNat ≤ b.firstSeenSequence.toNat)
      (hrest : Pruned keep albumDelta trackDelta (withoutAlbum a.checksum s) cs t) :
      Pruned keep albumDelta trackDelta s (a.checksum :: cs) t

theorem Pruned.path {keep : UInt32} {da dt : Nat} {s t : Store} {cs : List UInt32}
    (h : Pruned keep da dt s cs t) : Path s (cs.map .removeAlbum) t := by
  induction h with
  | room => exact .nil _
  | prune _ hi _ _ _ ih => exact .cons (.removeAlbum hi) ih

theorem Pruned.room_left {keep : UInt32} {da dt : Nat} {s t : Store} {cs : List UInt32}
    (h : Pruned keep da dt s cs t) : ¬ Over da dt t := by
  induction h with
  | room h => exact h
  | prune _ _ _ _ _ ih => exact ih

/-- The slot of the album to keep is not touched. -/
theorem Pruned.album_kept {keep : UInt32} {da dt : Nat} {s t : Store} {cs : List UInt32}
    (h : Pruned keep da dt s cs t) {i : Fin maxAlbums} {a : Album} (hi : s.albums i = some a)
    (ha : a.checksum = keep) : t.albums i = some a := by
  induction h with
  | room => exact hi
  | @prune s t cs j b _ _ hne _ _ ih =>
    have hkeep : (a.checksum == b.checksum) = false := by
      rw [ha]
      exact beq_false_of_ne (Ne.symm hne)
    exact ih (Option.filter_eq_some_iff.mpr ⟨hi, by simp only [hkeep, Bool.not_false]⟩)

/-- An album that was not there is not there after pruning. -/
theorem Pruned.albumAt_none {keep : UInt32} {da dt : Nat} {s t : Store} {cs : List UInt32}
    (h : Pruned keep da dt s cs t) {c : UInt32} (hc : albumAt s c = none) :
    albumAt t c = none := by
  induction h with
  | room => exact hc
  | prune _ _ _ _ _ ih =>
    exact ih (lookup_eq_none.mpr fun a ha => lookup_eq_none.mp hc a (holds_erase.mp ha).1)

/-- The tracks of one album. -/
def tracksOf (checksum : UInt32) (s : Store) : Finset TrackKey :=
  (trackKeys s).filter fun k => k.1 = checksum

theorem tracksOf_withoutAlbum {s : Store} (hs : Shape s) {c d : UInt32} (hne : d ≠ c) :
    tracksOf c (withoutAlbum d s) = tracksOf c s := by
  rw [tracksOf, tracksOf, trackKeys_withoutAlbum hs, Finset.filter_filter]
  refine Finset.filter_congr fun k _ => ⟨And.right, fun hk => ⟨?_, hk⟩⟩
  rw [hk]
  exact hne.symm

theorem Pruned.tracksOf_keep {keep : UInt32} {da dt : Nat} {s t : Store} {cs : List UInt32}
    (h : Pruned keep da dt s cs t) (hs : Shape s) : tracksOf keep t = tracksOf keep s := by
  induction h with
  | room => rfl
  | prune _ _ hne _ _ ih => rw [ih (hs.remove _), tracksOf_withoutAlbum hs hne]

/-- While there is no room for one album and its tracks, another album is in use. -/
theorem exists_other_album {s : Store} (hs : Shape s) {keep : UInt32} {da dt : Nat}
    (hda : da ≤ 1) (hdt : (tracksOf keep s).card + dt ≤ maxTracks) (hover : Over da dt s) :
    ∃ a, Holds s.albums a ∧ a.checksum ≠ keep := by
  by_contra hnone
  have hall : ∀ a, Holds s.albums a → a.checksum = keep :=
    fun a ha => by_contra fun hne => hnone ⟨a, ha, hne⟩
  have halbums : s.albumCount ≤ 1 := by
    rw [hs.albumCount, ← hs.albums.card_keys, ← Finset.card_singleton keep]
    refine Finset.card_le_card fun c hc => Finset.mem_singleton.mpr ?_
    obtain ⟨a, ha⟩ := Option.isSome_iff_exists.mp (mem_keys.mp hc)
    obtain ⟨hheld, hkey⟩ := hs.albums.lookup_eq_some.mp ha
    exact hkey ▸ hall a hheld
  have htracks : tracksOf keep s = trackKeys s := by
    refine Finset.filter_true_of_mem fun k hk => ?_
    obtain ⟨t, ht⟩ := Option.isSome_iff_exists.mp (mem_trackKeys.mp hk)
    obtain ⟨hheld, hkey⟩ := hs.tracks.lookup_eq_some.mp ht
    obtain ⟨a, ha, hat⟩ := hs.home t hheld
    rw [← hkey]
    exact hat.symm.trans (hall a ha)
  have hcard : s.trackCount = (tracksOf keep s).card := by
    rw [htracks, trackKeys, hs.tracks.card_keys, hs.trackCount]
  rcases hover with h | h
  · exact absurd h (by unfold maxAlbums; omega)
  · rw [hcard] at h
    exact absurd hdt (Nat.not_le.mpr h)

theorem inUse_withoutAlbum {s : Store} (hs : Shape s) {i : Fin maxAlbums} {a : Album}
    (hi : s.albums i = some a) :
    inUse (withoutAlbum a.checksum s).albums + 1 = inUse s.albums := by
  rw [← inUse_clear hi, hs.albums.clear_eq_erase hi]
  rfl

/-- The search for the album to prune finds one that was seen first of the others. -/
theorem findOldestAlbumSlot_some {s : Store} {keep : UInt32} (ht : Timed s)
    (hother : ∃ a, Holds s.albums a ∧ a.checksum ≠ keep) :
    ∃ i a, findOldestAlbumSlot s keep true = some i ∧ s.albums i = some a ∧ a.checksum ≠ keep ∧
      ∀ b, Holds s.albums b → b.checksum ≠ keep →
        a.firstSeenSequence.toNat ≤ b.firstSeenSequence.toNat := by
  have hp : ∀ a : Album, (!(true && a.checksum == keep)) = true ↔ a.checksum ≠ keep := by
    simp
  obtain ⟨a, ha, hne⟩ := hother
  have hlt : a.firstSeenSequence.toNat < 0xFFFFFFFF :=
    (ht.albums a ha).trans_le (Nat.le_of_lt_succ s.nextSequence.toNat_lt)
  obtain ⟨i, hi⟩ := @least_isSome _ _ s.albums (fun a => !(true && a.checksum == keep))
    (fun a => a.firstSeenSequence.toNat) _ a ha ((hp a).mpr hne) hlt
  obtain ⟨b, hib, hpb, hleast⟩ := least_some hi
  exact ⟨i, b, hi, hib, (hp b).mp hpb, fun c hc hcne => hleast c hc ((hp c).mpr hcne)⟩

/-- **Making room** always succeeds and prunes only other albums, oldest first,
when the album to keep has room for itself. -/
theorem ensureCapacityLoop_spec {keep : UInt32} {da dt : Nat} (hda : da ≤ 1) (turns : Nat)
    {s : Store} (hs : Shape s) (ht : Timed s)
    (hdt : (tracksOf keep s).card + dt ≤ maxTracks) (hturns : inUse s.albums < turns) :
    ∃ cs t, ensureCapacityLoop keep true da dt turns s = (t, .ok) ∧ Pruned keep da dt s cs t := by
  induction turns generalizing s with
  | zero => exact absurd hturns (Nat.not_lt_zero _)
  | succ turns ih =>
    by_cases hover : Over da dt s
    · obtain ⟨i, a, hfind, hi, hne, hold⟩ :=
        findOldestAlbumSlot_some ht (exists_other_album hs hda hdt hover)
      have hless := inUse_withoutAlbum hs hi
      obtain ⟨cs, t, hloop, hpruned⟩ := ih (hs.remove a.checksum) (ht.remove a.checksum)
        (by rwa [tracksOf_withoutAlbum hs hne]) (by omega)
      refine ⟨a.checksum :: cs, t, ?_, .prune hover hi hne hold hpruned⟩
      unfold Over at hover
      simp only [ensureCapacityLoop, if_pos hover, hfind, removeAlbum_eq hs hi, hloop]
    · refine ⟨[], s, ?_, .room hover⟩
      unfold Over at hover
      rw [ensureCapacityLoop, if_neg hover]

/-! ## The tracks of the inserted cartridge -/

/-- The indices of an album's tracks that are not in use. -/
def missingIn (checksum : UInt32) (s : Store) (indices : List Nat) : List Nat :=
  indices.filter fun index => decide ((checksum, UInt32.ofNat index) ∉ trackKeys s)

def missingTracks (cart : Cartridge) (checksum : UInt32) (s : Store) : List Nat :=
  missingIn checksum s (List.range cart.getMetadataTrackCount)

theorem missingIn_cons_of_mem {c : UInt32} {s : Store} {index : Nat} (rest : List Nat)
    (h : (c, UInt32.ofNat index) ∈ trackKeys s) :
    missingIn c s (index :: rest) = missingIn c s rest :=
  List.filter_cons_of_neg (by simpa using h)

theorem missingIn_cons_of_not_mem {c : UInt32} {s : Store} {index : Nat} (rest : List Nat)
    (h : (c, UInt32.ofNat index) ∉ trackKeys s) :
    missingIn c s (index :: rest) = index :: missingIn c s rest :=
  List.filter_cons_of_pos (decide_eq_true h)

theorem missingIn_congr {c : UInt32} {s t : Store} {indices : List Nat}
    (h : ∀ i ∈ indices, (c, UInt32.ofNat i) ∈ trackKeys s ↔ (c, UInt32.ofNat i) ∈ trackKeys t) :
    missingIn c s indices = missingIn c t indices := by
  refine List.filter_congr fun i hi => ?_
  simp only [h i hi]

theorem countMissing_eq (cart : Cartridge) (s : Store) (checksum : UInt32) :
    countMissingTracksForCurrentCartridge cart s checksum =
      (missingTracks cart checksum s).length := by
  rw [countMissingTracksForCurrentCartridge, missingTracks, missingIn,
    ← List.countP_eq_length_filter]
  refine List.countP_congr fun index hindex => ?_
  have hsome := Cartridge.getMetadataTrack_isSome.mpr (List.mem_range.mp hindex)
  rw [hsome, Bool.true_and, findTrackSlot_isNone, decide_not]

theorem toNat_ofNat_index {cart : Cartridge} {index : Nat}
    (h : index < cart.getMetadataTrackCount) : (UInt32.ofNat index).toNat = index := by
  have hle := h.trans_le cart.getMetadataTrackCount_le
  exact UInt32.toNat_ofNat_of_lt' (hle.trans (by decide))

/-- The tracks an album has and those it lacks are at most 999 together. -/
theorem tracksOf_add_missing_le {s : Store} (hs : Shape s) (cart : Cartridge) (c : UInt32) :
    (tracksOf c s).card + (missingTracks cart c s).length ≤ maxTrackFiles := by
  have hinj : Set.InjOn (fun k : TrackKey => k.2.toNat) (tracksOf c s) := by
    intro k hk l hl heq
    have hk1 := (Finset.mem_filter.mp hk).2
    have hl1 := (Finset.mem_filter.mp hl).2
    exact Prod.ext (hk1.trans hl1.symm) (UInt32.toNat_inj.mp heq)
  have hnodup : (missingTracks cart c s).Nodup := List.nodup_range.filter _
  rw [← Finset.card_image_of_injOn hinj, ← List.toFinset_card_of_nodup hnodup,
    ← Finset.card_union_of_disjoint, ← Finset.card_range maxTrackFiles]
  · refine Finset.card_le_card (Finset.union_subset ?_ ?_)
    · intro j hj
      obtain ⟨k, hk, rfl⟩ := Finset.mem_image.mp hj
      obtain ⟨t, ht⟩ := Option.isSome_iff_exists.mp
        (mem_trackKeys.mp (Finset.mem_filter.mp hk).1)
      obtain ⟨hheld, rfl⟩ := hs.tracks.lookup_eq_some.mp ht
      exact Finset.mem_range.mpr (hs.index t hheld)
    · intro j hj
      have hlt := List.mem_range.mp (List.mem_filter.mp (List.mem_toFinset.mp hj)).1
      exact Finset.mem_range.mpr (hlt.trans_le cart.getMetadataTrackCount_le)
  · rw [Finset.disjoint_left]
    intro j hj hmiss
    obtain ⟨hlt, hnot⟩ := List.mem_filter.mp (List.mem_toFinset.mp hmiss)
    obtain ⟨k, hk, rfl⟩ := Finset.mem_image.mp hj
    obtain ⟨hk, hk1⟩ := Finset.mem_filter.mp hk
    refine of_decide_eq_true hnot ?_
    have hkey : (c, UInt32.ofNat k.2.toNat) = k := by
      rw [UInt32.ofNat_toNat, ← hk1]
    rw [hkey]
    exact hk

/-- Pruning leaves the tracks of the album to keep that are missing. -/
theorem Pruned.missingTracks_eq {keep : UInt32} {da dt : Nat} {s t : Store} {cs : List UInt32}
    (h : Pruned keep da dt s cs t) (hs : Shape s) (cart : Cartridge) :
    missingTracks cart keep t = missingTracks cart keep s := by
  refine missingIn_congr fun i _ => ?_
  have hiff := Finset.ext_iff.mp (h.tracksOf_keep hs) (keep, UInt32.ofNat i)
  rw [tracksOf, tracksOf, Finset.mem_filter, Finset.mem_filter] at hiff
  rwa [and_iff_left rfl, and_iff_left rfl] at hiff

theorem Pruned.albumAt_eq_none {keep : UInt32} {da dt : Nat} {s t : Store} {cs : List UInt32}
    (h : Pruned keep da dt s cs t) (hs : Shape s) :
    albumAt t keep = none ↔ albumAt s keep = none := by
  refine ⟨fun hnone => ?_, h.albumAt_none⟩
  by_contra hsome
  obtain ⟨a, ha⟩ := Option.ne_none_iff_exists'.mp hsome
  obtain ⟨⟨j, hj⟩, hkey⟩ := hs.albums.lookup_eq_some.mp ha
  exact lookup_eq_none.mp hnone a ⟨j, h.album_kept hj hkey⟩ hkey

/-! ## The steps of a sync -/

theorem openAlbum_spec {s : Store} {c : UInt32} (hroom : albumAt s c = none → s.albumCount < maxAlbums)
    (hs : Shape s) {found : Option (Fin maxAlbums)}
    (hsome : ∀ i, found = some i → ∃ a, s.albums i = some a ∧ a.checksum = c)
    (hnone : found = none → albumAt s c = none) :
    ∃ i a t, openAlbum c found s = some (i, t) ∧
      Path s (if found = none then [.addAlbum c] else []) t ∧ t.albums i = some a ∧
      a.checksum = c ∧ t.tracks = s.tracks ∧ t.trackCount = s.trackCount := by
  cases found with
  | some i =>
    obtain ⟨a, hi, ha⟩ := hsome i rfl
    exact ⟨i, a, s, rfl, .nil s, hi, ha, rfl, rfl⟩
  | none =>
    have hfresh := hnone rfl
    obtain ⟨i, hfree⟩ := free_isSome (hs.albumCount ▸ hroom hfresh)
    have hchange := @Change.addAlbum s i
      { checksum := c, trackCount := 0, firstSeenSequence := (nextSequence s).1,
        lastSeenSequence := 0, metadata := .zero } (free_some hfree) hfresh rfl
    refine ⟨i, _, _, by simp only [openAlbum, findFreeAlbumSlot, hfree], .one hchange,
      Function.update_self .., rfl, ?_, ?_⟩
    · exact nextSequence_tracks s
    · exact nextSequence_trackCount s

theorem updateAlbum_spec {s : Store} {i : Fin maxAlbums} {a : Album} (hi : s.albums i = some a)
    (metadata : JbmHeader) (sequence : UInt32) :
    Change s .quiet (updateAlbum i metadata sequence s) ∧
      Holds (updateAlbum i metadata sequence s).albums
        { a with trackCount := metadata.trackCount, lastSeenSequence := sequence, metadata } ∧
      (updateAlbum i metadata sequence s).tracks = s.tracks ∧
      (updateAlbum i metadata sequence s).trackCount = s.trackCount := by
  have heq : updateAlbum i metadata sequence s = { s with
      albums := SlotTable.set s.albums i
        { a with trackCount := metadata.trackCount, lastSeenSequence := sequence, metadata } } := by
    simp only [updateAlbum, hi]
  rw [heq]
  exact ⟨.updateAlbum hi rfl rfl, holds_set_self .., rfl, rfl⟩

theorem updateTrack_spec {s : Store} {i : Fin maxTracks} {t : Track} (hi : s.tracks i = some t)
    (metadata : JbmTrack) (sequence : UInt32) :
    Change s .quiet (updateTrack i metadata sequence s) ∧
      (updateTrack i metadata sequence s).albums = s.albums ∧
      (updateTrack i metadata sequence s).trackCount = s.trackCount := by
  have heq : updateTrack i metadata sequence s = { s with
      tracks := SlotTable.set s.tracks i
        { t with trackFileNum := metadata.fileNum, lastSeenSequence := sequence, metadata } } := by
    simp only [updateTrack, hi]
  rw [heq]
  exact ⟨.updateTrack hi rfl rfl, rfl, rfl⟩

theorem openTrack_spec {s : Store} {c index : UInt32} (hs : Shape s)
    (hhome : ∃ a, Holds s.albums a ∧ a.checksum = c) (hindex : index.toNat < maxTrackFiles)
    (hroom : (c, index) ∉ trackKeys s → s.trackCount < maxTracks) :
    ∃ i u t, openTrack c index s = some (i, t) ∧
      Path s (if (c, index) ∈ trackKeys s then [] else [.addTrack (c, index)]) t ∧
      t.tracks i = some u ∧ t.albums = s.albums ∧
      t.trackCount = s.trackCount + if (c, index) ∈ trackKeys s then 0 else 1 := by
  cases hfind : findTrackSlot s c index with
  | some i =>
    obtain ⟨u, hi, hu⟩ := findTrackSlot_some hfind
    have hat : trackAt s (c, index) = some u := hs.tracks.lookup_eq_some.mpr ⟨⟨i, hi⟩, hu⟩
    have hmem : (c, index) ∈ trackKeys s := by
      rw [mem_trackKeys, hat]
      rfl
    rw [if_pos hmem, if_pos hmem]
    exact ⟨i, u, s, by rw [openTrack, hfind], .nil s, hi, rfl, rfl⟩
  | none =>
    have hfresh := findTrackSlot_eq_none.mp hfind
    have hnot : (c, index) ∉ trackKeys s := by
      rw [mem_trackKeys, hfresh]
      exact Bool.false_ne_true
    have hlt : inUse s.tracks < maxTracks := by
      rw [← hs.trackCount]
      exact hroom hnot
    obtain ⟨i, hfree⟩ := free_isSome hlt
    have hchange := @Change.addTrack s i
      { cartridgeChecksum := c, trackIndex := index, trackFileNum := 0, playCount := 0,
        firstSeenSequence := (nextSequence s).1, lastSeenSequence := 0, metadata := .zero }
      (free_some hfree) hfresh hhome hindex rfl
    rw [if_neg hnot, if_neg hnot]
    refine ⟨i, _, _, ?_, .one hchange, Function.update_self .., ?_, ?_⟩
    · simp only [openTrack, findFreeTrackSlot, hfind, hfree]
    · exact nextSequence_albums s
    · exact congrArg (· + 1) (nextSequence_trackCount s)

/-- The loop over the cartridge's tracks makes exactly those that are missing. -/
theorem syncTracks_spec (cart : Cartridge) (c sequence : UInt32) {is : List Nat} {s : Store}
    (hs : Shape s) (hhome : ∃ a, Holds s.albums a ∧ a.checksum = c) (hnodup : is.Nodup)
    (hlt : ∀ i ∈ is, i < cart.getMetadataTrackCount)
    (hroom : s.trackCount + (missingIn c s is).length ≤ maxTracks) :
    ∃ t, syncTracks cart c sequence is s = (t, .ok) ∧
      Path s ((missingIn c s is).map fun i => .addTrack (c, UInt32.ofNat i)) t := by
  induction is generalizing s with
  | nil => exact ⟨s, rfl, .nil s⟩
  | cons index rest ih =>
    have hindex := hlt index (List.mem_cons_self ..)
    obtain ⟨hnotmem, hrest⟩ := List.nodup_cons.mp hnodup
    obtain ⟨track, htrack⟩ :=
      Option.isSome_iff_exists.mp (Cartridge.getMetadataTrack_isSome.mpr hindex)
    have hfile : (UInt32.ofNat index).toNat < maxTrackFiles := by
      rw [toNat_ofNat_index hindex]
      exact hindex.trans_le cart.getMetadataTrackCount_le
    have hfree : (c, UInt32.ofNat index) ∉ trackKeys s → s.trackCount < maxTracks := by
      intro hnot
      rw [missingIn_cons_of_not_mem rest hnot, List.length_cons] at hroom
      omega
    obtain ⟨i, u, t, hopen, hpath, hi, halbums, hcount⟩ := openTrack_spec hs hhome hfile hfree
    obtain ⟨hchange, halbums', hcount'⟩ := updateTrack_spec hi track sequence
    have hst := hpath.append (.silent hchange)
    rw [List.append_nil] at hst
    -- the tracks still missing are those of the rest
    have hsame : missingIn c (updateTrack i track sequence t) rest = missingIn c s rest := by
      refine missingIn_congr fun j hj => ?_
      have hne : UInt32.ofNat j ≠ UInt32.ofNat index := by
        intro heq
        have hnat := congrArg UInt32.toNat heq
        rw [toNat_ofNat_index hindex, toNat_ofNat_index (hlt j (List.mem_cons_of_mem _ hj))]
          at hnat
        exact hnotmem (hnat ▸ hj)
      rw [hst.trackKeys hs]
      split
      · rfl
      · simp [Effect.onTracks, hne]
    have hlt' : ∀ j ∈ rest, j < cart.getMetadataTrackCount :=
      fun j hj => hlt j (List.mem_cons_of_mem _ hj)
    have hhome' : ∃ a, Holds (updateTrack i track sequence t).albums a ∧ a.checksum = c := by
      rw [halbums', halbums]
      exact hhome
    have hroom' : (updateTrack i track sequence t).trackCount +
        (missingIn c (updateTrack i track sequence t) rest).length ≤ maxTracks := by
      rw [hsame, hcount', hcount]
      split
      · next hmem => rwa [missingIn_cons_of_mem rest hmem] at hroom
      · next hmem =>
        rw [missingIn_cons_of_not_mem rest hmem, List.length_cons] at hroom
        omega
    obtain ⟨v, hloop, hrun⟩ := ih (hst.shape hs) hhome' hrest hlt' hroom'
    rw [hsame] at hrun
    have hrun' := hst.append hrun
    refine ⟨v, ?_, ?_⟩
    · simp only [syncTracks, htrack, hopen, hloop]
    · split at hrun'
      · next hmem =>
        rw [missingIn_cons_of_mem rest hmem]
        exact hrun'
      · next hmem =>
        rw [missingIn_cons_of_not_mem rest hmem]
        exact hrun'

/-! ## Whole operations -/

/-- What a sync does to the contents once `pruned` has made room. -/
def syncEffects (cart : Cartridge) (c : UInt32) (pruned : List UInt32) (s : Store) :
    List Effect :=
  pruned.map .removeAlbum ++ ((if albumAt s c = none then [.addAlbum c] else []) ++
    (missingTracks cart c s).map fun i => .addTrack (c, UInt32.ofNat i))

/-- **A sync that has made room** succeeds: it makes the album and the tracks that
are missing, and rewrites the rest. -/
theorem syncCurrentCartridge_of_room {cart : Cartridge} {s made : Store} {metadata : JbmHeader}
    {pruned : List UInt32} (hmount : cart.isMounted = true)
    (hmeta : cart.getMetadataHeader = some metadata) (hs : Shape s)
    (hloop : ensureCapacityLoop metadata.checksum true
        (if albumAt s metadata.checksum = none then 1 else 0)
        (missingTracks cart metadata.checksum s).length (maxAlbums + 1) s = (made, .ok))
    (hpruned : Pruned metadata.checksum (if albumAt s metadata.checksum = none then 1 else 0)
        (missingTracks cart metadata.checksum s).length s pruned made) :
    ∃ t, syncCurrentCartridge cart s = (t, .ok) ∧
      Path s (syncEffects cart metadata.checksum pruned s) t := by
  have hpath := hpruned.path
  have hmade := hpath.shape hs
  have hleft := not_or.mp hpruned.room_left
  have hmissing := hpruned.missingTracks_eq hs cart
  obtain ⟨i, a, t1, hopen, hpath1, hi, ha, htracks1, hcount1⟩ :=
    @openAlbum_spec made metadata.checksum (fun hnone => by
        have hnone' := (hpruned.albumAt_eq_none hs).mp hnone
        have := hleft.1
        rw [if_pos hnone'] at this
        omega)
      hmade (findAlbumSlot s metadata.checksum)
      (fun j hj => by
        obtain ⟨a, hj, ha⟩ := findAlbumSlot_some hj
        exact ⟨a, hpruned.album_kept hj ha, ha⟩)
      (fun hnone => hpruned.albumAt_none (findAlbumSlot_eq_none.mp hnone))
  have hshape1 := hpath1.shape hmade
  have hdraw : Change t1 .quiet (nextSequence t1).2 := .draw t1
  have hi2 : (nextSequence t1).2.albums i = some a := by rw [nextSequence_albums, hi]
  obtain ⟨hchange3, hheld3, htracks3, hcount3⟩ :=
    updateAlbum_spec hi2 metadata (nextSequence t1).1
  have hshape3 := hchange3.shape (hdraw.shape hshape1)
  have hkeys3 : trackKeys (updateAlbum i metadata (nextSequence t1).1 (nextSequence t1).2) =
      trackKeys made := by
    rw [trackKeys, htracks3, nextSequence_tracks, htracks1, ← trackKeys]
  have hmissing3 : missingIn metadata.checksum
      (updateAlbum i metadata (nextSequence t1).1 (nextSequence t1).2)
      (List.range cart.getMetadataTrackCount) = missingTracks cart metadata.checksum s := by
    rw [← hmissing]
    exact missingIn_congr fun j _ => by rw [hkeys3]
  obtain ⟨t4, hsync, hpath4⟩ := syncTracks_spec cart metadata.checksum (nextSequence t1).1
    hshape3 ⟨_, hheld3, ha⟩ List.nodup_range (fun j hj => List.mem_range.mp hj) (by
      rw [hmissing3, hcount3, nextSequence_trackCount, hcount1]
      exact Nat.not_lt.mp hleft.2)
  rw [hmissing3] at hpath4
  simp only [findAlbumSlot_eq_none] at hpath1
  refine ⟨{ t4 with dirty := true }, ?_, ?_⟩
  · have hdelta : (if (findAlbumSlot s metadata.checksum).isNone then 1 else 0) =
        if albumAt s metadata.checksum = none then 1 else 0 := by
      simp only [Option.isNone_iff_eq_none, findAlbumSlot_eq_none]
    simp only [syncCurrentCartridge, hmount, hmeta, hdelta, countMissing_eq, ensureCapacity,
      hloop, hopen, hsync, Bool.true_eq_false, if_false]
  · refine hpath.append (hpath1.append (.quiet hdraw (.quiet hchange3 ?_)))
    have hend := hpath4.append (.silent (.dirty t4))
    rwa [List.append_nil] at hend

/-- **A sync with a readable cartridge** succeeds: it prunes other albums while
there is no room, makes the album and the tracks that are missing, and rewrites
the rest. -/
theorem syncCurrentCartridge_spec {cart : Cartridge} {s : Store} {metadata : JbmHeader}
    (hmount : cart.isMounted = true) (hmeta : cart.getMetadataHeader = some metadata)
    (hs : Shape s) (ht : Timed s) :
    ∃ pruned made t, syncCurrentCartridge cart s = (t, .ok) ∧
      Pruned metadata.checksum (if albumAt s metadata.checksum = none then 1 else 0)
        (missingTracks cart metadata.checksum s).length s pruned made ∧
      Path s (syncEffects cart metadata.checksum pruned s) t := by
  have hroom := tracksOf_add_missing_le hs cart metadata.checksum
  have hda : (if albumAt s metadata.checksum = none then 1 else 0) ≤ 1 := by
    split <;> omega
  obtain ⟨pruned, made, hloop, hpruned⟩ := ensureCapacityLoop_spec hda (maxAlbums + 1) hs ht
    (hroom.trans (by decide)) (Nat.lt_succ_of_le (inUse_le s.albums))
  obtain ⟨t, hsync, hpath⟩ := syncCurrentCartridge_of_room hmount hmeta hs hloop hpruned
  exact ⟨pruned, made, t, hsync, hpruned, hpath⟩

/-- The metadata header a sync works with. -/
def readable (cart : Cartridge) : Option JbmHeader :=
  if cart.isMounted = true then cart.getMetadataHeader else none

theorem readable_some {cart : Cartridge} {metadata : JbmHeader}
    (h : readable cart = some metadata) :
    cart.isMounted = true ∧ cart.getMetadataHeader = some metadata := by
  unfold readable at h
  split at h
  · next hmount => exact ⟨hmount, h⟩
  · cases h

/-- A sync without a readable cartridge changes nothing. -/
theorem syncCurrentCartridge_unreadable {cart : Cartridge} (h : readable cart = none)
    (s : Store) : ∃ err, syncCurrentCartridge cart s = (s, err) ∧ err ≠ .ok := by
  unfold readable at h
  split at h
  · next hmount =>
    exact ⟨.notFound, by simp only [syncCurrentCartridge, hmount, h, Bool.true_eq_false, if_false],
      (fun h => by cases h)⟩
  · next hmount =>
    exact ⟨.invalidState, by rw [syncCurrentCartridge, if_pos (Bool.eq_false_iff.mpr hmount)],
      (fun h => by cases h)⟩

theorem countPlay_spec {s : Store} {i : Fin maxTracks} {t : Track} (hi : s.tracks i = some t)
    (event : TrackEvent) :
    Path s [.countPlay t.key] (countPlay i event s).1 := by
  have hi' : (nextSequence s).2.tracks i = some t := by rw [nextSequence_tracks, hi]
  have hcount := @Change.countPlay s i t
    { t with
      playCount := t.playCount + 1, trackFileNum := event.trackFileNum,
      lastSeenSequence := (nextSequence s).1 } hi rfl rfl
  simp only [countPlay, hi']
  refine .cons hcount (.quiet (.dirty _) ?_)
  cases hfind : findAlbumSlot (nextSequence s).2 event.cartridgeChecksum with
  | none => exact .nil _
  | some j =>
    obtain ⟨a, hj, -⟩ := findAlbumSlot_some hfind
    simp only [hj]
    exact .silent (.updateAlbum hj rfl rfl)

/-- The store a countable play is looked up in: synchronised first when the
track is not in use and the cartridge played is inserted. -/
def storeForPlay (cart : Cartridge) (key : TrackKey) (s : Store) : Store :=
  if key ∉ trackKeys s ∧ (readable cart).any (fun metadata => metadata.checksum == key.1) then
    (syncCurrentCartridge cart s).1
  else s

theorem trackKeys_of_find {s : Store} {c index : UInt32} :
    (∃ i, findTrackSlot s c index = some i) ↔ (c, index) ∈ trackKeys s := by
  rw [mem_trackKeys, ← Option.ne_none_iff_isSome, ne_eq, ← findTrackSlot_eq_none,
    ← ne_eq, Option.ne_none_iff_exists']

theorem slotForPlay_spec (cart : Cartridge) {s : Store} (hs : Shape s) (ht : Timed s)
    (event : TrackEvent) :
    let t := storeForPlay cart (event.cartridgeChecksum, event.trackIndex) s
    slotForPlay cart event s =
        (t, .ok (findTrackSlot t event.cartridgeChecksum event.trackIndex)) ∨
      findTrackSlot t event.cartridgeChecksum event.trackIndex = none ∧
        ∃ err, slotForPlay cart event s = (t, .error err) := by
  dsimp only
  unfold slotForPlay storeForPlay
  cases hfind : findTrackSlot s event.cartridgeChecksum event.trackIndex with
  | some i =>
    have hmem := trackKeys_of_find.mp ⟨i, hfind⟩
    rw [if_neg (fun h => h.1 hmem), hfind]
    exact .inl rfl
  | none =>
    have hnot : (event.cartridgeChecksum, event.trackIndex) ∉ trackKeys s := by
      rw [← trackKeys_of_find, hfind]
      exact fun ⟨i, hi⟩ => by cases hi
    cases hmeta : cart.getMetadataHeader with
    | none =>
      have hread : readable cart = none := by rw [readable, hmeta, ite_self]
      rw [hread, if_neg (fun h => by cases h.2), hfind]
      exact .inl rfl
    | some metadata =>
      dsimp only
      by_cases hc : metadata.checksum = event.cartridgeChecksum
      · rw [if_pos hc]
        cases hread : readable cart with
        | none =>
          obtain ⟨err, hsync, herr⟩ := syncCurrentCartridge_unreadable hread s
          rw [hsync, if_neg (fun h => by cases h.2), hfind]
          cases err <;> first | exact absurd rfl herr | exact .inr ⟨rfl, _, rfl⟩
        | some m =>
          obtain ⟨hmount, hm⟩ := readable_some hread
          obtain rfl := Option.some.inj (hmeta.symm.trans hm)
          obtain ⟨-, -, t, hsync, -, -⟩ := syncCurrentCartridge_spec hmount hmeta hs ht
          rw [hsync, if_pos ⟨hnot, by simp [hc]⟩]
          exact .inl rfl
      · have hany : ¬ (readable cart).any (fun m => m.checksum == event.cartridgeChecksum) = true := by
          unfold readable
          split
          · simp [hmeta, hc]
          · simp
        rw [if_neg hc, if_neg (fun h => hany h.2), hfind]
        exact .inl rfl

/-- A countable play counts in the slot of the track, when there is one after the
sync it may make. -/
theorem applyCountablePlay_eq (cart : Cartridge) {s : Store} (hs : Shape s) (ht : Timed s)
    (event : TrackEvent) :
    let t := storeForPlay cart (event.cartridgeChecksum, event.trackIndex) s
    (applyCountablePlay cart event s).1 =
      match findTrackSlot t event.cartridgeChecksum event.trackIndex with
      | some slot => (countPlay slot event t).1
      | none => t := by
  dsimp only
  generalize htdef : storeForPlay cart (event.cartridgeChecksum, event.trackIndex) s = t
  have hslot := slotForPlay_spec cart hs ht event
  simp only [htdef] at hslot
  cases hfind : findTrackSlot t event.cartridgeChecksum event.trackIndex with
  | none =>
    rcases hslot with hslot | ⟨-, err, hslot⟩
    · rw [applyCountablePlay, hslot, hfind]
    · rw [applyCountablePlay, hslot]
  | some i =>
    rcases hslot with hslot | ⟨hnone, -⟩
    · rw [applyCountablePlay, hslot, hfind]
    · rw [hfind] at hnone
      cases hnone

/-- **A countable play** is counted when the track is in use, or comes into use
with the sync. -/
theorem applyCountablePlay_spec (cart : Cartridge) {s : Store} (hs : Shape s) (ht : Timed s)
    (event : TrackEvent) :
    let t := storeForPlay cart (event.cartridgeChecksum, event.trackIndex) s
    if (event.cartridgeChecksum, event.trackIndex) ∈ trackKeys t then
      Path t [.countPlay (event.cartridgeChecksum, event.trackIndex)]
        (applyCountablePlay cart event s).1
    else (applyCountablePlay cart event s).1 = t := by
  have happly := applyCountablePlay_eq cart hs ht event
  dsimp only at happly ⊢
  rw [happly]
  generalize storeForPlay cart (event.cartridgeChecksum, event.trackIndex) s = t
  cases hfind : findTrackSlot t event.cartridgeChecksum event.trackIndex with
  | none =>
    have hnot : (event.cartridgeChecksum, event.trackIndex) ∉ trackKeys t := by
      rw [← trackKeys_of_find, hfind]
      exact fun ⟨i, hi⟩ => by cases hi
    rw [if_neg hnot]
  | some i =>
    rw [if_pos (trackKeys_of_find.mp ⟨i, hfind⟩)]
    obtain ⟨u, hi, hu⟩ := findTrackSlot_some hfind
    have hcount := countPlay_spec hi event
    rw [hu] at hcount
    exact hcount

theorem processEvent_countablePlay (cart : Cartridge) (track : TrackEvent) (s : Store) :
    (processEvent cart (.countablePlay track) s).1 = (applyCountablePlay cart track s).1 := by
  rw [processEvent]
  split <;> next h => rw [h]

end Jukeboy.PlayHistory.Operations
