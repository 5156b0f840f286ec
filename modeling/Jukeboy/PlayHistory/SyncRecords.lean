import Jukeboy.PlayHistory.Operations

/-! # What a sync and a play leave in each record

Which records an operation writes, what it keeps of them, and when the numbers
in them were drawn. -/
namespace Jukeboy.PlayHistory.SyncRecords

open Jukeboy.Base Jukeboy.Base.SlotTable Jukeboy.Formats.Jbm Jukeboy.PlayHistory.Cache
  Jukeboy.PlayHistory.Effects Jukeboy.PlayHistory.Operations

/-! ## Numbers drawn on the way -/

/-- The sequence counter only counts on between two stores, unless it wraps. -/
structure Onward (s t : Store) : Prop where
  wrapped : s.wrapped = true → t.wrapped = true
  next : 0 < s.nextSequence.toNat → t.wrapped = false →
    s.nextSequence.toNat ≤ t.nextSequence.toNat

/-- The number was drawn between two stores, unless the counter wrapped. -/
def Drawn (s t : Store) (n : UInt32) : Prop :=
  0 < s.nextSequence.toNat → t.wrapped = false →
    s.nextSequence.toNat ≤ n.toNat ∧ n.toNat < t.nextSequence.toNat

theorem Onward.of_eq {s t : Store} (hnext : t.nextSequence = s.nextSequence)
    (hwrapped : t.wrapped = s.wrapped) : Onward s t :=
  ⟨hwrapped.trans, fun _ _ => (congrArg UInt32.toNat hnext).ge⟩

theorem Onward.refl (s : Store) : Onward s s := .of_eq rfl rfl

theorem Onward.not_wrapped {s t : Store} (h : Onward s t) (hw : t.wrapped = false) :
    s.wrapped = false :=
  Bool.eq_false_iff.mpr fun hs => Bool.eq_false_iff.mp hw (h.wrapped hs)

theorem Onward.trans {s t u : Store} (h : Onward s t) (h' : Onward t u) : Onward s u where
  wrapped hs := h'.wrapped (h.wrapped hs)
  next h0 hw := by
    have hst := h.next h0 (h'.not_wrapped hw)
    exact hst.trans (h'.next (h0.trans_le hst) hw)

theorem Drawn.widen {s t u v : Store} {n : UInt32} (h : Drawn t u n) (hbefore : Onward s t)
    (hmid : Onward t u) (hafter : Onward u v) : Drawn s v n := by
  intro h0 hw
  have hwu := hafter.not_wrapped hw
  have hst := hbefore.next h0 (hmid.not_wrapped hwu)
  have htu := hmid.next (h0.trans_le hst) hwu
  obtain ⟨hge, hlt⟩ := h (h0.trans_le hst) hwu
  exact ⟨hst.trans hge, hlt.trans_le (hafter.next ((h0.trans_le hst).trans_le htu) hw)⟩

theorem onward_nextSequence (s : Store) : Onward s (nextSequence s).2 where
  wrapped := wrapped_nextSequence
  next h0 hw := by
    obtain ⟨-, hnext⟩ := nextSequence_of_not_wrapped h0 hw
    exact hnext ▸ Nat.le_succ _

theorem drawn_nextSequence (s : Store) : Drawn s (nextSequence s).2 (nextSequence s).1 := by
  intro h0 hw
  obtain ⟨hdrawn, hnext⟩ := nextSequence_of_not_wrapped h0 hw
  rw [hdrawn, hnext]
  exact ⟨Nat.le_refl _, Nat.lt_succ_self _⟩

/-! ## The album of a sync -/

theorem openAlbum_some {s t : Store} {c : UInt32} {found : Option (Fin maxAlbums)}
    {i : Fin maxAlbums} (hkeyed : Keyed Album.checksum s.albums)
    (hsome : ∀ j, found = some j → ∃ a, s.albums j = some a ∧ a.checksum = c)
    (hnone : found = none → albumAt s c = none) (h : openAlbum c found s = some (i, t)) :
    ∃ a, t.albums i = some a ∧ a.checksum = c ∧ Keyed Album.checksum t.albums ∧
      t.tracks = s.tracks ∧ Onward s t ∧ (∀ d, d ≠ c → albumAt t d = albumAt s d) ∧
      (∀ b, albumAt s c = some b → a = b) ∧
      (albumAt s c = none → a.firstSeenSequence = (nextSequence s).1 ∧
        Drawn s t a.firstSeenSequence) := by
  cases found with
  | some j =>
    obtain ⟨a, hj, ha⟩ := hsome j rfl
    have hat : albumAt s c = some a := hkeyed.lookup_eq_some.mpr ⟨⟨j, hj⟩, ha⟩
    cases h
    refine ⟨a, hj, ha, hkeyed, rfl, .refl s, fun _ _ => rfl, fun b hb => ?_, fun hn => ?_⟩
    · exact Option.some.inj (hat.symm.trans hb)
    · rw [hat] at hn
      cases hn
  | none =>
    have hfresh := hnone rfl
    unfold openAlbum at h
    dsimp only at h
    cases hfree : findFreeAlbumSlot s with
    | none =>
      rw [hfree] at h
      cases h
    | some j =>
      rw [hfree] at h
      cases h
      refine ⟨_, Function.update_self .., rfl, ?_, nextSequence_tracks s, ?_, ?_, ?_, ?_⟩
      · exact (nextSequence_albums s ▸ hkeyed).set_free (nextSequence_albums s ▸ hfresh)
      · exact (onward_nextSequence s).trans (.of_eq rfl rfl)
      · intro d hd
        rw [albumAt, albumAt]
        dsimp only
        rw [nextSequence_albums]
        exact (hkeyed.lookup_set_free (free_some hfree) (by exact hfresh) d).trans (if_neg hd)
      · intro b hb
        rw [hfresh] at hb
        cases hb
      · exact fun _ => ⟨rfl,
          (drawn_nextSequence s).widen (.refl s) (onward_nextSequence s) (.of_eq rfl rfl)⟩

theorem updateAlbum_eq {s : Store} {i : Fin maxAlbums} {a : Album} (hi : s.albums i = some a)
    (metadata : JbmHeader) (sequence : UInt32) :
    updateAlbum i metadata sequence s = { s with
      albums := SlotTable.set s.albums i
        { a with trackCount := metadata.trackCount, lastSeenSequence := sequence, metadata } } := by
  simp only [updateAlbum, hi]

/-! ## The tracks of a sync -/

/-- What a sync makes of a track's record: the one there was, seen again, or a
new one whose number was drawn after the sync's own. -/
structure TrackSynced (sequence : UInt32) (s t : Store) (before : Option Track) (u : Track) :
    Prop where
  last : u.lastSeenSequence = sequence
  kept : ∀ v, before = some v →
    u.firstSeenSequence = v.firstSeenSequence ∧ u.playCount = v.playCount
  made : before = none → u.playCount = 0 ∧ Drawn s t u.firstSeenSequence

theorem TrackSynced.widen {sequence : UInt32} {s t u v : Store} {before : Option Track}
    {r : Track} (h : TrackSynced sequence t u before r) (hbefore : Onward s t)
    (hmid : Onward t u) (hafter : Onward u v) : TrackSynced sequence s v before r where
  last := h.last
  kept := h.kept
  made hnone := ⟨(h.made hnone).1, (h.made hnone).2.widen hbefore hmid hafter⟩

theorem updateTrack_eq {s : Store} {i : Fin maxTracks} {u : Track} (hi : s.tracks i = some u)
    (metadata : JbmTrack) (sequence : UInt32) :
    updateTrack i metadata sequence s = { s with
      tracks := SlotTable.set s.tracks i
        { u with trackFileNum := metadata.fileNum, lastSeenSequence := sequence, metadata } } := by
  simp only [updateTrack, hi]

theorem openTrack_some {s t : Store} {c index : UInt32} {i : Fin maxTracks}
    (hkeyed : Keyed Track.key s.tracks) (h : openTrack c index s = some (i, t)) :
    ∃ u, t.tracks i = some u ∧ u.key = (c, index) ∧ Keyed Track.key t.tracks ∧
      t.albums = s.albums ∧ Onward s t ∧
      (∀ k, k ≠ (c, index) → trackAt t k = trackAt s k) ∧
      (∀ v, trackAt s (c, index) = some v → u = v) ∧
      (trackAt s (c, index) = none → u.playCount = 0 ∧ Drawn s t u.firstSeenSequence) := by
  unfold openTrack at h
  cases hfind : findTrackSlot s c index with
  | some j =>
    rw [hfind] at h
    cases h
    obtain ⟨u, hi, hu⟩ := findTrackSlot_some hfind
    have hat : trackAt s (c, index) = some u := hkeyed.lookup_eq_some.mpr ⟨⟨i, hi⟩, hu⟩
    refine ⟨u, hi, hu, hkeyed, rfl, .refl s, fun _ _ => rfl, fun v hv => ?_, fun hn => ?_⟩
    · exact Option.some.inj (hat.symm.trans hv)
    · rw [hat] at hn
      cases hn
  | none =>
    have hfresh := findTrackSlot_eq_none.mp hfind
    rw [hfind] at h
    dsimp only at h
    cases hfree : findFreeTrackSlot s with
    | none =>
      rw [hfree] at h
      cases h
    | some j =>
      rw [hfree] at h
      cases h
      refine ⟨_, Function.update_self .., rfl, ?_, nextSequence_albums s, ?_, ?_, ?_, ?_⟩
      · exact (nextSequence_tracks s ▸ hkeyed).set_free (nextSequence_tracks s ▸ hfresh)
      · exact (onward_nextSequence s).trans (.of_eq rfl rfl)
      · intro k hk
        rw [trackAt, trackAt]
        dsimp only
        rw [nextSequence_tracks]
        exact (hkeyed.lookup_set_free (free_some hfree) (by exact hfresh) k).trans (if_neg hk)
      · intro v hv
        rw [hfresh] at hv
        cases hv
      · exact fun _ => ⟨rfl, (drawn_nextSequence s).widen (.refl s) (onward_nextSequence s)
          (.of_eq rfl rfl)⟩

/-- One turn of the loop over the cartridge's tracks. -/
theorem syncTrack_some {s t : Store} {c index sequence : UInt32} {i : Fin maxTracks}
    (hkeyed : Keyed Track.key s.tracks) (h : openTrack c index s = some (i, t))
    (metadata : JbmTrack) :
    let u := updateTrack i metadata sequence t
    Keyed Track.key u.tracks ∧ u.albums = s.albums ∧ Onward s u ∧
      (∀ k, k ≠ (c, index) → trackAt u k = trackAt s k) ∧
      ∃ r, trackAt u (c, index) = some r ∧
        TrackSynced sequence s u (trackAt s (c, index)) r := by
  obtain ⟨u, hi, hu, hkeyed', halbums, honward, hothers, hkept, hmade⟩ := openTrack_some hkeyed h
  have hat : trackAt (updateTrack i metadata sequence t) = fun k =>
      if k = (c, index) then
        some { u with trackFileNum := metadata.fileNum, lastSeenSequence := sequence, metadata }
      else trackAt t k := by
    funext k
    rw [updateTrack_eq hi, ← hu]
    exact Keyed.lookup_set_used (a := { u with
      trackFileNum := metadata.fileNum, lastSeenSequence := sequence, metadata }) hkeyed' hi rfl k
  have hlater : Onward t (updateTrack i metadata sequence t) := by
    rw [updateTrack_eq hi]
    exact .of_eq rfl rfl
  refine ⟨?_, ?_, honward.trans hlater, fun k hk => ?_, _, by rw [hat]; exact if_pos rfl, rfl, ?_, ?_⟩
  · rw [updateTrack_eq hi]
    exact hkeyed'.set_used hi rfl
  · rw [updateTrack_eq hi]
    exact halbums
  · rw [hat]
    exact (if_neg hk).trans (hothers k hk)
  · intro v hv
    rw [← hkept v hv]
    exact ⟨rfl, rfl⟩
  · intro hnone
    obtain ⟨hplays, hdrawn⟩ := hmade hnone
    exact ⟨hplays, hdrawn.widen (.refl s) honward hlater⟩

/-- The keys of a list of a cartridge's tracks. -/
def trackKeysOf (c : UInt32) (indices : List Nat) : List TrackKey :=
  indices.map fun index => (c, UInt32.ofNat index)

/-- **The loop over the tracks** writes the records of the tracks it goes through. -/
theorem syncTracks_ok {cart : Cartridge} {c sequence : UInt32} {indices : List Nat} {s t : Store}
    (hkeyed : Keyed Track.key s.tracks) (hnodup : (trackKeysOf c indices).Nodup)
    (hlt : ∀ i ∈ indices, i < cart.getMetadataTrackCount)
    (h : syncTracks cart c sequence indices s = (t, .ok)) :
    Keyed Track.key t.tracks ∧ t.albums = s.albums ∧ Onward s t ∧
      (∀ k, k ∉ trackKeysOf c indices → trackAt t k = trackAt s k) ∧
      ∀ k ∈ trackKeysOf c indices, ∃ r, trackAt t k = some r ∧
        TrackSynced sequence s t (trackAt s k) r := by
  induction indices generalizing s with
  | nil =>
    cases h
    exact ⟨hkeyed, rfl, .refl _, fun _ _ => rfl, fun k hk => absurd hk List.not_mem_nil⟩
  | cons index rest ih =>
    obtain ⟨track, htrack⟩ := Option.isSome_iff_exists.mp
      (Cartridge.getMetadataTrack_isSome.mpr (hlt index (List.mem_cons_self ..)))
    have hlt' : ∀ j ∈ rest, j < cart.getMetadataTrackCount :=
      fun j hj => hlt j (List.mem_cons_of_mem _ hj)
    obtain ⟨hnot, hnodup'⟩ := List.nodup_cons.mp hnodup
    rw [syncTracks, htrack] at h
    dsimp only at h
    cases hopen : openTrack c (UInt32.ofNat index) s with
    | none =>
      rw [hopen] at h
      cases h
    | some opened =>
      obtain ⟨i, mid⟩ := opened
      rw [hopen] at h
      obtain ⟨hkeyed', halbums, honward, hothers, r, hr, hsynced⟩ :=
        @syncTrack_some _ _ _ _ sequence _ hkeyed hopen track
      obtain ⟨hkeyedT, halbumsT, honwardT, hothersT, hrest⟩ := ih hkeyed' hnodup' hlt' h
      refine ⟨hkeyedT, halbumsT.trans halbums, honward.trans honwardT, ?_, ?_⟩
      · intro k hk
        have hne : k ≠ (c, UInt32.ofNat index) := fun heq => hk (heq ▸ List.mem_cons_self ..)
        exact (hothersT k fun hmem => hk (List.mem_cons_of_mem _ hmem)).trans (hothers k hne)
      · intro k hk
        rcases List.mem_cons.mp hk with rfl | hk
        · exact ⟨r, (hothersT _ hnot).trans hr, hsynced.widen (.refl s) honward honwardT⟩
        · obtain ⟨r', hr', hsynced'⟩ := hrest k hk
          have hne : k ≠ (c, UInt32.ofNat index) := by
            rintro rfl
            exact hnot hk
          rw [hothers k hne] at hsynced'
          exact ⟨r', hr', hsynced'.widen honward honwardT (.refl t)⟩

@[simp] theorem updateAlbum_nextSequence (i : Fin maxAlbums) (metadata : JbmHeader)
    (sequence : UInt32) (s : Store) :
    (updateAlbum i metadata sequence s).nextSequence = s.nextSequence := by
  unfold updateAlbum
  split <;> rfl

@[simp] theorem updateTrack_nextSequence (i : Fin maxTracks) (metadata : JbmTrack)
    (sequence : UInt32) (s : Store) :
    (updateTrack i metadata sequence s).nextSequence = s.nextSequence := by
  unfold updateTrack
  split <;> rfl

/-- The loop draws no number when every track is in use. -/
theorem syncTracks_present {cart : Cartridge} {c sequence : UInt32} {indices : List Nat}
    {s : Store} (hkeyed : Keyed Track.key s.tracks)
    (hpresent : ∀ i ∈ indices, trackAt s (c, UInt32.ofNat i) ≠ none) :
    ∃ t, syncTracks cart c sequence indices s = (t, .ok) ∧ t.nextSequence = s.nextSequence := by
  induction indices generalizing s with
  | nil => exact ⟨s, rfl, rfl⟩
  | cons index rest ih =>
    rw [syncTracks]
    cases htrack : cart.getMetadataTrack index with
    | none => exact ih hkeyed fun i hi => hpresent i (List.mem_cons_of_mem _ hi)
    | some track =>
      cases hfind : findTrackSlot s c (UInt32.ofNat index) with
      | none =>
        exact absurd (findTrackSlot_eq_none.mp hfind) (hpresent index (List.mem_cons_self ..))
      | some i =>
        have hopen : openTrack c (UInt32.ofNat index) s = some (i, s) := by rw [openTrack, hfind]
        obtain ⟨hkeyed', -, -, hothers, r, hr, -⟩ :=
          @syncTrack_some _ _ _ _ sequence _ hkeyed hopen track
        obtain ⟨t, hloop, hnext⟩ := ih hkeyed' fun j hj => by
          by_cases hj' : (c, UInt32.ofNat j) = (c, UInt32.ofNat index)
          · rw [hj', hr]
            exact Option.some_ne_none r
          · rw [hothers _ hj']
            exact hpresent j (List.mem_cons_of_mem _ hj)
        refine ⟨t, ?_, hnext.trans (updateTrack_nextSequence ..)⟩
        simp only [hopen]
        exact hloop

/-! ## A whole sync -/

/-- The keys of the inserted cartridge's tracks. -/
def cartridgeKeys (cart : Cartridge) (c : UInt32) : List TrackKey :=
  trackKeysOf c (List.range cart.getMetadataTrackCount)

theorem mem_cartridgeKeys {cart : Cartridge} {c : UInt32} {k : TrackKey} :
    k ∈ cartridgeKeys cart c ↔ ∃ i < cart.getMetadataTrackCount, k = (c, UInt32.ofNat i) := by
  simp only [cartridgeKeys, trackKeysOf, List.mem_map, List.mem_range, eq_comm]

theorem nodup_cartridgeKeys (cart : Cartridge) (c : UInt32) : (cartridgeKeys cart c).Nodup := by
  refine List.Nodup.map_on ?_ List.nodup_range
  intro i hi j hj heq
  have hnat := congrArg UInt32.toNat (Prod.mk.inj heq).2
  rwa [toNat_ofNat_index (List.mem_range.mp hi), toNat_ofNat_index (List.mem_range.mp hj)] at hnat

/-- What a sync that has made room leaves in the records: `s` is the store with
room, `opened` the one with the album, and `sequence` the number drawn next. -/
structure Synced (cart : Cartridge) (c sequence : UInt32) (s opened drawn t : Store) : Prop where
  opening : Onward s opened
  drawing : Onward opened drawn
  syncing : Onward drawn t
  number : Drawn opened drawn sequence
  album : ∃ a, albumAt t c = some a ∧ a.lastSeenSequence = sequence ∧
    (∀ b, albumAt s c = some b → a.firstSeenSequence = b.firstSeenSequence) ∧
    (albumAt s c = none → a.firstSeenSequence = (nextSequence s).1 ∧
      Drawn s opened a.firstSeenSequence)
  otherAlbums : ∀ d, d ≠ c → albumAt t d = albumAt s d
  tracks : ∀ k ∈ cartridgeKeys cart c, ∃ r, trackAt t k = some r ∧
    TrackSynced sequence drawn t (trackAt s k) r
  otherTracks : ∀ k, k ∉ cartridgeKeys cart c → trackAt t k = trackAt s k

theorem Synced.onward {cart : Cartridge} {c sequence : UInt32} {s opened drawn t : Store}
    (h : Synced cart c sequence s opened drawn t) : Onward s t :=
  (h.opening.trans h.drawing).trans h.syncing

/-- The records after a sync that succeeds, when making room kept the album. -/
theorem syncCurrentCartridge_synced {cart : Cartridge} {s made t : Store} {metadata : JbmHeader}
    (hmount : cart.isMounted = true) (hmeta : cart.getMetadataHeader = some metadata)
    (hroom : ensureCapacityLoop metadata.checksum true
        (if albumAt s metadata.checksum = none then 1 else 0)
        (missingTracks cart metadata.checksum s).length (maxAlbums + 1) s = (made, .ok))
    (hmade : Shape made)
    (hkept : ∀ i a, s.albums i = some a → a.checksum = metadata.checksum → made.albums i = some a)
    (hfresh : albumAt s metadata.checksum = none → albumAt made metadata.checksum = none)
    (h : syncCurrentCartridge cart s = (t, .ok)) :
    ∃ sequence opened drawn, Synced cart metadata.checksum sequence made opened drawn t := by
  have hdelta : (if (findAlbumSlot s metadata.checksum).isNone then 1 else 0) =
      if albumAt s metadata.checksum = none then 1 else 0 := by
    simp only [Option.isNone_iff_eq_none, findAlbumSlot_eq_none]
  simp only [syncCurrentCartridge, hmount, hmeta, hdelta, countMissing_eq, ensureCapacity, hroom,
    Bool.true_eq_false, if_false] at h
  cases hopen : openAlbum metadata.checksum (findAlbumSlot s metadata.checksum) made with
  | none =>
    rw [hopen] at h
    cases h
  | some found =>
    obtain ⟨i, opened⟩ := found
    rw [hopen] at h
    obtain ⟨a, hi, ha, hkeyed, htracks, hopening, hothers, hsame, hdrawn⟩ :=
      openAlbum_some hmade.albums
        (fun j hj => by
          obtain ⟨b, hj, hb⟩ := findAlbumSlot_some hj
          exact ⟨b, hkept j b hj hb, hb⟩)
        (fun hnone => hfresh (findAlbumSlot_eq_none.mp hnone)) hopen
    have hi' : (nextSequence opened).2.albums i = some a := by rw [nextSequence_albums, hi]
    cases hloop : syncTracks cart metadata.checksum (nextSequence opened).1
        (List.range cart.getMetadataTrackCount)
        (updateAlbum i metadata (nextSequence opened).1 (nextSequence opened).2) with
    | mk u err =>
      simp only [hloop] at h
      cases err with
      | ok =>
        cases h
        rw [updateAlbum_eq hi'] at hloop
        have hkeyedT : Keyed Track.key (nextSequence opened).2.tracks := by
          rw [nextSequence_tracks, htracks]
          exact hmade.tracks
        obtain ⟨-, halbums, hsyncing, hothersT, htracksT⟩ :=
          syncTracks_ok (by exact hkeyedT) (nodup_cartridgeKeys cart metadata.checksum)
            (fun j hj => List.mem_range.mp hj) hloop
        have hentering : Onward (nextSequence opened).2 { (nextSequence opened).2 with
            albums := SlotTable.set (nextSequence opened).2.albums i { a with
              trackCount := metadata.trackCount, lastSeenSequence := (nextSequence opened).1,
              metadata } } := .of_eq rfl rfl
        have hkeyedA : Keyed Album.checksum (nextSequence opened).2.albums := by
          rw [nextSequence_albums]
          exact hkeyed
        have hat : ∀ d, albumAt u d = if d = metadata.checksum then
            some { a with
              trackCount := metadata.trackCount, lastSeenSequence := (nextSequence opened).1,
              metadata } else albumAt opened d := by
          intro d
          rw [albumAt, halbums, ← ha]
          refine (Keyed.lookup_set_used (a := { a with
            trackCount := metadata.trackCount, lastSeenSequence := (nextSequence opened).1,
            metadata }) hkeyedA hi' rfl d).trans ?_
          rw [nextSequence_albums]
          rfl
        have htrackAt : ∀ k, trackAt (nextSequence opened).2 k = trackAt made k := by
          intro k
          rw [trackAt, nextSequence_tracks, htracks]
          rfl
        refine ⟨(nextSequence opened).1, opened, (nextSequence opened).2, hopening,
          onward_nextSequence opened, hentering.trans (hsyncing.trans (.of_eq rfl rfl)),
          drawn_nextSequence opened,
          ⟨_, (hat _).trans (if_pos rfl), rfl, ?_, hdrawn⟩, ?_, ?_, ?_⟩
        · intro b hb
          rw [← hsame b hb]
        · exact fun d hd => ((hat d).trans (if_neg hd)).trans (hothers d hd)
        · intro k hk
          obtain ⟨r, hr, hsynced⟩ := htracksT k hk
          rw [← htrackAt k]
          exact ⟨r, hr, hsynced.widen hentering hsyncing (.of_eq rfl rfl)⟩
        · exact fun k hk => (hothersT k hk).trans (htrackAt k)
      | _ => cases h

/-- Pruning keeps the album of the sync. -/
theorem Pruned.synced {cart : Cartridge} {s made t : Store} {metadata : JbmHeader}
    {pruned : List UInt32} (hmount : cart.isMounted = true)
    (hmeta : cart.getMetadataHeader = some metadata) (hs : Shape s)
    (hroom : ensureCapacityLoop metadata.checksum true
        (if albumAt s metadata.checksum = none then 1 else 0)
        (missingTracks cart metadata.checksum s).length (maxAlbums + 1) s = (made, .ok))
    (hpruned : Pruned metadata.checksum (if albumAt s metadata.checksum = none then 1 else 0)
        (missingTracks cart metadata.checksum s).length s pruned made)
    (h : syncCurrentCartridge cart s = (t, .ok)) :
    ∃ sequence opened drawn, Synced cart metadata.checksum sequence made opened drawn t :=
  syncCurrentCartridge_synced hmount hmeta hroom (hpruned.path.shape hs)
    (fun _ _ hi ha => hpruned.album_kept hi ha) hpruned.albumAt_none h

/-! ## A counted play -/

/-- What a counted play leaves in the records: the track's and its album's are
rewritten with a new number. -/
structure PlayCounted (key : TrackKey) (sequence : UInt32) (s t : Store) : Prop where
  onward : Onward s t
  number : Drawn s t sequence
  track : ∃ u r, trackAt s key = some u ∧ trackAt t key = some r ∧
    r.firstSeenSequence = u.firstSeenSequence ∧ r.lastSeenSequence = sequence ∧
    r.playCount = u.playCount + 1
  otherTracks : ∀ k, k ≠ key → trackAt t k = trackAt s k
  album : ∀ a, albumAt s key.1 = some a →
    albumAt t key.1 = some { a with lastSeenSequence := sequence }
  otherAlbums : ∀ c, c ≠ key.1 ∨ albumAt s c = none → albumAt t c = albumAt s c

theorem countPlay_albumAt {s : Store} (hs : Shape s) {i : Fin maxTracks} {u : Track}
    (hi : s.tracks i = some u) (event : TrackEvent) (c : UInt32) :
    albumAt (countPlay i event s).1 c = if c = event.cartridgeChecksum then
      (albumAt s c).map fun a => { a with lastSeenSequence := (nextSequence s).1 }
      else albumAt s c := by
  have hi' : (nextSequence s).2.tracks i = some u := by rw [nextSequence_tracks, hi]
  have hfound : findAlbumSlot (nextSequence s).2 event.cartridgeChecksum =
      findAlbumSlot s event.cartridgeChecksum := by
    rw [findAlbumSlot, nextSequence_albums, findAlbumSlot]
  simp only [countPlay, hi', hfound, nextSequence_albums]
  cases hfind : findAlbumSlot s event.cartridgeChecksum with
  | none =>
    have hnone := findAlbumSlot_eq_none.mp hfind
    refine Eq.trans (b := albumAt s c) rfl ?_
    split
    · next hc =>
      rw [hc, hnone]
      rfl
    · rfl
  | some j =>
    obtain ⟨a, hj, ha⟩ := findAlbumSlot_some hfind
    have hat : albumAt s event.cartridgeChecksum = some a :=
      hs.albums.lookup_eq_some.mpr ⟨⟨j, hj⟩, ha⟩
    simp only [hj]
    refine (Keyed.lookup_set_used (a := { a with lastSeenSequence := (nextSequence s).1 })
      hs.albums hj rfl c).trans ?_
    by_cases hc : c = event.cartridgeChecksum
    · rw [if_pos (hc.trans ha.symm), if_pos hc, hc, hat]
      rfl
    · exact (if_neg fun heq => hc (heq.trans ha)).trans (if_neg hc).symm

theorem countPlay_counted {s : Store} (hs : Shape s) {i : Fin maxTracks} {u : Track}
    (hi : s.tracks i = some u) {event : TrackEvent}
    (hkey : u.key = (event.cartridgeChecksum, event.trackIndex)) :
    PlayCounted (event.cartridgeChecksum, event.trackIndex) (nextSequence s).1 s
      (countPlay i event s).1 := by
  have hi' : (nextSequence s).2.tracks i = some u := by rw [nextSequence_tracks, hi]
  have hat : trackAt s u.key = some u := hs.tracks.lookup_eq_some.mpr ⟨⟨i, hi⟩, rfl⟩
  have hs' : Shape (nextSequence s).2 := (Change.draw s).shape hs
  have htracks : ∀ k, trackAt (countPlay i event s).1 k = if k = u.key then
      some { u with
        playCount := u.playCount + 1, trackFileNum := event.trackFileNum,
        lastSeenSequence := (nextSequence s).1 } else trackAt s k := by
    intro k
    simp only [countPlay, hi']
    refine (Keyed.lookup_set_used (a := { u with
      playCount := u.playCount + 1, trackFileNum := event.trackFileNum,
      lastSeenSequence := (nextSequence s).1 }) hs'.tracks hi' rfl k).trans ?_
    rw [nextSequence_tracks]
    rfl
  have halbums := countPlay_albumAt hs hi event
  have honward : Onward (nextSequence s).2 (countPlay i event s).1 := by
    simp only [countPlay, hi']
    exact .of_eq rfl rfl
  rw [hkey] at hat htracks
  refine ⟨(onward_nextSequence s).trans honward,
    (drawn_nextSequence s).widen (.refl s) (onward_nextSequence s) honward,
    ⟨u, _, hat, (htracks _).trans (if_pos rfl), rfl, rfl, rfl⟩,
    fun k hk => (htracks k).trans (if_neg hk), ?_, ?_⟩
  · intro a ha
    rw [halbums, if_pos rfl, ha]
    rfl
  · rintro c (hc | hc)
    · rw [halbums, if_neg hc]
    · rw [halbums, hc]
      exact ite_self _

end Jukeboy.PlayHistory.SyncRecords
