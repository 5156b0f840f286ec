import Jukeboy.Cartridge.Service

/-! # Mounts, unmounts and the metadata

Whatever cards come and go, and whatever their files hold, a field that is served lies in the
metadata of the card that is mounted. -/
namespace Jukeboy.Cartridge.Service

open Jukeboy.Base Jukeboy.Base.Runs Jukeboy.Base.ByteFile Jukeboy.Base.ByteLayout
open Jukeboy.Formats.Jbm Jukeboy.Formats.JbmFile

variable {espRomCrc32Le : UInt32 → List UInt8 → UInt32} {s : State}

/-! ## A blob that has passed validation -/

/-- Every text field of the blob ends with a NUL, and there are as many track entries as its
header says. -/
structure Sound (blob : List UInt8) : Prop where
  count : (u32At blob trackCountAt).toNat ≤ maxTrackFiles
  length : blob.length = headerBytes + (u32At blob trackCountAt).toNat * trackEntryBytes
  last : ∀ k ∈ lastBytes (u32At blob trackCountAt).toNat, blob[k]? = some 0

theorem lastBytes_cases {trackCount k : Nat} (h : k ∈ lastBytes trackCount) :
    k < trackCountAt ∨
      headerBytes ≤ k ∧ k < headerBytes + trackCount * trackEntryBytes := by
  rcases List.mem_append.mp h with h | h
  · refine .inl ?_
    rcases List.mem_append.mp h with h | h
    · have hall : ∀ k ∈ [albumNameAt + albumNameBytes - 1,
          albumDescriptionAt + albumDescriptionBytes - 1, artistAt + artistBytes - 1,
          genreAt + genreBytes - 1], k < trackCountAt := by decide
      exact hall k h
    · obtain ⟨index, hindex, rfl⟩ := List.mem_map.mp h
      have hall : ∀ index ∈ List.range tagCount, tagAt index + tagBytes - 1 < trackCountAt := by
        decide
      exact hall index hindex
  · refine .inr ?_
    obtain ⟨index, hindex, h⟩ := List.mem_flatMap.mp h
    have hlt := List.mem_range.mp hindex
    have hname : trackNameAt index + trackNameBytes - 1 = headerBytes + 392 * index + 127 := rfl
    have hartists : trackArtistsAt index + trackArtistsBytes - 1 = headerBytes + 392 * index + 383 :=
      rfl
    rw [show trackEntryBytes = 392 from rfl]
    simp only [List.mem_cons, List.not_mem_nil, or_false] at h
    rcases h with rfl | rfl
    · omega
    · omega

/-- The count itself is not touched. -/
theorem trackCount_sanitize (blob : List UInt8) :
    u32At (sanitizeMetadataStrings blob) trackCountAt = u32At blob trackCountAt := by
  have hslice : slice (sanitizeMetadataStrings blob) trackCountAt 4 = slice blob trackCountAt 4 := by
    refine slice_zeroAt blob fun k hk => ?_
    have hend : trackCountAt + 4 = headerBytes := by decide
    rcases lastBytes_cases hk with hlt | hle
    · exact .inl hlt
    · exact .inr (hend ▸ hle.1)
  unfold u32At
  unfold slice at hslice
  rw [hslice]

theorem sound_sanitize {blob : List UInt8} (h : Valid espRomCrc32Le blob) :
    Sound (sanitizeMetadataStrings blob) where
  count := by
    rw [trackCount_sanitize]
    exact h.trackCount
  length := by
    rw [trackCount_sanitize, sanitizeMetadataStrings, length_zeroAt]
    exact h.length
  last := by
    intro k hk
    rw [trackCount_sanitize] at hk
    refine getElem?_zeroAt_of_mem hk ?_
    have hend : trackCountAt < headerBytes := by decide
    have hlen := h.length
    rcases lastBytes_cases hk with hlt | ⟨-, hlt⟩
    · omega
    · omega

theorem sound_of_validate {blob out : List UInt8}
    (h : validateMetadata espRomCrc32Le blob = (.ok, out)) : Sound out := by
  by_cases hvalid : Valid espRomCrc32Le blob
  · rw [validateMetadata_of_valid hvalid] at h
    cases h
    exact sound_sanitize hvalid
  · obtain ⟨err, herr, heq⟩ := validateMetadata_of_not_valid hvalid
    rw [heq] at h
    cases h
    exact absurd rfl herr

/-! ## Reading a field -/

theorem length_takeWhile_le {bytes : List UInt8} {k : Nat} (h : bytes[k]? = some 0) :
    (bytes.takeWhile (· != 0)).length ≤ k := by
  induction bytes generalizing k with
  | nil => cases h
  | cons b bytes ih =>
    rw [List.takeWhile_cons]
    cases k with
    | zero =>
      have hb : b = 0 := Option.some.inj h
      simp [hb]
    | succ k =>
      split
      · exact Nat.succ_le_succ (ih h)
      · exact Nat.zero_le _

/-- A field whose last byte is a NUL holds a string. -/
theorem readString_of_last {blob : List UInt8} {start size : Nat} (hsize : 0 < size)
    (h : blob[start + size - 1]? = some 0) :
    ∃ text, readString blob start = some text ∧ text.length < size := by
  have hget : (blob.drop start)[size - 1]? = some 0 := by
    rwa [List.getElem?_drop, ← Nat.add_sub_assoc hsize]
  have hmem : (blob.drop start).contains 0 = true :=
    List.contains_iff_mem.mpr (List.mem_of_getElem? hget)
  refine ⟨_, if_pos hmem, ?_⟩
  have hle := length_takeWhile_le hget
  omega

theorem Sound.reads {blob : List UInt8} (h : Sound blob) (hblob : s.blob = some blob)
    {start size : Nat} (hsize : 0 < size)
    (hmem : start + size - 1 ∈ lastBytes (u32At blob trackCountAt).toNat) : s.Reads size start := by
  obtain ⟨text, htext, hlt⟩ := readString_of_last hsize (h.last _ hmem)
  exact ⟨blob, text, hblob, htext, hlt⟩

/-! ## The invariant -/

structure Inv (s : State) : Prop where
  ready : s.status = .ready ↔ s.blob.isSome = true
  mounted : s.blob.isSome = true → s.mounted = true
  empty : s.mounted = true → s.status ≠ .empty
  sound : ∀ blob, s.blob = some blob → Sound blob

theorem inv_off : Inv off where
  ready := iff_of_false (by decide) (by decide)
  mounted h := by cases h
  empty h := by cases h
  sound _ h := by cases h

/-- The service as it is without metadata. -/
theorem inv_unloaded {status : Status} (hready : status ≠ .ready)
    (hempty : s.mounted = true → status ≠ .empty) : Inv { s with blob := none, status } where
  ready := iff_of_false hready Bool.false_ne_true
  mounted := fun hblob => absurd hblob Bool.false_ne_true
  empty := hempty
  sound := fun _ hblob => by cases hblob

/-- Without a card there is no metadata, whatever the status is set to. -/
theorem Inv.unmounted (h : Inv s) (hnot : s.mounted = false) {status : Status}
    (hready : status ≠ .ready) : Inv { s with status } := by
  have hnone : s.blob.isSome = false := Bool.eq_false_iff.mpr fun hblob => by
    rw [h.mounted hblob] at hnot
    cases hnot
  refine ⟨iff_of_false hready (by rw [hnone]; decide), h.mounted, fun hmounted => ?_, h.sound⟩
  rw [hnot] at hmounted
  cases hmounted

/-- The card changes; its metadata is not loaded. -/
theorem inv_change {mounted : Bool} {status : Status} (hready : status ≠ .ready)
    (hempty : mounted = true → status ≠ .empty) :
    Inv { s.change mounted with blob := none, status } where
  ready := iff_of_false hready Bool.false_ne_true
  mounted := fun hblob => absurd hblob Bool.false_ne_true
  empty := hempty
  sound := fun _ hblob => by cases hblob

theorem Inv.events (h : Inv s) (events : List Event) : Inv { s with events } :=
  ⟨h.ready, h.mounted, h.empty, h.sound⟩

/-! ## Every call keeps it -/

theorem inv_loadMetadata (io : LoadIo) (hempty : Inv { s with blob := none, status := .invalid })
    (hmounted : s.mounted = true) : Inv (loadMetadata espRomCrc32Le io s).1 := by
  unfold loadMetadata
  dsimp only
  rw [if_neg (by rw [hmounted]; decide)]
  split
  · exact hempty
  · next file _ =>
    split
    · exact hempty
    · generalize (if io.tells = true then Player.Track.statSize file.length else -1) = fileSize
      split
      · exact hempty
      · split
        · exact hempty
        · split
          · exact hempty
          · split
            · exact hempty
            · next hok =>
              have hvalid := not_not.mp hok
              exact {
                ready := iff_of_true rfl rfl
                mounted := fun _ => hmounted
                empty := fun _ h => by cases h
                sound := fun blob hblob => by
                  cases hblob
                  exact sound_of_validate (Prod.ext hvalid rfl) }

section Mount

variable (mounts : EspErr) (io : LoadIo)

theorem mount_off (h : s.initialised = false) :
    mount espRomCrc32Le mounts io s = (s, .invalidState) := by
  rw [mount, if_pos (by rw [h]; rfl)]

theorem mount_mounted (hinit : s.initialised = true) (h : s.mounted = true) :
    mount espRomCrc32Le mounts io s = ((loadMetadata espRomCrc32Le io s).1, .ok) := by
  rw [mount, if_neg (by rw [hinit]; decide), if_pos h]

theorem mount_fails (hinit : s.initialised = true) (h : s.mounted = false) (hmounts : mounts ≠ .ok) :
    mount espRomCrc32Le mounts io s = (s, mounts) := by
  rw [mount, if_neg (by rw [hinit]; decide), if_neg (by rw [h]; decide), if_pos hmounts]

theorem mount_works (hinit : s.initialised = true) (h : s.mounted = false) :
    mount espRomCrc32Le .ok io s =
      ({ (loadMetadata espRomCrc32Le io (s.change true)).1 with
        events := (loadMetadata espRomCrc32Le io (s.change true)).1.events ++ [.mounted] }, .ok) := by
  rw [mount, if_neg (by rw [hinit]; decide), if_neg (by rw [h]; decide), if_neg (by decide)]

end Mount

theorem inv_mount (h : Inv s) (mounts : EspErr) (io : LoadIo) :
    Inv (mount espRomCrc32Le mounts io s).1 := by
  cases hinit : s.initialised with
  | false =>
    rw [mount_off mounts io hinit]
    exact h
  | true =>
    cases hmounted : s.mounted with
    | true =>
      rw [mount_mounted mounts io hinit hmounted]
      exact inv_loadMetadata io (inv_unloaded (by decide) fun _ => by decide) hmounted
    | false =>
      by_cases hmounts : mounts = .ok
      · subst hmounts
        rw [mount_works io hinit hmounted]
        exact (inv_loadMetadata io (inv_change (by decide) fun _ => by decide) rfl).events _
      · rw [mount_fails mounts io hinit hmounted hmounts]
        exact h

theorem inv_unmount (h : Inv s) : Inv (unmount s) := by
  unfold unmount
  split
  · exact h
  · exact (inv_change (by decide) fun hfalse => by cases hfalse).events _

/-- Starting the service again loads the metadata of a card that is mounted again. -/
theorem inv_init (h : Inv s) (io : InitIo) : Inv (init espRomCrc32Le io s).1 := by
  unfold init
  dsimp only
  have hinit : Inv { s with initialised := true } :=
    ⟨h.ready, h.mounted, h.empty, h.sound⟩
  split
  · exact hinit
  · have hstarted : Inv { s with initialised := true, events := s.events ++ [.started] } :=
      hinit.events _
    refine Inv.events ?_ _
    cases hmounted : s.mounted with
    | true =>
      rw [mount_mounted io.mounts io.load rfl rfl, if_neg (not_not.mpr rfl)]
      rw [hmounted] at hstarted
      exact inv_loadMetadata io.load (inv_unloaded (by decide) fun _ => by decide) rfl
    | false =>
      rw [hmounted] at hstarted
      by_cases hmounts : io.mounts = .ok
      · rw [hmounts, mount_works io.load rfl rfl, if_neg (not_not.mpr rfl)]
        exact (inv_loadMetadata io.load (inv_change (by decide) fun _ => by decide) rfl).events _
      · rw [mount_fails io.mounts io.load rfl rfl hmounts, if_pos hmounts]
        exact hstarted.unmounted rfl (by decide)

theorem inv_step {a : Action} {t : State} (h : Inv s) (hstep : step espRomCrc32Le s a = some t) :
    Inv t := by
  cases a with
  | init io =>
    cases hstep
    exact inv_init h io
  | mount mounts io =>
    cases hstep
    exact inv_mount h mounts io
  | unmount =>
    cases hstep
    exact inv_unmount h

/-! ## The number of the mount -/

/-- The card that is there is the one that was posted last, and the mounts and unmounts that
were posted are counted. -/
structure Numbered (s : State) : Prop where
  posted : s.mounted = true ↔ (s.events.filter Event.isChange).getLast? = some .mounted
  generation : s.mountGeneration.toNat = s.events.countP Event.isChange % (2 ^ 32 - 1) + 1

theorem numbered_off : Numbered off where
  posted := iff_of_false (by decide) (by decide)
  generation := rfl

theorem nextGeneration_eq {generation : UInt32} {changes : Nat}
    (h : generation.toNat = changes % (2 ^ 32 - 1) + 1) :
    (nextGeneration generation).toNat = (changes + 1) % (2 ^ 32 - 1) + 1 := by
  have hadd : (generation + 1).toNat = (generation.toNat + 1) % 2 ^ 32 := UInt32.toNat_add _ _
  unfold nextGeneration
  split
  · next hwrap =>
    rw [hwrap] at hadd
    have hzero : (generation.toNat + 1) % 2 ^ 32 = 0 := hadd.symm
    have hone : (1 : UInt32).toNat = 1 := rfl
    omega
  · next hwrap =>
    have hne : (generation + 1).toNat ≠ 0 := fun hzero => hwrap (UInt32.toNat_inj.mp hzero)
    omega

/-- Loading the metadata changes neither. -/
theorem loadMetadata_keeps (espRomCrc32Le : UInt32 → List UInt8 → UInt32) (io : LoadIo)
    (s : State) :
    let t := (loadMetadata espRomCrc32Le io s).1
    t.mounted = s.mounted ∧ t.mountGeneration = s.mountGeneration ∧ t.events = s.events := by
  unfold loadMetadata
  dsimp only
  split
  · exact ⟨rfl, rfl, rfl⟩
  · split
    · exact ⟨rfl, rfl, rfl⟩
    · next file _ =>
      generalize (if io.tells = true then Player.Track.statSize file.length else -1) = fileSize
      split
      · exact ⟨rfl, rfl, rfl⟩
      · split
        · exact ⟨rfl, rfl, rfl⟩
        · split
          · exact ⟨rfl, rfl, rfl⟩
          · split
            · exact ⟨rfl, rfl, rfl⟩
            · split
              · exact ⟨rfl, rfl, rfl⟩
              · exact ⟨rfl, rfl, rfl⟩

theorem Numbered.congr {t : State} (h : Numbered s) (hmounted : t.mounted = s.mounted)
    (hgeneration : t.mountGeneration = s.mountGeneration)
    (hevents : t.events.filter Event.isChange = s.events.filter Event.isChange) : Numbered t where
  posted := by
    rw [hmounted, hevents]
    exact h.posted
  generation := by
    rw [hgeneration, List.countP_eq_length_filter, hevents, ← List.countP_eq_length_filter]
    exact h.generation

theorem numbered_loadMetadata (h : Numbered s) (io : LoadIo) :
    Numbered (loadMetadata espRomCrc32Le io s).1 := by
  obtain ⟨hmounted, hgeneration, hevents⟩ := loadMetadata_keeps espRomCrc32Le io s
  exact h.congr hmounted hgeneration (by rw [hevents])

/-- Another event is none of them. -/
theorem Numbered.post (h : Numbered s) (event : Event) (hevent : event.isChange = false) :
    Numbered { s with events := s.events ++ [event] } := by
  refine h.congr rfl rfl ?_
  rw [List.filter_append, List.filter_cons_of_neg (by rw [hevent]; decide), List.filter_nil,
    List.append_nil]

/-- A card comes or goes, and that is posted. -/
theorem Numbered.change (h : Numbered s) {t : State} (event : Event)
    (hevent : event.isChange = true) (hmounted : t.mounted = true ↔ event = .mounted)
    (hgeneration : t.mountGeneration = nextGeneration s.mountGeneration)
    (hevents : t.events = s.events ++ [event]) : Numbered t where
  posted := by
    rw [hevents, List.filter_append, List.filter_cons_of_pos hevent, List.filter_nil,
      List.getLast?_concat, Option.some.injEq]
    exact hmounted
  generation := by
    rw [hgeneration, hevents, List.countP_append, List.countP_cons_of_pos hevent, List.countP_nil]
    exact nextGeneration_eq h.generation

theorem numbered_mount (h : Numbered s) (mounts : EspErr) (io : LoadIo) :
    Numbered (mount espRomCrc32Le mounts io s).1 := by
  cases hinit : s.initialised with
  | false =>
    rw [mount_off mounts io hinit]
    exact h
  | true =>
    cases hmounted : s.mounted with
    | true =>
      rw [mount_mounted mounts io hinit hmounted]
      exact numbered_loadMetadata h io
    | false =>
      by_cases hmounts : mounts = .ok
      · subst hmounts
        rw [mount_works io hinit hmounted]
        obtain ⟨hcard, hgeneration, hevents⟩ :=
          loadMetadata_keeps espRomCrc32Le io (s.change true)
        refine h.change .mounted rfl (iff_of_true hcard rfl) hgeneration ?_
        exact congrArg (· ++ [Event.mounted]) hevents
      · rw [mount_fails mounts io hinit hmounted hmounts]
        exact h

theorem numbered_unmount (h : Numbered s) : Numbered (unmount s) := by
  unfold unmount
  split
  · exact h
  · exact h.change .unmounted rfl (iff_of_false Bool.false_ne_true (by decide)) rfl rfl

theorem numbered_init (h : Numbered s) (io : InitIo) :
    Numbered (init espRomCrc32Le io s).1 := by
  unfold init
  dsimp only
  split
  · exact h.congr rfl rfl rfl
  · refine Numbered.post ?_ .inserted rfl
    have hstarted : Numbered { s with
        initialised := true, status := .empty, events := s.events ++ [.started] } :=
      (h.post .started rfl).congr rfl rfl rfl
    have hmount : Numbered (mount espRomCrc32Le io.mounts io.load _).1 :=
      numbered_mount hstarted io.mounts io.load
    split
    · exact hmount.congr rfl rfl rfl
    · exact hmount

theorem numbered_step {a : Action} {t : State} (h : Numbered s)
    (hstep : step espRomCrc32Le s a = some t) : Numbered t := by
  cases a with
  | init io =>
    cases hstep
    exact numbered_init h io
  | mount mounts io =>
    cases hstep
    exact numbered_mount h mounts io
  | unmount =>
    cases hstep
    exact numbered_unmount h

/-! ## What the fields give -/

theorem headerField_eq {start at_ : Nat} (h : s.headerField at_ = some start) :
    ∃ blob, s.blob = some blob ∧ start = at_ := by
  obtain ⟨blob, hblob, rfl⟩ := Option.map_eq_some_iff.mp h
  exact ⟨blob, hblob, rfl⟩

theorem getMetadataTrack_eq {index start : Nat} (h : s.getMetadataTrack index = some start) :
    ∃ blob, s.blob = some blob ∧ index < (u32At blob trackCountAt).toNat ∧ start = trackAt index := by
  unfold State.getMetadataTrack at h
  split at h
  · cases h
  · next hthere =>
    rw [not_or] at hthere
    cases h
    cases hblob : s.blob with
    | none => exact absurd (by rw [hblob]; rfl) hthere.1
    | some blob =>
      have hlt := Nat.not_le.mp hthere.2
      rw [State.trackCount, hblob] at hlt
      exact ⟨blob, rfl, hlt, rfl⟩

/-- A text field of the header. -/
theorem Inv.header (h : Inv s) {at_ size start : Nat} (hsize : 0 < size)
    (hmem : ∀ trackCount, at_ + size - 1 ∈ lastBytes trackCount)
    (hget : s.headerField at_ = some start) : s.Reads size start := by
  obtain ⟨blob, hblob, rfl⟩ := headerField_eq hget
  exact (h.sound blob hblob).reads hblob hsize (hmem _)

/-- A text field of a track. -/
theorem Inv.track (h : Inv s) {index at_ size start : Nat} (hsize : 0 < size)
    (hmem : ∀ trackCount, index < trackCount → at_ + size - 1 ∈ lastBytes trackCount)
    (hget : ((s.getMetadataTrack index).map fun _ => at_) = some start) : s.Reads size start := by
  obtain ⟨entry, hentry, rfl⟩ := Option.map_eq_some_iff.mp hget
  obtain ⟨blob, hblob, hlt, -⟩ := getMetadataTrack_eq hentry
  exact (h.sound blob hblob).reads hblob hsize (hmem _ hlt)

theorem mem_lastBytes_header {trackCount k : Nat}
    (h : k ∈ [albumNameAt + albumNameBytes - 1, albumDescriptionAt + albumDescriptionBytes - 1,
      artistAt + artistBytes - 1, genreAt + genreBytes - 1]) : k ∈ lastBytes trackCount :=
  List.mem_append_left _ (List.mem_append_left _ h)

theorem mem_lastBytes_track {trackCount index k : Nat} (hindex : index < trackCount)
    (h : k ∈ [trackNameAt index + trackNameBytes - 1, trackArtistsAt index + trackArtistsBytes - 1]) :
    k ∈ lastBytes trackCount :=
  List.mem_append_right _ (List.mem_flatMap.mpr ⟨index, List.mem_range.mpr hindex, h⟩)

theorem safe_of_inv (h : Inv s) (hnumbered : Numbered s) : Safe s where
  ready := h.ready
  mounted hready := h.mounted (h.ready.mp hready)
  empty := h.empty
  trackCount := by
    unfold State.trackCount
    split
    · next blob hblob => exact (h.sound blob hblob).count
    · exact Nat.zero_le _
  albumName _ hget := h.header (by decide) (fun _ => mem_lastBytes_header (by simp)) hget
  albumDescription _ hget := h.header (by decide) (fun _ => mem_lastBytes_header (by simp)) hget
  artist _ hget := h.header (by decide) (fun _ => mem_lastBytes_header (by simp)) hget
  genre _ hget := h.header (by decide) (fun _ => mem_lastBytes_header (by simp)) hget
  tag index start hget := by
    unfold State.getAlbumTag at hget
    split at hget
    · cases hget
    · next hthere =>
      rw [not_or] at hthere
      refine h.header (by decide) (fun trackCount => ?_) hget
      exact List.mem_append_left _ (List.mem_append_right _
        (List.mem_map.mpr ⟨index, List.mem_range.mpr (Nat.not_le.mp hthere.2), rfl⟩))
  trackName _ _ hget :=
    h.track (by decide) (fun _ hlt => mem_lastBytes_track hlt (by simp)) hget
  trackArtists _ _ hget :=
    h.track (by decide) (fun _ hlt => mem_lastBytes_track hlt (by simp)) hget
  tracks index start blob hget hblob := by
    obtain ⟨blob', hblob', hlt, rfl⟩ := getMetadataTrack_eq hget
    rw [hblob'] at hblob
    cases hblob
    rw [(h.sound blob hblob').length, trackAt, show trackEntryBytes = 392 from rfl]
    omega
  posted := hnumbered.posted
  generation := hnumbered.generation

/-- **The metadata is safe to read.** Whatever is mounted, unmounted and loaded, whatever
fails on the way and whatever the file of the album holds, the fields are served exactly
while the status says so, every string and every track that is served lies in the blob, and
the mounts and unmounts are posted and counted. -/
theorem metadata_safe (espRomCrc32Le : UInt32 → List UInt8 → UInt32) {as : List Action} {s : State}
    (hrun : run (step espRomCrc32Le) off as = some s) : Safe s :=
  safe_of_inv (run_invariant (fun _ _ _ h _ hstep => inv_step h hstep) inv_off (along_true as) hrun)
    (run_invariant (fun _ _ _ h _ hstep => numbered_step h hstep) numbered_off (along_true as) hrun)

/-- A card with a damaged file is mounted at the start and taken out again. -/
def damaged : List Action := [.init ⟨true, .ok, { jbm := some [1, 2, 3] }⟩, .unmount]

theorem metadata_safe_damaged : ∃ s, run (step crc32From) off damaged = some s ∧
    s.mountGeneration = 3 ∧ Safe s := by
  obtain ⟨s, hrun, hgeneration⟩ : ∃ s, run (step crc32From) off damaged = some s ∧
      s.mountGeneration = 3 := ⟨_, rfl, rfl⟩
  exact ⟨s, hrun, hgeneration, metadata_safe crc32From hrun⟩

end Jukeboy.Cartridge.Service
