import Jukeboy.PlayHistory.Invariant
import Jukeboy.PlayHistory.Shelf

/-! # The cache refines the shelf

What the cache holds is a shelf of albums, and every event does to the cache what
it does to the shelf, until the sequence counter wraps. -/
namespace Jukeboy.PlayHistory.Refinement

open Jukeboy.Base Jukeboy.Base.SlotTable Jukeboy.Formats.Jbm Jukeboy.PlayHistory.Cache
  Jukeboy.PlayHistory.Effects Jukeboy.PlayHistory.Operations Jukeboy.PlayHistory.Invariant
  Jukeboy.PlayHistory.Persistence

abbrev Shelf := Shelf.State UInt32 UInt32

/-- The sequence number of an album in use. -/
def seenAt (s : Store) (c : UInt32) : Option Nat :=
  (albumAt s c).map fun a => a.firstSeenSequence.toNat

/-- The plays of a track in use. -/
def playsAt (s : Store) (k : TrackKey) : Option Nat :=
  (trackAt s k).map fun t => t.playCount.toNat

/-- The shelf lists the albums in use in the order of their sequence numbers,
the tracks in use, and their play counts. -/
structure Represents (s : Store) (shelf : Shelf) : Prop where
  members : ∀ c, c ∈ shelf.albums ↔ (seenAt s c).isSome = true
  order : shelf.albums.Pairwise fun c d =>
    ∀ m n, seenAt s c = some m → seenAt s d = some n → m < n
  tracks : ∀ k, k ∈ shelf.tracks ↔ (playsAt s k).isSome = true
  plays : ∀ k, shelf.plays k = (playsAt s k).getD 0

def apply : Effect → Shelf → Shelf
  | .quiet, shelf => shelf
  | .addAlbum c, shelf => Shelf.addAlbum c shelf
  | .removeAlbum c, shelf => Shelf.removeAlbum c shelf
  | .addTrack k, shelf => Shelf.addTrack k shelf
  | .countPlay k, shelf => Shelf.countPlay k shelf
  | .forget, _ => Shelf.empty

/-! ## What a change does to the sequence numbers and the plays -/

def onSeen (next : Nat) : Effect → (UInt32 → Option Nat) → UInt32 → Option Nat
  | .addAlbum c, seen => Function.update seen c (some next)
  | .removeAlbum c, seen => fun d => if d = c then none else seen d
  | .forget, _ => fun _ => none
  | .quiet, seen => seen
  | .addTrack _, seen => seen
  | .countPlay _, seen => seen

def onPlays : Effect → (TrackKey → Option Nat) → TrackKey → Option Nat
  | .addTrack k, plays => Function.update plays k (some 0)
  | .removeAlbum c, plays => fun k => if k.1 = c then none else plays k
  | .countPlay k, plays => Function.update plays k ((plays k).map (· + 1))
  | .forget, _ => fun _ => none
  | .quiet, plays => plays
  | .addAlbum _, plays => plays

theorem change_seenAt {s t : Store} {e : Effect} (h : Change s e t) (hs : Shape s)
    (ht : Timed s) (hw : t.wrapped = false) :
    seenAt t = onSeen s.nextSequence.toNat e (seenAt s) := by
  funext d
  cases h with
  | draw => simp only [seenAt, albumAt, nextSequence_albums, onSeen]
  | dirty => rfl
  | @updateAlbum i a b hi hkey hseen =>
    have ha : albumAt s b.checksum = some a :=
      hs.albums.lookup_eq_some.mpr ⟨⟨i, hi⟩, hkey.symm⟩
    rw [seenAt, albumAt, hs.albums.lookup_set_used hi hkey, onSeen,
      seenAt]
    split
    · next hd => rw [hd, ha, Option.map_some, Option.map_some, hseen]
    · rfl
  | updateTrack => rfl
  | @addAlbum i b hi hfresh hseen =>
    obtain ⟨hdrawn, -⟩ := nextSequence_of_not_wrapped ht.next hw
    rw [seenAt, albumAt, nextSequence_albums, hs.albums.lookup_set_free hi hfresh,
      onSeen, Function.update_apply]
    split
    · rw [Option.map_some, hseen, hdrawn]
    · rfl
  | @removeAlbum i a hi =>
    rw [seenAt, albumAt, withoutAlbum, hs.albums.lookup_erase, ← albumAt]
    simp only [onSeen, seenAt]
    cases hd : albumAt s d with
    | none => simp
    | some b =>
      have hkey : b.checksum = d := (hs.albums.lookup_eq_some.mp hd).2
      by_cases hda : d = a.checksum
      · simp [Option.filter, hkey, hda]
      · simp [Option.filter, hkey, hda]
  | addTrack => simp only [seenAt, albumAt, nextSequence_albums, onSeen]
  | countPlay => simp only [seenAt, albumAt, nextSequence_albums, onSeen]
  | forget => rw [seenAt, albumAt, resetCache, lookup_empty, Option.map_none, onSeen]

theorem change_playsAt {s t : Store} {e : Effect} (h : Change s e t) (hs : Shape s)
    (ht : Timed s) : playsAt t = onPlays e (playsAt s) := by
  funext k
  cases h with
  | draw => simp only [playsAt, trackAt, nextSequence_tracks, onPlays]
  | dirty => rfl
  | updateAlbum => rfl
  | @updateTrack i u v hi hkey hplays =>
    have hu : trackAt s v.key = some u := hs.tracks.lookup_eq_some.mpr ⟨⟨i, hi⟩, hkey.symm⟩
    rw [playsAt, trackAt, hs.tracks.lookup_set_used hi hkey, onPlays,
      playsAt]
    split
    · next hk => rw [hk, hu, Option.map_some, Option.map_some, hplays]
    · rfl
  | addAlbum => simp only [playsAt, trackAt, nextSequence_tracks, onPlays]
  | @removeAlbum i a hi =>
    rw [playsAt, trackAt, withoutAlbum, hs.tracks.lookup_erase, ← trackAt]
    simp only [onPlays, playsAt]
    cases hk : trackAt s k with
    | none => simp
    | some t =>
      have hkey : t.key = k := (hs.tracks.lookup_eq_some.mp hk).2
      rw [← hkey]
      by_cases hc : t.cartridgeChecksum = a.checksum
      · simp [Option.filter, Track.key, hc]
      · simp [Option.filter, Track.key, hc]
  | @addTrack i u hi hfresh hhome hindex hplays =>
    rw [playsAt, trackAt, nextSequence_tracks, hs.tracks.lookup_set_free hi hfresh,
      onPlays, Function.update_apply]
    split
    · rw [Option.map_some, hplays]
      rfl
    · rfl
  | @countPlay i u v hi hkey hplays =>
    have hu : trackAt s u.key = some u := hs.tracks.lookup_eq_some.mpr ⟨⟨i, hi⟩, rfl⟩
    have hcount : v.playCount.toNat = u.playCount.toNat + 1 := by
      rw [hplays, UInt32.toNat_add, show (1 : UInt32).toNat = 1 from rfl,
        Nat.mod_eq_of_lt (Nat.lt_of_le_of_lt (ht.plays_lt u ⟨i, hi⟩) s.nextSequence.toNat_lt)]
    rw [playsAt, trackAt, nextSequence_tracks, hs.tracks.lookup_set_used hi hkey,
      onPlays, Function.update_apply, hkey]
    split
    · rw [Option.map_some, playsAt, hu, Option.map_some, Option.map_some, hcount]
    · rfl
  | forget =>
    rw [playsAt, trackAt, resetCache, lookup_empty, Option.map_none, onPlays]

/-! ## Every change refines -/

theorem Represents.addAlbum {s t : Store} {shelf : Shelf} {c : UInt32} (h : Represents s shelf)
    (ht : Timed s) (hs : Shape s) (hfresh : seenAt s c = none)
    (hseen : seenAt t = Function.update (seenAt s) c (some s.nextSequence.toNat))
    (hplays : playsAt t = playsAt s) : Represents t (Shelf.addAlbum c shelf) := by
  have hold : ∀ d, d ∈ shelf.albums → d ≠ c := by
    rintro d hd rfl
    rw [h.members, hfresh] at hd
    cases hd
  refine ⟨fun d => ?_, ?_, fun k => hplays ▸ h.tracks k, fun k => hplays ▸ h.plays k⟩
  · rw [Shelf.addAlbum, List.mem_append, List.mem_singleton, hseen, Function.update_apply,
      h.members]
    by_cases hd : d = c <;> simp [hd]
  · refine List.pairwise_append.mpr ⟨?_, List.pairwise_singleton .., ?_⟩
    · refine h.order.imp_of_mem fun {d e} hd he hlt m n hm hn => ?_
      rw [hseen, Function.update_of_ne (hold _ hd)] at hm
      rw [hseen, Function.update_of_ne (hold _ he)] at hn
      exact hlt m n hm hn
    · intro d hd e he m n hm hn
      obtain rfl := List.mem_singleton.mp he
      rw [hseen, Function.update_of_ne (hold _ hd)] at hm
      rw [hseen, Function.update_self, Option.some.injEq] at hn
      obtain ⟨a, ha, rfl⟩ := Option.map_eq_some_iff.mp hm
      rw [← hn]
      exact ht.albums a (hs.albums.lookup_eq_some.mp ha).1

theorem Represents.removeAlbum {s t : Store} {shelf : Shelf} {c : UInt32}
    (h : Represents s shelf) (hseen : seenAt t = fun d => if d = c then none else seenAt s d)
    (hplays : playsAt t = fun k => if k.1 = c then none else playsAt s k) :
    Represents t (Shelf.removeAlbum c shelf) := by
  refine ⟨fun d => ?_, ?_, fun k => ?_, fun k => ?_⟩
  · rw [Shelf.removeAlbum, List.mem_filter, hseen, h.members]
    by_cases hd : d = c <;> simp [hd]
  · rw [Shelf.removeAlbum]
    refine (h.order.filter _).imp_of_mem fun {d e} hd he hlt m n hm hn => ?_
    simp only [hseen, if_neg (of_decide_eq_true (List.mem_filter.mp hd).2)] at hm
    simp only [hseen, if_neg (of_decide_eq_true (List.mem_filter.mp he).2)] at hn
    exact hlt m n hm hn
  · rw [Shelf.removeAlbum, Finset.mem_filter, hplays, h.tracks]
    by_cases hk : k.1 = c <;> simp [hk]
  · simp only [Shelf.removeAlbum, hplays, h.plays]
    by_cases hk : k.1 = c <;> simp [hk]

theorem Represents.of_same {s t : Store} {shelf : Shelf} (h : Represents s shelf)
    (hseen : seenAt t = seenAt s) (hplays : playsAt t = playsAt s) : Represents t shelf := by
  refine ⟨fun c => ?_, ?_, fun k => ?_, fun k => ?_⟩
  · rw [hseen]
    exact h.members c
  · rw [hseen]
    exact h.order
  · rw [hplays]
    exact h.tracks k
  · rw [hplays]
    exact h.plays k

theorem Represents.addTrack {s t : Store} {shelf : Shelf} {k : TrackKey} (h : Represents s shelf)
    (hseen : seenAt t = seenAt s) (hplays : playsAt t = Function.update (playsAt s) k (some 0)) :
    Represents t (Shelf.addTrack k shelf) := by
  refine ⟨fun c => hseen ▸ h.members c, ?_, fun l => ?_, fun l => ?_⟩
  · rw [hseen]
    exact h.order
  · rw [Shelf.addTrack, Finset.mem_insert, hplays, h.tracks, Function.update_apply]
    by_cases hl : l = k <;> simp [hl]
  · simp only [Shelf.addTrack, hplays, Function.update_apply, h.plays]
    by_cases hl : l = k <;> simp [hl]

theorem Represents.countPlay {s t : Store} {shelf : Shelf} {k : TrackKey} (h : Represents s shelf)
    (hin : (playsAt s k).isSome = true) (hseen : seenAt t = seenAt s)
    (hplays : playsAt t = Function.update (playsAt s) k ((playsAt s k).map (· + 1))) :
    Represents t (Shelf.countPlay k shelf) := by
  obtain ⟨n, hn⟩ := Option.isSome_iff_exists.mp hin
  refine ⟨fun c => hseen ▸ h.members c, ?_, fun l => ?_, fun l => ?_⟩
  · rw [hseen]
    exact h.order
  · rw [Shelf.countPlay, hplays, h.tracks, Function.update_apply]
    by_cases hl : l = k <;> simp [hl, hn]
  · simp only [Shelf.countPlay, hplays, Function.update_apply, h.plays]
    by_cases hl : l = k <;> simp [hl, hn]

theorem represents_empty {s : Store} (hseen : seenAt s = fun _ => none)
    (hplays : playsAt s = fun _ => none) : Represents s Shelf.empty := by
  refine ⟨fun c => ?_, .nil, fun k => ?_, fun k => ?_⟩ <;>
    simp [Shelf.empty, hseen, hplays]

/-- **One change refines** its effect on the shelf. -/
theorem change_represents {s t : Store} {e : Effect} {shelf : Shelf} (h : Change s e t)
    (hs : Shape s) (ht : Timed s) (hw : t.wrapped = false) (hr : Represents s shelf) :
    Represents t (apply e shelf) := by
  have hseen := change_seenAt h hs ht hw
  have hplays := change_playsAt h hs ht
  cases e with
  | quiet => exact hr.of_same hseen hplays
  | addAlbum c =>
    refine hr.addAlbum ht hs ?_ hseen hplays
    cases h with
    | addAlbum _ hfresh => rw [seenAt, hfresh, Option.map_none]
  | removeAlbum c => exact hr.removeAlbum hseen hplays
  | addTrack k => exact hr.addTrack hseen hplays
  | countPlay k =>
    refine hr.countPlay ?_ hseen hplays
    cases h with
    | @countPlay i u v hi =>
      have hu : trackAt s u.key = some u := hs.tracks.lookup_eq_some.mpr ⟨⟨i, hi⟩, rfl⟩
      rw [playsAt, hu]
      rfl
  | forget => exact represents_empty hseen hplays

/-- **Every path refines** its effects on the shelf. -/
theorem path_represents {s t : Store} {es : List Effect} {shelf : Shelf} (h : Path s es t)
    (hs : Shape s) (ht : Timed s) (hw : t.wrapped = false) (hr : Represents s shelf) :
    Represents t (es.foldl (fun shelf e => apply e shelf) shelf) := by
  induction h generalizing shelf with
  | nil => exact hr
  | quiet hc hrest ih =>
    have hw' := hrest.not_wrapped hw
    exact ih (hc.shape hs) (hc.timed hs ht hw') hw (change_represents hc hs ht hw' hr)
  | cons hc hrest ih =>
    have hw' := hrest.not_wrapped hw
    exact ih (hc.shape hs) (hc.timed hs ht hw') hw (change_represents hc hs ht hw' hr)

/-! ## Counting -/

theorem Represents.nodup {s : Store} {shelf : Shelf} (h : Represents s shelf) :
    shelf.albums.Nodup := by
  refine h.order.imp_of_mem ?_
  rintro c d hc - hlt rfl
  obtain ⟨m, hm⟩ := Option.isSome_iff_exists.mp ((h.members c).mp hc)
  exact absurd (hlt m m hm hm) (Nat.lt_irrefl m)

theorem Represents.tracks_eq {s : Store} {shelf : Shelf} (h : Represents s shelf) :
    shelf.tracks = trackKeys s := by
  ext k
  rw [h.tracks, mem_trackKeys, playsAt, Option.isSome_map]

theorem Represents.mem_albums {s : Store} {shelf : Shelf} (h : Represents s shelf) {c : UInt32} :
    c ∈ shelf.albums ↔ albumAt s c ≠ none := by
  rw [h.members, seenAt, Option.isSome_map, Option.ne_none_iff_isSome]

theorem Represents.albumCount {s : Store} {shelf : Shelf} (h : Represents s shelf)
    (hs : Shape s) : shelf.albums.length = s.albumCount := by
  have hkeys : shelf.albums.toFinset = keys Album.checksum s.albums := by
    ext c
    rw [List.mem_toFinset, h.mem_albums, mem_keys, Option.ne_none_iff_isSome, albumAt]
  rw [← List.toFinset_card_of_nodup h.nodup, hkeys, hs.albums.card_keys, hs.albumCount]

theorem Represents.trackCount {s : Store} {shelf : Shelf} (h : Represents s shelf)
    (hs : Shape s) : shelf.tracks.card = s.trackCount := by
  rw [h.tracks_eq, trackKeys, hs.tracks.card_keys, hs.trackCount]

def historyLimits : Shelf.Limits := ⟨maxAlbums, maxTracks⟩

theorem Represents.over_iff {s : Store} {shelf : Shelf} (h : Represents s shelf) (hs : Shape s)
    (da dt : Nat) : Shelf.Over historyLimits da dt shelf ↔ Over da dt s := by
  rw [Shelf.Over, h.albumCount hs, h.trackCount hs]
  rfl

theorem Represents.room {s : Store} {shelf : Shelf} (h : Represents s shelf) (hs : Shape s) :
    ¬ Shelf.Over historyLimits 0 0 shelf := by
  rw [h.over_iff hs, Over, hs.albumCount, hs.trackCount, Nat.add_zero, Nat.add_zero]
  have ha := inUse_le s.albums
  have ht := inUse_le s.tracks
  rintro (hover | hover)
  · exact absurd ha (Nat.not_le.mpr hover)
  · exact absurd ht (Nat.not_le.mpr hover)

/-! ## Making room -/

/-- The album pruned is the first on the shelf of those not to be kept. -/
theorem Represents.first_other {s : Store} {shelf : Shelf} (h : Represents s shelf) (hs : Shape s)
    {keep : UInt32} {i : Fin maxAlbums} {a : Album} (hi : s.albums i = some a)
    (hne : a.checksum ≠ keep)
    (hold : ∀ b, Holds s.albums b → b.checksum ≠ keep →
      a.firstSeenSequence.toNat ≤ b.firstSeenSequence.toNat) :
    (shelf.albums.filter fun b => decide (b ≠ keep)) =
      a.checksum :: (Shelf.removeAlbum a.checksum shelf).albums.filter
        fun b => decide (b ≠ keep) := by
  have ha : albumAt s a.checksum = some a := hs.albums.lookup_eq_some.mpr ⟨⟨i, hi⟩, rfl⟩
  have hmem : a.checksum ∈ shelf.albums.filter fun b => decide (b ≠ keep) :=
    List.mem_filter.mpr ⟨h.mem_albums.mpr (by rw [ha]; intro h; cases h), decide_eq_true hne⟩
  have horder := h.order.filter fun b => decide (b ≠ keep)
  have hnodup := h.nodup.filter fun b => decide (b ≠ keep)
  have hswap : ((Shelf.removeAlbum a.checksum shelf).albums.filter fun b => decide (b ≠ keep)) =
      (shelf.albums.filter fun b => decide (b ≠ keep)).filter fun b => decide (b ≠ a.checksum) := by
    rw [Shelf.removeAlbum, List.filter_filter, List.filter_filter]
    exact List.filter_congr fun b _ => Bool.and_comm _ _
  rw [hswap]
  have hkept : ∀ c ∈ shelf.albums.filter fun b => decide (b ≠ keep),
      ∃ b, albumAt s c = some b ∧ a.firstSeenSequence.toNat ≤ b.firstSeenSequence.toNat := by
    intro c hc
    obtain ⟨hc, hck⟩ := List.mem_filter.mp hc
    obtain ⟨b, hb⟩ := Option.ne_none_iff_exists'.mp (h.mem_albums.mp hc)
    obtain ⟨hheld, hkey⟩ := hs.albums.lookup_eq_some.mp hb
    exact ⟨b, hb, hold b hheld (by rw [hkey]; exact of_decide_eq_true hck)⟩
  generalize (shelf.albums.filter fun b => decide (b ≠ keep)) = others at *
  cases others with
  | nil => cases hmem
  | cons c rest =>
    obtain ⟨hnot, -⟩ := List.nodup_cons.mp hnodup
    have hc : c = a.checksum := by
      by_contra hca
      have harest : a.checksum ∈ rest :=
        (List.mem_cons.mp hmem).resolve_left fun heq => hca heq.symm
      obtain ⟨b, hb, hle⟩ := hkept c (List.mem_cons_self ..)
      have hlt := (List.pairwise_cons.mp horder).1 _ harest _ _
        (by rw [seenAt, hb]; rfl) (by rw [seenAt, ha]; rfl)
      exact absurd hlt (Nat.not_lt.mpr hle)
    subst hc
    rw [List.filter_cons_of_neg (by simp), List.filter_eq_self.mpr fun b hb => ?_]
    exact decide_eq_true fun heq => hnot (heq ▸ hb)

/-- The albums pruned are the shelf's victims. -/
theorem Represents.victims_eq {keep : UInt32} {da dt : Nat} {s t : Store} {cs : List UInt32}
    (hp : Pruned keep da dt s cs t) {shelf : Shelf} (h : Represents s shelf) (hs : Shape s)
    (ht : Timed s) (hw : s.wrapped = false) :
    Shelf.victims historyLimits da dt (shelf.albums.filter fun b => decide (b ≠ keep)) shelf =
      cs := by
  induction hp generalizing shelf with
  | room hroom => exact Shelf.victims_of_room (mt (h.over_iff hs da dt).mp hroom) _
  | @prune s t cs i a hover hi hne hold _ ih =>
    have hnext := change_represents (.removeAlbum hi) hs ht hw h
    rw [h.first_other hs hi hne hold, Shelf.victims, if_pos ((h.over_iff hs da dt).mpr hover)]
    exact congrArg _ (ih hnext (hs.remove _) (ht.remove _) hw)

/-! ## Every event refines -/

/-- The album inserted, as the shelf sees it. -/
def inserted (cart : Cartridge) : Option (UInt32 × List UInt32) :=
  (readable cart).map fun metadata =>
    (metadata.checksum, (List.range cart.getMetadataTrackCount).map UInt32.ofNat)

def shelfEvent : Event → Shelf.Event UInt32 UInt32
  | .syncCurrentCartridge => .sync
  | .countablePlay track => .play (track.cartridgeChecksum, track.trackIndex)
  | .clear => .clear
  | .rebuild => .rebuild

theorem Represents.missing_eq {s : Store} {shelf : Shelf} (h : Represents s shelf)
    (cart : Cartridge) (c : UInt32) :
    Shelf.missing c ((List.range cart.getMetadataTrackCount).map UInt32.ofNat) shelf =
      (missingTracks cart c s).map UInt32.ofNat := by
  rw [Shelf.missing, List.filter_map, missingTracks, missingIn, h.tracks_eq]
  rfl

theorem Represents.synced {s : Store} {shelf : Shelf} (h : Represents s shelf)
    {cart : Cartridge} {c : UInt32} (halbum : findAlbumSlot s c ≠ none)
    (hmissing : countMissingTracksForCurrentCartridge cart s c = 0) :
    c ∈ shelf.albums ∧
      Shelf.missing c ((List.range cart.getMetadataTrackCount).map UInt32.ofNat) shelf = [] := by
  rw [ne_eq, findAlbumSlot_eq_none] at halbum
  rw [countMissing_eq] at hmissing
  refine ⟨h.mem_albums.mpr halbum, ?_⟩
  rw [h.missing_eq, List.length_eq_zero_iff.mp hmissing, List.map_nil]

theorem foldl_removeAlbum (cs : List UInt32) (shelf : Shelf) :
    (cs.map Effect.removeAlbum).foldl (fun shelf e => apply e shelf) shelf =
      Shelf.removeAll cs shelf := by
  rw [List.foldl_map]
  rfl

/-- The effects of a sync are the shelf's sync. -/
theorem Represents.foldl_syncEffects {s t : Store} {shelf : Shelf} (h : Represents s shelf)
    (hs : Shape s) (ht : Timed s) (hw : s.wrapped = false) {cart : Cartridge} {c : UInt32}
    {cs : List UInt32}
    (hp : Pruned c (if albumAt s c = none then 1 else 0) (missingTracks cart c s).length s cs t) :
    (syncEffects cart c cs s).foldl (fun shelf e => apply e shelf) shelf =
      Shelf.sync historyLimits c ((List.range cart.getMetadataTrackCount).map UInt32.ofNat)
        shelf := by
  have hnew : Shelf.newAlbums c shelf = if albumAt s c = none then 1 else 0 := by
    rw [Shelf.newAlbums]
    by_cases hc : albumAt s c = none
    · rw [if_pos hc, if_neg (fun hmem => h.mem_albums.mp hmem hc)]
    · rw [if_neg hc, if_pos (h.mem_albums.mpr hc)]
  have hvictims := h.victims_eq hp hs ht hw
  rw [syncEffects, List.foldl_append, List.foldl_append, foldl_removeAlbum, Shelf.sync, hnew,
    h.missing_eq, List.length_map, hvictims, List.foldl_map, List.foldl_map]
  by_cases hc : albumAt s c = none
  · rw [if_pos hc, if_neg (fun hmem => h.mem_albums.mp hmem hc)]
    rfl
  · rw [if_neg hc, if_pos (h.mem_albums.mpr hc)]
    rfl

theorem sync_represents {cart : Cartridge} {s : Store} {shelf : Shelf} (hs : Shape s)
    (ht : Timed s) (hw : (syncCurrentCartridge cart s).1.wrapped = false)
    (h : Represents s shelf) :
    Represents (syncCurrentCartridge cart s).1
      (Shelf.handle historyLimits (inserted cart) .sync shelf) := by
  cases hread : readable cart with
  | none =>
    obtain ⟨err, hsync, -⟩ := syncCurrentCartridge_unreadable hread s
    rw [hsync, inserted, hread]
    exact h
  | some metadata =>
    obtain ⟨hmount, hmeta⟩ := readable_some hread
    obtain ⟨cs, made, t, hsync, hp, hpath⟩ := syncCurrentCartridge_spec hmount hmeta hs ht
    rw [hsync] at hw ⊢
    have hrep := path_represents hpath hs ht hw h
    rw [h.foldl_syncEffects hs ht (hpath.not_wrapped hw) hp] at hrep
    rw [inserted, hread]
    exact hrep

theorem storeForPlay_represents (cart : Cartridge) {s : Store} {shelf : Shelf} (hs : Shape s)
    (ht : Timed s) (k : TrackKey) (hw : (storeForPlay cart k s).wrapped = false)
    (h : Represents s shelf) :
    Represents (storeForPlay cart k s)
      (Shelf.shelfForPlay historyLimits (inserted cart) k shelf) := by
  unfold storeForPlay at hw ⊢
  unfold Shelf.shelfForPlay
  rw [h.tracks_eq]
  by_cases hmem : k ∈ trackKeys s
  · rw [if_pos hmem, if_neg (fun hk => hk.1 hmem)]
    exact h
  · rw [if_neg hmem]
    cases hread : readable cart with
    | none =>
      rw [inserted, hread, if_neg (fun hk => by cases hk.2)]
      exact h
    | some metadata =>
      rw [hread] at hw
      by_cases hc : metadata.checksum = k.1
      · rw [if_pos ⟨hmem, by simp [hc]⟩] at hw ⊢
        have hsync := sync_represents hs ht hw h
        rw [inserted, hread] at hsync ⊢
        simp only [Option.map_some, if_pos hc]
        exact hsync
      · rw [inserted, hread, if_neg (fun hk => hc (by simpa using hk.2))]
        simp only [Option.map_some, if_neg hc]
        exact h

/-- **Every event refines** what it does to the shelf. -/
theorem processEvent_represents {cart : Cartridge} {event : Event} {s : Store} {shelf : Shelf}
    (hs : Shape s) (ht : Timed s) (hw : (processEvent cart event s).1.wrapped = false)
    (h : Represents s shelf) :
    Represents (processEvent cart event s).1
      (Shelf.handle historyLimits (inserted cart) (shelfEvent event) shelf) := by
  cases event with
  | syncCurrentCartridge => exact sync_represents hs ht hw h
  | countablePlay track =>
    have happly := applyCountablePlay_spec cart hs ht track
    have hstore := fun hw => storeForPlay_represents cart hs ht
      (track.cartridgeChecksum, track.trackIndex) hw h
    obtain ⟨es, hpath⟩ := storeForPlay_path cart
      (track.cartridgeChecksum, track.trackIndex) hs ht
    dsimp only at happly
    rw [processEvent_countablePlay] at hw ⊢
    simp only [shelfEvent, Shelf.handle]
    split at happly
    · next hmem =>
      have hw' := happly.not_wrapped hw
      have hrep := hstore hw'
      rw [hrep.tracks_eq, if_pos hmem]
      exact path_represents happly (hpath.shape hs) (hpath.timed hs ht hw') hw hrep
    · next hmem =>
      rw [happly] at hw ⊢
      have hrep := hstore hw
      rw [hrep.tracks_eq, if_neg hmem]
      exact hrep
  | clear =>
    have hpath : Path s [.forget] { resetCache s with dirty := true } :=
      .cons (.forget s) (.silent (.dirty _))
    exact path_represents hpath hs ht hw h
  | rebuild =>
    have hpath : Path s [.forget] { resetCache s with dirty := true } :=
      .cons (.forget s) (.silent (.dirty _))
    have ht' : Timed { resetCache s with dirty := true } := .forget { s with dirty := true }
    have hempty : Represents { resetCache s with dirty := true } Shelf.empty :=
      represents_empty (by
          funext c
          rw [seenAt, albumAt, resetCache, lookup_empty, Option.map_none]) (by
          funext k
          rw [playsAt, trackAt, resetCache, lookup_empty, Option.map_none])
    exact sync_represents (hpath.shape hs) ht' hw hempty

/-! ## Every store reached is a shelf -/

theorem lookup_ofList_records {n : Nat} {α κ : Type} [DecidableEq κ] {key : α → κ} {t : Table n α}
    (h : Keyed key t) (k : κ) : lookup key (ofList (records t) : Table n α) k = lookup key t k := by
  have hlist : Keyed key (ofList (records t) : Table n α) := keyed_ofList h.records_nodup
  ext a
  rw [hlist.lookup_eq_some, holds_ofList_records, h.lookup_eq_some]

theorem Represents.compacted {s : Store} {shelf : Shelf} (h : Represents s shelf) (hs : Shape s) :
    Represents (compacted s) shelf :=
  h.of_same (funext fun c => congrArg _ (lookup_ofList_records hs.albums c))
    (funext fun k => congrArg _ (lookup_ofList_records hs.tracks k))

theorem exists_represents {s : Store} (h : Reachable s) : ∃ shelf, Represents s shelf := by
  induction h with
  | reset s =>
    refine ⟨Shelf.empty, represents_empty ?_ ?_⟩
    · funext c
      rw [seenAt, albumAt, resetCache, lookup_empty, Option.map_none]
    · funext k
      rw [playsAt, trackAt, resetCache, lookup_empty, Option.map_none]
  | event hs cart event hw ih =>
    obtain ⟨shelf, hrep⟩ := ih
    obtain ⟨hshape, htimed, -⟩ := hs.sound
    exact ⟨_, processEvent_represents hshape htimed hw hrep⟩
  | load hs hbuild u ih =>
    obtain ⟨shelf, hrep⟩ := ih
    obtain ⟨hshape, htimed, -⟩ := hs.sound
    rw [load_buildSerializedBlob hshape.albumCount hshape.trackCount (nextSequence_ne_zero htimed)
      hbuild u]
    exact ⟨shelf, (hrep.compacted hshape).of_same rfl rfl⟩

end Jukeboy.PlayHistory.Refinement
