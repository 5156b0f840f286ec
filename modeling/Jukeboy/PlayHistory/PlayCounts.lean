import Jukeboy.PlayHistory.Refinement

/-! # The play-history cache stays consistent

From an empty cache or a file the service wrote, whatever events and cartridges
come, the counters and the keys stay right until the sequence counter wraps, and
the play count of a track is the number of countable plays of the run that were
applied to it since its record was made. -/
namespace Jukeboy.PlayHistory.PlayCounts

open Jukeboy.Base Jukeboy.Base.SlotTable Jukeboy.Formats.Jbm Jukeboy.PlayHistory.Cache Jukeboy.PlayHistory.Effects
  Jukeboy.PlayHistory.Operations Jukeboy.PlayHistory.Invariant Jukeboy.PlayHistory.Persistence
  Jukeboy.PlayHistory.Refinement

/-! ## The plays of a run -/

/-- The event is a countable play of the track, and was applied. -/
def applies (cart : Cartridge) (event : Event) (s : Store) (key : TrackKey) : Bool :=
  match event with
  | .countablePlay track =>
    decide ((track.cartridgeChecksum, track.trackIndex) = key) &&
      (applyCountablePlay cart track s).2.isOk
  | .syncCurrentCartridge | .clear | .rebuild => false

/-- The event begins with an empty cache. -/
def empties : Event → Bool
  | .clear | .rebuild => true
  | .syncCurrentCartridge | .countablePlay _ => false

/-- The plays applied to a track since its record was made, one event later. An event that
empties the cache or finds no record of the track makes the record, if there is one after it. -/
def playsAfter (cart : Cartridge) (event : Event) (s : Store) (plays : TrackKey → Nat)
    (key : TrackKey) : Nat :=
  (if trackAt s key ≠ none ∧ empties event = false then plays key else 0) +
    if applies cart event s key then 1 else 0

/-- The stores the service can be in before the sequence counter wraps, each with the plays
that were applied on the way to it. -/
inductive Reached : (TrackKey → Nat) → Store → Prop where
  | reset (s : Store) : Reached (fun _ => 0) { resetCache s with wrapped := false }
  | event {plays : TrackKey → Nat} {s : Store} (h : Reached plays s) (cart : Cartridge)
      (event : Event) (hw : (processEvent cart event s).1.wrapped = false) :
      Reached (playsAfter cart event s plays) (processEvent cart event s).1
  /-- A file is loaded that was written some time before. -/
  | load {plays : TrackKey → Nat} {s : Store} {blob : List UInt8} (h : Reached plays s)
      (hbuild : buildSerializedBlob s = .ok blob) (u : Store) :
      Reached plays { (loadFromSerializedBytes blob u).1 with wrapped := false }

theorem Reached.reachable {plays : TrackKey → Nat} {s : Store} (h : Reached plays s) :
    Reachable s := by
  induction h with
  | reset s => exact .reset s
  | event _ cart event hw ih => exact .event ih cart event hw
  | load _ hbuild u ih => exact .load ih hbuild u

/-- A play is applied when its track is in use afterwards. -/
theorem isOk_applyCountablePlay (cart : Cartridge) {s : Store} (hs : Shape s) (ht : Timed s)
    (track : TrackEvent)
    (h : (track.cartridgeChecksum, track.trackIndex) ∈
      trackKeys (applyCountablePlay cart track s).1) :
    (applyCountablePlay cart track s).2.isOk = true := by
  have hslot := slotForPlay_spec cart hs ht track
  have hstore := applyCountablePlay_eq cart hs ht track
  dsimp only at hslot hstore
  cases hfind : findTrackSlot (storeForPlay cart (track.cartridgeChecksum, track.trackIndex) s)
      track.cartridgeChecksum track.trackIndex with
  | none =>
    rw [hstore, hfind] at h
    obtain ⟨i, hi⟩ := trackKeys_of_find.mpr h
    rw [hfind] at hi
    cases hi
  | some slot =>
    rcases hslot with hslot | ⟨hnone, -⟩
    · rw [applyCountablePlay, hslot, hfind]
      rfl
    · rw [hfind] at hnone
      cases hnone

/-- The shelf that a store holds has the plays of the run. -/
structure Counts (plays : TrackKey → Nat) (s : Store) (shelf : Shelf) : Prop where
  represents : Represents s shelf
  plays : ∀ k ∈ shelf.tracks, shelf.plays k = plays k

theorem mem_tracks {s : Store} {shelf : Shelf} (h : Represents s shelf) {k : TrackKey} :
    k ∈ shelf.tracks ↔ trackAt s k ≠ none := by
  rw [h.tracks, playsAt, Option.isSome_map, Option.ne_none_iff_isSome]

theorem empties_shelfEvent (event : Event) : (shelfEvent event).empties = empties event := by
  cases event <;> rfl

theorem Counts.event {plays : TrackKey → Nat} {s : Store} {shelf : Shelf}
    (h : Counts plays s shelf) (hs : Shape s) (ht : Timed s) {cart : Cartridge} {event : Event}
    (hw : (processEvent cart event s).1.wrapped = false) :
    Counts (playsAfter cart event s plays) (processEvent cart event s).1
      (Shelf.handle historyLimits (inserted cart) (shelfEvent event) shelf) := by
  have hrep := processEvent_represents hs ht hw h.represents
  refine ⟨hrep, fun k hk => ?_⟩
  have happlies : shelfEvent event = .play k ↔ applies cart event s k = true := by
    cases event with
    | syncCurrentCartridge | clear | rebuild => simp [shelfEvent, applies]
    | countablePlay track =>
      simp only [shelfEvent, applies, Shelf.Event.play.injEq, Bool.and_eq_true, decide_eq_true_eq]
      refine ⟨fun hkey => ⟨hkey, ?_⟩, And.left⟩
      rw [hrep.tracks_eq, processEvent_countablePlay, ← hkey] at hk
      exact isOk_applyCountablePlay cart hs ht track hk
  rw [Shelf.plays_handle hk, playsAfter, empties_shelfEvent]
  simp only [happlies, mem_tracks h.represents]
  congr 1
  split
  · next hin => exact h.plays k ((mem_tracks h.represents).mpr hin.1)
  · rfl

theorem Reached.counts {plays : TrackKey → Nat} {s : Store} (h : Reached plays s) :
    ∃ shelf, Counts plays s shelf := by
  induction h with
  | reset s =>
    refine ⟨Shelf.empty, represents_empty ?_ ?_, fun k hk => absurd hk (Finset.notMem_empty k)⟩
    · funext c
      rw [seenAt, albumAt, resetCache, lookup_empty, Option.map_none]
    · funext k
      rw [playsAt, trackAt, resetCache, lookup_empty, Option.map_none]
  | event hs cart event hw ih =>
    obtain ⟨shelf, hcounts⟩ := ih
    obtain ⟨hshape, htimed, -⟩ := hs.reachable.sound
    exact ⟨_, hcounts.event hshape htimed hw⟩
  | load hs hbuild u ih =>
    obtain ⟨shelf, hrep, hplays⟩ := ih
    obtain ⟨hshape, htimed, -⟩ := hs.reachable.sound
    rw [load_buildSerializedBlob hshape.albumCount hshape.trackCount (nextSequence_ne_zero htimed)
      hbuild u]
    exact ⟨shelf, (hrep.compacted hshape).of_same rfl rfl, hplays⟩

/-! ## What is claimed -/

/-- The counters, the keys, the albums of tracks and the play counts are right. -/
structure Consistent (plays : TrackKey → Nat) (s : Store) : Prop where
  albumCount : s.albumCount = inUse s.albums
  trackCount : s.trackCount = inUse s.tracks
  albumCount_le : s.albumCount ≤ maxAlbums
  trackCount_le : s.trackCount ≤ maxTracks
  albums_distinct : ∀ i j a b, s.albums i = some a → s.albums j = some b →
    a.checksum = b.checksum → i = j
  tracks_distinct : ∀ i j t u, s.tracks i = some t → s.tracks j = some u →
    t.cartridgeChecksum = u.cartridgeChecksum → t.trackIndex = u.trackIndex → i = j
  album_of_track : ∀ i t, s.tracks i = some t →
    ∃ j a, s.albums j = some a ∧ a.checksum = t.cartridgeChecksum
  playCount : ∀ i t, s.tracks i = some t →
    t.playCount.toNat = plays (t.cartridgeChecksum, t.trackIndex)

theorem Counts.playCount {plays : TrackKey → Nat} {s : Store} {shelf : Shelf}
    (h : Counts plays s shelf) (hs : Shape s) {i : Fin maxTracks} {t : Track}
    (hi : s.tracks i = some t) : t.playCount.toNat = plays t.key := by
  have hat : trackAt s t.key = some t := hs.tracks.lookup_eq_some.mpr ⟨⟨i, hi⟩, rfl⟩
  have hmem : t.key ∈ shelf.tracks := by
    rw [mem_tracks h.represents, hat]
    exact Option.some_ne_none t
  rw [← h.plays t.key hmem, h.represents.plays, playsAt, hat]
  rfl

/-- **The cache invariant.** Every store reached before the sequence counter wraps has right
counters within the caps, unique keys, an album in use for every track, and play counts that
are the plays the run has applied since the track was last created. -/
theorem cache_invariant {plays : TrackKey → Nat} {s : Store} (h : Reached plays s) :
    Consistent plays s := by
  obtain ⟨hs, -, -⟩ := h.reachable.sound
  obtain ⟨shelf, hcounts⟩ := h.counts
  constructor
  · exact hs.albumCount
  · exact hs.trackCount
  · exact hs.albumCount ▸ inUse_le s.albums
  · exact hs.trackCount ▸ inUse_le s.tracks
  · exact hs.albums
  · intro i j t u hi hj hchecksum hindex
    exact hs.tracks i j t u hi hj (Prod.ext hchecksum hindex)
  · intro i t hi
    obtain ⟨a, ⟨j, hj⟩, ha⟩ := hs.home t ⟨i, hi⟩
    exact ⟨j, a, hj, ha⟩
  · exact fun i t hi => hcounts.playCount hs hi

/-- The cartridge of one track is inserted and its track played. -/
def playedStore : Store :=
  (processEvent oneTrackCartridge (.countablePlay oneTrackPlay)
    (processEvent oneTrackCartridge .syncCurrentCartridge
      { resetCache emptyStore with wrapped := false }).1).1

theorem cache_invariant_oneTrack : ∃ plays, plays (7, 0) = 1 ∧ plays (7, 1) = 0 ∧
    Consistent plays playedStore :=
  ⟨_, by decide +kernel, by decide +kernel,
    cache_invariant (.event (.event (.reset emptyStore) oneTrackCartridge .syncCurrentCartridge
      (by decide +kernel)) oneTrackCartridge (.countablePlay oneTrackPlay) (by decide +kernel))⟩

end Jukeboy.PlayHistory.PlayCounts
