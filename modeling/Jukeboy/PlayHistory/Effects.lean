import Jukeboy.PlayHistory.Cache

/-! # What the operations on the cache come to

Every operation of the service is a path of small changes: a sequence number is
drawn, a record is rewritten, added, taken out with its album, or its plays are
counted. What one change keeps, every path keeps. -/
namespace Jukeboy.PlayHistory.Effects

open Jukeboy.Base Jukeboy.Base.SlotTable Jukeboy.Formats.Jbm Jukeboy.PlayHistory.Cache

def albumAt (s : Store) (checksum : UInt32) : Option Album :=
  lookup Album.checksum s.albums checksum

def trackAt (s : Store) (key : TrackKey) : Option Track := lookup Track.key s.tracks key

/-- The store without an album and its tracks. -/
def withoutAlbum (checksum : UInt32) (s : Store) : Store :=
  let albums := erase s.albums fun a => a.checksum == checksum
  let tracks := erase s.tracks fun t => t.cartridgeChecksum == checksum
  { s with albums, tracks, albumCount := inUse albums, trackCount := inUse tracks }

/-! ## Sequence numbers -/

@[simp] theorem nextSequence_albums (s : Store) : (nextSequence s).2.albums = s.albums := by
  unfold nextSequence
  dsimp only
  split <;> split <;> rfl

@[simp] theorem nextSequence_tracks (s : Store) : (nextSequence s).2.tracks = s.tracks := by
  unfold nextSequence
  dsimp only
  split <;> split <;> rfl

@[simp] theorem nextSequence_albumCount (s : Store) :
    (nextSequence s).2.albumCount = s.albumCount := by
  unfold nextSequence
  dsimp only
  split <;> split <;> rfl

@[simp] theorem nextSequence_trackCount (s : Store) :
    (nextSequence s).2.trackCount = s.trackCount := by
  unfold nextSequence
  dsimp only
  split <;> split <;> rfl

/-- A number drawn before the counter wraps is the counter, which then counts on. -/
theorem nextSequence_of_not_wrapped {s : Store} (h0 : 0 < s.nextSequence.toNat)
    (hw : (nextSequence s).2.wrapped = false) :
    (nextSequence s).1 = s.nextSequence ∧
      (nextSequence s).2.nextSequence.toNat = s.nextSequence.toNat + 1 := by
  have hne : s.nextSequence ≠ 0 := by
    rintro heq
    rw [heq] at h0
    exact absurd h0 (by decide)
  unfold nextSequence at hw ⊢
  simp only [if_neg hne] at hw ⊢
  split
  · next hwrap =>
    rw [if_pos hwrap] at hw
    cases hw
  · next hwrap =>
    refine ⟨rfl, ?_⟩
    have hlt : s.nextSequence.toNat + 1 < 2 ^ 32 := by
      refine Nat.lt_of_le_of_ne s.nextSequence.toNat_lt fun heq => hwrap ?_
      rw [← UInt32.toNat_inj, UInt32.toNat_add, show (1 : UInt32).toNat = 1 from rfl, heq]
      rfl
    rw [UInt32.toNat_add, show (1 : UInt32).toNat = 1 from rfl, Nat.mod_eq_of_lt hlt]

theorem wrapped_nextSequence {s : Store} (h : s.wrapped = true) :
    (nextSequence s).2.wrapped = true := by
  unfold nextSequence
  dsimp only
  split <;> split
  all_goals first | exact h | rfl

/-! ## Changes -/

inductive Effect where
  | quiet
  | addAlbum (checksum : UInt32)
  | removeAlbum (checksum : UInt32)
  | addTrack (key : TrackKey)
  | countPlay (key : TrackKey)
  | forget
deriving DecidableEq, Repr

/-- One change of the store, with what it does to the contents. -/
inductive Change : Store → Effect → Store → Prop where
  | draw (s : Store) : Change s .quiet (nextSequence s).2
  | dirty (s : Store) : Change s .quiet { s with dirty := true }
  | updateAlbum {s : Store} {i : Fin maxAlbums} {a b : Album} (hi : s.albums i = some a)
      (hkey : b.checksum = a.checksum) (hseen : b.firstSeenSequence = a.firstSeenSequence) :
      Change s .quiet { s with albums := set s.albums i b }
  | updateTrack {s : Store} {i : Fin maxTracks} {t u : Track} (hi : s.tracks i = some t)
      (hkey : u.key = t.key) (hplays : u.playCount = t.playCount) :
      Change s .quiet { s with tracks := set s.tracks i u }
  | addAlbum {s : Store} {i : Fin maxAlbums} {b : Album} (hi : s.albums i = none)
      (hfresh : albumAt s b.checksum = none) (hseen : b.firstSeenSequence = (nextSequence s).1) :
      Change s (.addAlbum b.checksum)
        { (nextSequence s).2 with
          albums := set (nextSequence s).2.albums i b
          albumCount := (nextSequence s).2.albumCount + 1 }
  | removeAlbum {s : Store} {i : Fin maxAlbums} {a : Album} (hi : s.albums i = some a) :
      Change s (.removeAlbum a.checksum) (withoutAlbum a.checksum s)
  | addTrack {s : Store} {i : Fin maxTracks} {u : Track} (hi : s.tracks i = none)
      (hfresh : trackAt s u.key = none)
      (hhome : ∃ a, Holds s.albums a ∧ a.checksum = u.cartridgeChecksum)
      (hindex : u.trackIndex.toNat < maxTrackFiles) (hplays : u.playCount = 0) :
      Change s (.addTrack u.key)
        { (nextSequence s).2 with
          tracks := set (nextSequence s).2.tracks i u
          trackCount := (nextSequence s).2.trackCount + 1 }
  | countPlay {s : Store} {i : Fin maxTracks} {t u : Track} (hi : s.tracks i = some t)
      (hkey : u.key = t.key) (hplays : u.playCount = t.playCount + 1) :
      Change s (.countPlay t.key)
        { (nextSequence s).2 with
          tracks := set (nextSequence s).2.tracks i u }
  | forget (s : Store) : Change s .forget (resetCache s)

/-- Changes one after the other; the quiet ones leave no entry. -/
inductive Path : Store → List Effect → Store → Prop where
  | nil (s : Store) : Path s [] s
  | quiet {s t u : Store} {es : List Effect} (h : Change s .quiet t) (hs : Path t es u) :
      Path s es u
  | cons {s t u : Store} {e : Effect} {es : List Effect} (h : Change s e t) (hs : Path t es u) :
      Path s (e :: es) u

theorem Path.one {s t : Store} {e : Effect} (h : Change s e t) : Path s [e] t :=
  .cons h (.nil t)

theorem Path.silent {s t : Store} (h : Change s .quiet t) : Path s [] t :=
  .quiet h (.nil t)

theorem Path.append {s t u : Store} {es fs : List Effect} (h : Path s es t) (hs : Path t fs u) :
    Path s (es ++ fs) u := by
  induction h with
  | nil s => exact hs
  | quiet hc _ ih => exact .quiet hc (ih hs)
  | cons hc _ ih => exact .cons hc (ih hs)

/-! ## What every change keeps -/

/-- The counters count the slots in use, keys are unique, and every track's
album is in use. -/
structure Shape (s : Store) : Prop where
  albumCount : s.albumCount = inUse s.albums
  trackCount : s.trackCount = inUse s.tracks
  albums : Keyed Album.checksum s.albums
  tracks : Keyed Track.key s.tracks
  home : ∀ t, Holds s.tracks t → ∃ a, Holds s.albums a ∧ a.checksum = t.cartridgeChecksum
  index : ∀ t, Holds s.tracks t → t.trackIndex.toNat < maxTrackFiles

/-- The sequence counter is ahead of everything it was drawn for, and of the play
counts. -/
structure Timed (s : Store) : Prop where
  next : 0 < s.nextSequence.toNat
  albums : ∀ a, Holds s.albums a → a.firstSeenSequence.toNat < s.nextSequence.toNat
  order : Keyed Album.firstSeenSequence s.albums
  plays_lt : ∀ t, Holds s.tracks t → t.playCount.toNat < s.nextSequence.toNat

theorem Shape.forget (s : Store) : Shape (resetCache s) where
  albumCount := (@inUse_empty maxAlbums Album).symm
  trackCount := (@inUse_empty maxTracks Track).symm
  albums := keyed_empty _
  tracks := keyed_empty _
  home t ht := absurd ht (not_holds_empty t)
  index t ht := absurd ht (not_holds_empty t)

theorem Timed.forget (s : Store) : Timed (resetCache s) where
  next := Nat.one_pos
  albums a ha := absurd ha (not_holds_empty a)
  order := keyed_empty _
  plays_lt t ht := absurd ht (not_holds_empty t)

theorem Shape.remove {s : Store} (h : Shape s) (checksum : UInt32) :
    Shape (withoutAlbum checksum s) where
  albumCount := by simp only [withoutAlbum]
  trackCount := by simp only [withoutAlbum]
  albums := h.albums.erase _
  tracks := h.tracks.erase _
  home t ht := by
    obtain ⟨ht, hne⟩ := holds_erase.mp ht
    obtain ⟨a, ha, hat⟩ := h.home t ht
    exact ⟨a, holds_erase.mpr ⟨ha, by rw [hat]; exact hne⟩, hat⟩
  index t ht := h.index t (holds_erase.mp ht).1

theorem Timed.remove {s : Store} (h : Timed s) (checksum : UInt32) :
    Timed (withoutAlbum checksum s) where
  next := h.next
  albums a ha := h.albums a (holds_erase.mp ha).1
  order := h.order.erase _
  plays_lt t ht := h.plays_lt t (holds_erase.mp ht).1

/-- **One change keeps the shape.** -/
theorem Change.shape {s t : Store} {e : Effect} (h : Change s e t) (hs : Shape s) : Shape t := by
  cases h with
  | draw =>
    constructor <;> simp only [nextSequence_albums, nextSequence_tracks, nextSequence_albumCount,
      nextSequence_trackCount]
    exacts [hs.albumCount, hs.trackCount, hs.albums, hs.tracks, hs.home, hs.index]
  | dirty => exact ⟨hs.albumCount, hs.trackCount, hs.albums, hs.tracks, hs.home, hs.index⟩
  | @updateAlbum i a b hi hkey hseen =>
    refine ⟨?_, hs.trackCount, hs.albums.set_used hi hkey, hs.tracks, ?_, hs.index⟩
    · exact hs.albumCount.trans (inUse_set_used hi b).symm
    · intro u hu
      obtain ⟨c, hc, hcu⟩ := hs.home u hu
      by_cases hca : c.checksum = a.checksum
      · exact ⟨b, holds_set_self .., hkey.trans (hca.symm.trans hcu)⟩
      · exact ⟨c, (hs.albums.holds_set_used hi).mpr (.inr ⟨hc, hca⟩), hcu⟩
  | @updateTrack i u v hi hkey hplays =>
    refine ⟨hs.albumCount, ?_, hs.albums, hs.tracks.set_used hi hkey, ?_, ?_⟩
    · exact hs.trackCount.trans (inUse_set_used hi v).symm
    · intro w hw
      rcases (hs.tracks.holds_set_used hi).mp hw with rfl | ⟨hw, -⟩
      · rw [(Prod.mk.inj hkey).1]
        exact hs.home u ⟨i, hi⟩
      · exact hs.home w hw
    · intro w hw
      rcases (hs.tracks.holds_set_used hi).mp hw with rfl | ⟨hw, -⟩
      · rw [(Prod.mk.inj hkey).2]
        exact hs.index u ⟨i, hi⟩
      · exact hs.index w hw
  | @addAlbum i b hi hfresh hseen =>
    constructor <;> simp only [nextSequence_albums, nextSequence_tracks, nextSequence_albumCount,
      nextSequence_trackCount]
    · rw [inUse_set_free hi, hs.albumCount]
    · exact hs.trackCount
    · exact hs.albums.set_free hfresh
    · exact hs.tracks
    · intro u hu
      obtain ⟨c, hc, hcu⟩ := hs.home u hu
      exact ⟨c, (holds_set_free hi).mpr (.inr hc), hcu⟩
    · exact hs.index
  | @removeAlbum i a hi => exact hs.remove a.checksum
  | @addTrack i u hi hfresh hhome hindex hplays =>
    constructor <;> simp only [nextSequence_albums, nextSequence_tracks, nextSequence_albumCount,
      nextSequence_trackCount]
    · exact hs.albumCount
    · rw [inUse_set_free hi, hs.trackCount]
    · exact hs.albums
    · exact hs.tracks.set_free hfresh
    · intro w hw
      rcases (holds_set_free hi).mp hw with rfl | hw
      · exact hhome
      · exact hs.home w hw
    · intro w hw
      rcases (holds_set_free hi).mp hw with rfl | hw
      · exact hindex
      · exact hs.index w hw
  | @countPlay i u v hi hkey hplays =>
    constructor <;> simp only [nextSequence_albums, nextSequence_tracks, nextSequence_albumCount,
      nextSequence_trackCount]
    · exact hs.albumCount
    · rw [inUse_set_used hi, hs.trackCount]
    · exact hs.albums
    · exact hs.tracks.set_used hi hkey
    · intro w hw
      rcases (hs.tracks.holds_set_used hi).mp hw with rfl | ⟨hw, -⟩
      · rw [(Prod.mk.inj hkey).1]
        exact hs.home u ⟨i, hi⟩
      · exact hs.home w hw
    · intro w hw
      rcases (hs.tracks.holds_set_used hi).mp hw with rfl | ⟨hw, -⟩
      · rw [(Prod.mk.inj hkey).2]
        exact hs.index u ⟨i, hi⟩
      · exact hs.index w hw
  | forget => exact .forget s

/-- A wrap is not forgotten. -/
theorem Change.wrapped {s t : Store} {e : Effect} (h : Change s e t) (hw : s.wrapped = true) :
    t.wrapped = true := by
  cases h with
  | draw | addAlbum | addTrack | countPlay => exact wrapped_nextSequence hw
  | dirty | updateAlbum | updateTrack | removeAlbum | forget => exact hw

/-- **One change keeps the sequence counter ahead**, until it wraps. -/
theorem Change.timed {s t : Store} {e : Effect} (h : Change s e t) (hs : Shape s) (ht : Timed s)
    (hw : t.wrapped = false) : Timed t := by
  cases h with
  | draw =>
    obtain ⟨-, hnext⟩ := nextSequence_of_not_wrapped ht.next hw
    constructor <;> simp only [nextSequence_albums, nextSequence_tracks, hnext]
    · exact Nat.succ_pos _
    · exact fun a ha => Nat.lt_succ_of_lt (ht.albums a ha)
    · exact ht.order
    · exact fun u hu => Nat.lt_succ_of_lt (ht.plays_lt u hu)
  | dirty => exact ⟨ht.next, ht.albums, ht.order, ht.plays_lt⟩
  | @updateAlbum i a b hi hkey hseen =>
    refine ⟨ht.next, ?_, ht.order.set_used hi hseen, ht.plays_lt⟩
    intro c hc
    rcases (hs.albums.holds_set_used hi).mp hc with rfl | ⟨hc, -⟩
    · rw [hseen]
      exact ht.albums a ⟨i, hi⟩
    · exact ht.albums c hc
  | @updateTrack i u v hi hkey hplays =>
    refine ⟨ht.next, ht.albums, ht.order, ?_⟩
    intro w hw
    rcases (hs.tracks.holds_set_used hi).mp hw with rfl | ⟨hw, -⟩
    · rw [hplays]
      exact ht.plays_lt u ⟨i, hi⟩
    · exact ht.plays_lt w hw
  | @addAlbum i b hi hfresh hseen =>
    obtain ⟨hdrawn, hnext⟩ := nextSequence_of_not_wrapped ht.next hw
    rw [hdrawn] at hseen
    have hfirst : lookup Album.firstSeenSequence s.albums b.firstSeenSequence = none :=
      lookup_eq_none.mpr fun a ha heq =>
        absurd (ht.albums a ha) (by rw [heq, hseen]; exact Nat.lt_irrefl _)
    constructor <;> simp only [nextSequence_albums, nextSequence_tracks, hnext]
    · exact Nat.succ_pos _
    · intro a ha
      rcases (holds_set_free hi).mp ha with rfl | ha
      · rw [hseen]
        exact Nat.lt_succ_self _
      · exact Nat.lt_succ_of_lt (ht.albums a ha)
    · exact ht.order.set_free hfirst
    · exact fun u hu => Nat.lt_succ_of_lt (ht.plays_lt u hu)
  | @removeAlbum i a hi => exact ht.remove a.checksum
  | @addTrack i u hi hfresh hhome hindex hplays =>
    obtain ⟨-, hnext⟩ := nextSequence_of_not_wrapped ht.next hw
    have hzero : u.playCount.toNat = 0 := by
      rw [hplays]
      rfl
    constructor <;> simp only [nextSequence_albums, nextSequence_tracks, hnext]
    · exact Nat.succ_pos _
    · exact fun a ha => Nat.lt_succ_of_lt (ht.albums a ha)
    · exact ht.order
    · intro w hw
      rcases (holds_set_free hi).mp hw with rfl | hw
      · rw [hzero]
        exact Nat.succ_pos _
      · exact Nat.lt_succ_of_lt (ht.plays_lt w hw)
  | @countPlay i u v hi hkey hplays =>
    obtain ⟨-, hnext⟩ := nextSequence_of_not_wrapped ht.next hw
    have hlt := ht.plays_lt u ⟨i, hi⟩
    -- the count stays behind the sequence counter, so it does not overflow either
    have hcount : v.playCount.toNat = u.playCount.toNat + 1 := by
      rw [hplays, UInt32.toNat_add, show (1 : UInt32).toNat = 1 from rfl,
        Nat.mod_eq_of_lt (Nat.lt_of_le_of_lt hlt s.nextSequence.toNat_lt)]
    constructor <;> simp only [nextSequence_albums, nextSequence_tracks, hnext]
    · exact Nat.succ_pos _
    · exact fun a ha => Nat.lt_succ_of_lt (ht.albums a ha)
    · exact ht.order
    · intro w hw
      rcases (hs.tracks.holds_set_used hi).mp hw with rfl | ⟨hw, -⟩
      · rw [hcount]
        exact Nat.succ_lt_succ hlt
      · exact Nat.lt_succ_of_lt (ht.plays_lt w hw)
  | forget => exact .forget s

/-! ## Which tracks are in use -/

def trackKeys (s : Store) : Finset TrackKey := keys Track.key s.tracks

def Effect.onTracks : Effect → Finset TrackKey → Finset TrackKey
  | .quiet, ks => ks
  | .addAlbum _, ks => ks
  | .removeAlbum checksum, ks => ks.filter fun k => k.1 ≠ checksum
  | .addTrack key, ks => insert key ks
  | .countPlay _, ks => ks
  | .forget, _ => ∅

theorem mem_trackKeys {s : Store} {k : TrackKey} :
    k ∈ trackKeys s ↔ (trackAt s k).isSome = true := mem_keys

theorem trackKeys_withoutAlbum {s : Store} (hs : Shape s) (checksum : UInt32) :
    trackKeys (withoutAlbum checksum s) = (trackKeys s).filter fun k => k.1 ≠ checksum := by
  ext k
  rw [Finset.mem_filter, mem_trackKeys, mem_trackKeys, trackAt, withoutAlbum,
    hs.tracks.lookup_erase, ← trackAt]
  cases hk : trackAt s k with
  | none => simp
  | some t =>
    have hkey : t.key = k := (hs.tracks.lookup_eq_some.mp hk).2
    simp [Option.filter, ← hkey, Track.key]

theorem trackKeys_set_used {s : Store} (hs : Shape s) {i : Fin maxTracks} {t u : Track}
    (hi : s.tracks i = some t) (hkey : u.key = t.key) :
    keys Track.key (set s.tracks i u) = trackKeys s := by
  ext k
  rw [mem_trackKeys, mem_keys, hs.tracks.lookup_set_used hi hkey]
  split
  · next hk =>
    have ht : trackAt s k = some t := hs.tracks.lookup_eq_some.mpr ⟨⟨i, hi⟩, by rw [hk, hkey]⟩
    simp [ht]
  · rfl

theorem Change.trackKeys {s t : Store} {e : Effect} (h : Change s e t) (hs : Shape s) :
    trackKeys t = e.onTracks (trackKeys s) := by
  cases h with
  | draw => simp only [Effects.trackKeys, nextSequence_tracks, Effect.onTracks]
  | dirty => rfl
  | updateAlbum => rfl
  | updateTrack hi hkey => exact trackKeys_set_used hs hi hkey
  | addAlbum => simp only [Effects.trackKeys, nextSequence_tracks, Effect.onTracks]
  | removeAlbum => exact trackKeys_withoutAlbum hs _
  | @addTrack i u hi hfresh =>
    ext k
    rw [mem_trackKeys, trackAt, nextSequence_tracks, hs.tracks.lookup_set_free hi hfresh,
      Effect.onTracks, Finset.mem_insert, mem_trackKeys, ← trackAt]
    split
    · next hk => simp [hk]
    · next hk => simp [hk]
  | @countPlay i t u hi hkey =>
    simp only [Effects.trackKeys, nextSequence_tracks, Effect.onTracks]
    exact trackKeys_set_used hs hi hkey
  | forget =>
    ext k
    rw [mem_trackKeys, trackAt, resetCache, lookup_empty]
    simp [Effect.onTracks]

/-! ## What every path keeps -/

theorem Path.wrapped {s t : Store} {es : List Effect} (h : Path s es t) (hw : s.wrapped = true) :
    t.wrapped = true := by
  induction h with
  | nil => exact hw
  | quiet hc _ ih => exact ih (hc.wrapped hw)
  | cons hc _ ih => exact ih (hc.wrapped hw)

theorem Path.not_wrapped {s t : Store} {es : List Effect} (h : Path s es t)
    (hw : t.wrapped = false) : s.wrapped = false :=
  Bool.eq_false_iff.mpr fun hs => Bool.eq_false_iff.mp hw (h.wrapped hs)

theorem Path.shape {s t : Store} {es : List Effect} (h : Path s es t) (hs : Shape s) :
    Shape t := by
  induction h with
  | nil => exact hs
  | quiet hc _ ih => exact ih (hc.shape hs)
  | cons hc _ ih => exact ih (hc.shape hs)

/-- What the changes do to the tracks in use, one after the other. -/
theorem Path.trackKeys {s t : Store} {es : List Effect} (h : Path s es t) (hs : Shape s) :
    trackKeys t = es.foldl (fun ks e => e.onTracks ks) (trackKeys s) := by
  induction h with
  | nil => rfl
  | quiet hc _ ih => rw [ih (hc.shape hs), hc.trackKeys hs, Effect.onTracks]
  | cons hc _ ih => rw [ih (hc.shape hs), hc.trackKeys hs, List.foldl_cons]

/-- **Every path keeps the sequence counter ahead**, until it wraps. -/
theorem Path.timed {s t : Store} {es : List Effect} (h : Path s es t) (hs : Shape s)
    (ht : Timed s) (hw : t.wrapped = false) : Timed t := by
  induction h with
  | nil => exact ht
  | quiet hc hrest ih => exact ih (hc.shape hs) (hc.timed hs ht (hrest.not_wrapped hw)) hw
  | cons hc hrest ih => exact ih (hc.shape hs) (hc.timed hs ht (hrest.not_wrapped hw)) hw

end Jukeboy.PlayHistory.Effects
