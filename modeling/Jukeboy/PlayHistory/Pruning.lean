import Jukeboy.PlayHistory.Refinement
import Jukeboy.PlayHistory.SyncRecords

/-! # Making room for the inserted cartridge

Which albums a sync evicts when the cache is full, and when it finds them. The
search for the oldest album starts from the greatest sequence number and takes
only what is below it, so an album first seen under that number is never found. -/
namespace Jukeboy.PlayHistory.Pruning

open Jukeboy.Base Jukeboy.Base.SlotTable Jukeboy.Formats.Jbm Jukeboy.PlayHistory.Cache
  Jukeboy.PlayHistory.Effects Jukeboy.PlayHistory.Operations Jukeboy.PlayHistory.Persistence
  Jukeboy.PlayHistory.Invariant Jukeboy.PlayHistory.Refinement Jukeboy.PlayHistory.SyncRecords

/-! ## Taking albums out -/

/-- The albums in use other than the one to keep. -/
def others (keep : UInt32) (s : Store) : List Album :=
  (records s.albums).filter fun a => decide (a.checksum ≠ keep)

/-- The store without some albums and their tracks. -/
def withoutAlbums (gone : List UInt32) (s : Store) : Store :=
  let albums := erase s.albums fun a => decide (a.checksum ∈ gone)
  let tracks := erase s.tracks fun t => decide (t.cartridgeChecksum ∈ gone)
  { s with albums, tracks, albumCount := inUse albums, trackCount := inUse tracks }

theorem mem_others {keep : UInt32} {s : Store} {a : Album} :
    a ∈ others keep s ↔ Holds s.albums a ∧ a.checksum ≠ keep := by
  rw [others, List.mem_filter, mem_records, decide_eq_true_eq]

theorem others_nodup {s : Store} (hs : Shape s) (keep : UInt32) :
    ((others keep s).map Album.checksum).Nodup :=
  hs.albums.records_nodup.sublist (List.filter_sublist.map _)

theorem erase_nothing {n : Nat} {α : Type} (t : Table n α) {p : α → Bool}
    (h : ∀ a, p a = false) : erase t p = t := by
  funext i
  rw [erase]
  cases t i with
  | none => rfl
  | some a => simp [Option.filter, h a]

theorem erase_erase {n : Nat} {α : Type} (t : Table n α) (p q : α → Bool) :
    erase (erase t p) q = erase t fun a => p a || q a := by
  funext i
  rw [erase, erase, erase]
  cases t i with
  | none => rfl
  | some a => cases hp : p a <;> simp [Option.filter, hp]

theorem withoutAlbums_nil {s : Store} (hs : Shape s) : withoutAlbums [] s = s := by
  have halbums : (erase s.albums fun a => decide (a.checksum ∈ ([] : List UInt32))) = s.albums :=
    erase_nothing _ fun _ => decide_eq_false List.not_mem_nil
  have htracks : (erase s.tracks fun t => decide (t.cartridgeChecksum ∈ ([] : List UInt32))) =
      s.tracks := erase_nothing _ fun _ => decide_eq_false List.not_mem_nil
  simp only [withoutAlbums, halbums, htracks, ← hs.albumCount, ← hs.trackCount]

theorem withoutAlbums_cons (c : UInt32) (gone : List UInt32) (s : Store) :
    withoutAlbums (c :: gone) s = withoutAlbums gone (withoutAlbum c s) := by
  have hmem : ∀ d : UInt32, decide (d ∈ c :: gone) = (d == c || decide (d ∈ gone)) := by
    intro d
    rw [Bool.eq_iff_iff]
    simp
  simp only [withoutAlbums, withoutAlbum, erase_erase, hmem]

theorem Shape.withoutAlbums {s : Store} (hs : Shape s) (gone : List UInt32) :
    Shape (withoutAlbums gone s) := by
  induction gone generalizing s with
  | nil =>
    rw [withoutAlbums_nil hs]
    exact hs
  | cons c gone ih =>
    rw [withoutAlbums_cons]
    exact ih (hs.remove c)

theorem albumAt_withoutAlbums {s : Store} (hs : Shape s) (gone : List UInt32) (c : UInt32) :
    albumAt (withoutAlbums gone s) c = if c ∈ gone then none else albumAt s c := by
  refine (hs.albums.lookup_erase _ c).trans ?_
  rw [← albumAt]
  cases hc : albumAt s c with
  | none => exact (ite_self _).symm
  | some a =>
    obtain ⟨-, rfl⟩ := hs.albums.lookup_eq_some.mp hc
    by_cases hgone : a.checksum ∈ gone <;> simp [Option.filter, hgone]

theorem trackAt_withoutAlbums {s : Store} (hs : Shape s) (gone : List UInt32) (k : TrackKey) :
    trackAt (withoutAlbums gone s) k = if k.1 ∈ gone then none else trackAt s k := by
  refine (hs.tracks.lookup_erase _ k).trans ?_
  rw [← trackAt]
  cases hk : trackAt s k with
  | none => exact (ite_self _).symm
  | some t =>
    obtain ⟨-, rfl⟩ := hs.tracks.lookup_eq_some.mp hk
    by_cases hgone : t.cartridgeChecksum ∈ gone <;> simp [Option.filter, Track.key, hgone]

/-- What takes out every album that another list takes out leaves room where that does. -/
theorem over_withoutAlbums {s : Store} {da dt : Nat} {gone more : List UInt32}
    (hs : Shape s) (h : ∀ a, Holds s.albums a → a.checksum ∈ gone → a.checksum ∈ more)
    (hover : Over da dt (withoutAlbums more s)) : Over da dt (withoutAlbums gone s) := by
  have halbums : (withoutAlbums more s).albumCount ≤ (withoutAlbums gone s).albumCount := by
    simp only [withoutAlbums]
    exact inUse_erase_le fun a ha hmem => decide_eq_true (h a ha (of_decide_eq_true hmem))
  have hhome : ∀ t, Holds s.tracks t → t.cartridgeChecksum ∈ gone → t.cartridgeChecksum ∈ more := by
    intro t ht
    obtain ⟨a, ha, hat⟩ := hs.home t ht
    exact hat ▸ h a ha
  have htracks : (withoutAlbums more s).trackCount ≤ (withoutAlbums gone s).trackCount := by
    simp only [withoutAlbums]
    exact inUse_erase_le fun t ht hmem => decide_eq_true (hhome t ht (of_decide_eq_true hmem))
  rcases hover with hover | hover
  · exact .inl (Nat.lt_of_lt_of_le hover (Nat.add_le_add_right halbums da))
  · exact .inr (Nat.lt_of_lt_of_le hover (Nat.add_le_add_right htracks dt))

theorem Pruned.eq_withoutAlbums {keep : UInt32} {da dt : Nat} {s t : Store} {cs : List UInt32}
    (h : Pruned keep da dt s cs t) (hs : Shape s) : t = withoutAlbums cs s := by
  induction h with
  | room => exact (withoutAlbums_nil hs).symm
  | prune _ _ _ _ _ ih => rw [ih (hs.remove _), withoutAlbums_cons]

theorem Pruned.keep_notMem {keep : UInt32} {da dt : Nat} {s t : Store} {cs : List UInt32}
    (h : Pruned keep da dt s cs t) : keep ∉ cs := by
  induction h with
  | room => exact List.not_mem_nil
  | prune _ _ hne _ _ ih =>
    intro hmem
    rcases List.mem_cons.mp hmem with heq | hmem
    · exact hne heq.symm
    · exact ih hmem

/-! ## Oldest first and no more than needed -/

theorem others_perm {s : Store} (hs : Shape s) {keep : UInt32} {a : Album}
    (ha : Holds s.albums a) (hne : a.checksum ≠ keep) :
    (others keep s).Perm (a :: others keep (withoutAlbum a.checksum s)) := by
  have hrest : a ∉ others keep (withoutAlbum a.checksum s) := by
    intro hmem
    have hgone := (holds_erase.mp (mem_others.mp hmem).1).2
    rw [beq_self_eq_true] at hgone
    cases hgone
  refine (List.perm_ext_iff_of_nodup (others_nodup hs keep).of_map
    (List.nodup_cons.mpr ⟨hrest, (others_nodup (hs.remove _) keep).of_map⟩)).mpr fun b => ?_
  rw [List.mem_cons, mem_others, mem_others, withoutAlbum, holds_erase, beq_eq_false_iff_ne]
  constructor
  · rintro ⟨hb, hbne⟩
    by_cases hab : b.checksum = a.checksum
    · exact .inl (hs.albums.eq_of_holds hb ha hab)
    · exact .inr ⟨⟨hb, hab⟩, hbne⟩
  · rintro (rfl | ⟨⟨hb, -⟩, hbne⟩)
    · exact ⟨ha, hne⟩
    · exact ⟨hb, hbne⟩

def seenBefore (a b : Album) : Prop := a.firstSeenSequence.toNat ≤ b.firstSeenSequence.toNat

instance : DecidableRel seenBefore := fun a b =>
  inferInstanceAs (Decidable (a.firstSeenSequence.toNat ≤ b.firstSeenSequence.toNat))

/-- Pruning takes the albums in an order in which they were first seen, and
there is no room before the last one is out. -/
theorem Pruned.oldest_first {keep : UInt32} {da dt : Nat} {s t : Store} {cs : List UInt32}
    (h : Pruned keep da dt s cs t) (hs : Shape s) :
    ∃ evicted kept : List Album, evicted.map Album.checksum = cs ∧
      (evicted ++ kept).Perm (others keep s) ∧ (evicted ++ kept).Pairwise seenBefore ∧
      ∀ n, n < evicted.length → Over da dt (withoutAlbums (cs.take n) s) := by
  induction h with
  | @room s _ =>
    have hperm := List.mergeSort_perm (others keep s) fun a b => decide (seenBefore a b)
    refine ⟨[], _, rfl, hperm, ?_, fun n hn => absurd hn (Nat.not_lt_zero n)⟩
    refine (List.pairwise_mergeSort ?_ ?_ _).imp of_decide_eq_true
    · intro a b c hab hbc
      exact decide_eq_true ((of_decide_eq_true hab : seenBefore a b).trans (of_decide_eq_true hbc))
    · intro a b
      rw [Bool.or_eq_true, decide_eq_true_eq, decide_eq_true_eq]
      exact Nat.le_total _ _
  | @prune s t cs i a hover hi hne hold _ ih =>
    obtain ⟨evicted, kept, hchecksums, hperm, hsorted, hneeded⟩ := ih (hs.remove _)
    have hall := (others_perm hs ⟨i, hi⟩ hne).trans (hperm.symm.cons a)
    refine ⟨a :: evicted, kept, by rw [List.map_cons, hchecksums], hall.symm, ?_, ?_⟩
    · refine List.pairwise_cons.mpr ⟨fun b hb => ?_, hsorted⟩
      obtain ⟨hheld, hbne⟩ := mem_others.mp (hall.mem_iff.mpr (List.mem_cons_of_mem a hb))
      exact hold b hheld hbne
    · intro n hn
      cases n with
      | zero =>
        rw [List.take_zero, withoutAlbums_nil hs]
        exact hover
      | succ n =>
        rw [List.take_succ_cons, withoutAlbums_cons]
        exact hneeded n (Nat.lt_of_succ_lt_succ hn)

/-! ## What the loop finds -/

/-- The search for the oldest album can find the album. -/
def Findable (a : Album) : Prop := a.firstSeenSequence ≠ 0xFFFFFFFF

instance : DecidablePred Findable := fun a =>
  inferInstanceAs (Decidable (a.firstSeenSequence ≠ 0xFFFFFFFF))

theorem findable_iff {a : Album} : Findable a ↔ a.firstSeenSequence.toNat < 0xFFFFFFFF := by
  have hlt := a.firstSeenSequence.toNat_lt
  rw [Findable, ne_eq, ← UInt32.toNat_inj, show (0xFFFFFFFF : UInt32).toNat = 0xFFFFFFFF from rfl]
  omega

theorem findOldest_pred (keep : UInt32) (a : Album) :
    (!(true && a.checksum == keep)) = true ↔ a.checksum ≠ keep := by
  simp

theorem findOldestAlbumSlot_found {s : Store} {keep : UInt32} {i : Fin maxAlbums}
    (h : findOldestAlbumSlot s keep true = some i) :
    ∃ a, s.albums i = some a ∧ a.checksum ≠ keep ∧ Findable a ∧
      ∀ b, Holds s.albums b → b.checksum ≠ keep →
        a.firstSeenSequence.toNat ≤ b.firstSeenSequence.toNat := by
  obtain ⟨a, hi, hp, hleast⟩ := least_some h
  obtain ⟨b, hb, hlt⟩ := least_lt h
  obtain rfl := Option.some.inj (hi.symm.trans hb)
  exact ⟨a, hi, (findOldest_pred keep a).mp hp, findable_iff.mpr hlt,
    fun b hb hne => hleast b hb ((findOldest_pred keep b).mpr hne)⟩

theorem findOldestAlbumSlot_none {s : Store} {keep : UInt32}
    (h : findOldestAlbumSlot s keep true = none) {a : Album} (ha : Holds s.albums a)
    (hne : a.checksum ≠ keep) : ¬ Findable a := by
  intro hfind
  obtain ⟨i, hi⟩ := @least_isSome _ _ s.albums (fun b => !(true && b.checksum == keep))
    (fun b => b.firstSeenSequence.toNat) _ a ha ((findOldest_pred keep a).mpr hne)
    (findable_iff.mp hfind)
  cases h.symm.trans hi

/-- The second search, which would take the album to keep as well. -/
theorem findOldestAlbumSlot_any_none {s : Store} (h : ∀ a, Holds s.albums a → ¬ Findable a) :
    findOldestAlbumSlot s 0 false = none := by
  cases hfind : findOldestAlbumSlot s 0 false with
  | none => rfl
  | some i =>
    obtain ⟨a, hi, hlt⟩ := least_lt hfind
    exact absurd (findable_iff.mpr hlt) (h a ⟨i, hi⟩)

/-- **Making room for an album that is not there.** The loop takes out albums it
can find, and gives up when there is none left. -/
theorem ensureCapacityLoop_absent {keep : UInt32} {da dt : Nat} (turns : Nat) {s : Store}
    (hs : Shape s) (habsent : albumAt s keep = none) (hturns : inUse s.albums < turns) :
    ∃ cs t err, ensureCapacityLoop keep true da dt turns s = (t, err) ∧
      (∀ c ∈ cs, ∃ a, Holds s.albums a ∧ a.checksum = c ∧ Findable a) ∧
      (err = .ok ∧ Pruned keep da dt s cs t ∨
        err = .noMem ∧ t = withoutAlbums cs s ∧ Over da dt t ∧
          ∀ a, Holds t.albums a → ¬ Findable a) := by
  induction turns generalizing s with
  | zero => exact absurd hturns (Nat.not_lt_zero _)
  | succ turns ih =>
    by_cases hover : Over da dt s
    · have hcond := hover
      unfold Over at hcond
      cases hfind : findOldestAlbumSlot s keep true with
      | none =>
        have hhidden : ∀ a, Holds s.albums a → ¬ Findable a := fun a ha =>
          findOldestAlbumSlot_none hfind ha (lookup_eq_none.mp habsent a ha)
        refine ⟨[], s, .noMem, ?_, fun c hc => absurd hc List.not_mem_nil,
          .inr ⟨rfl, (withoutAlbums_nil hs).symm, hover, hhidden⟩⟩
        simp only [ensureCapacityLoop, if_pos hcond, hfind, if_true,
          findOldestAlbumSlot_any_none hhidden]
      | some i =>
        obtain ⟨a, hi, hne, hfindable, hold⟩ := findOldestAlbumSlot_found hfind
        have hless := inUse_withoutAlbum hs hi
        have hgone : albumAt (withoutAlbum a.checksum s) keep = none :=
          lookup_eq_none.mpr fun b hb => lookup_eq_none.mp habsent b (holds_erase.mp hb).1
        obtain ⟨cs, t, err, hloop, hfound, hcases⟩ := ih (hs.remove a.checksum) hgone (by omega)
        refine ⟨a.checksum :: cs, t, err, ?_, ?_, ?_⟩
        · simp only [ensureCapacityLoop, if_pos hcond, hfind, removeAlbum_eq hs hi, hloop]
        · intro c hc
          rcases List.mem_cons.mp hc with rfl | hc
          · exact ⟨a, ⟨i, hi⟩, rfl, hfindable⟩
          · obtain ⟨b, hb, hbc, hbfind⟩ := hfound c hc
            exact ⟨b, (holds_erase.mp hb).1, hbc, hbfind⟩
        · rcases hcases with ⟨herr, hpruned⟩ | ⟨herr, ht, hrest⟩
          · exact .inl ⟨herr, .prune hover hi hne hold hpruned⟩
          · exact .inr ⟨herr, ht.trans (withoutAlbums_cons ..).symm, hrest⟩
    · refine ⟨[], s, .ok, ?_, fun c hc => absurd hc List.not_mem_nil, .inl ⟨rfl, .room hover⟩⟩
      unfold Over at hover
      rw [ensureCapacityLoop, if_neg hover]

/-! ## Caches reached with the cartridges of a library -/

/-- Equal checksums mean equal metadata. -/
def OfLibrary (lib : UInt32 → Metadata) (cart : Cartridge) : Prop :=
  ∀ metadata, cart.metadata = some metadata → lib metadata.header.checksum = metadata

/-- The caches reached from an empty one, with any events, any cartridges of the
library inserted, and any restarts from the file. -/
inductive Reached (lib : UInt32 → Metadata) : Store → Prop where
  | reset (s : Store) : Reached lib (resetCache s)
  | event {s : Store} {cart : Cartridge} (h : Reached lib s) (hcart : OfLibrary lib cart)
      (event : Event) : Reached lib (processEvent cart event s).1
  | load {s : Store} {blob : List UInt8} (h : Reached lib s)
      (hbuild : buildSerializedBlob s = .ok blob) (u : Store) :
      Reached lib (loadFromSerializedBytes blob u).1

/-- Every album in use has all its tracks. -/
def Full (lib : UInt32 → Metadata) (s : Store) : Prop :=
  ∀ c, albumAt s c ≠ none → ∀ i, i < (lib c).header.trackCount.toNat →
    trackAt s (c, UInt32.ofNat i) ≠ none

structure Sound (lib : UInt32 → Metadata) (s : Store) : Prop where
  shape : Shape s
  next : s.nextSequence ≠ 0
  full : Full lib s

theorem nextSequence_next_ne_zero (s : Store) : (nextSequence s).2.nextSequence ≠ 0 := by
  have hone : (1 : UInt32) ≠ 0 := by decide
  unfold nextSequence
  dsimp only
  split <;> split
  all_goals first | exact hone | assumption

theorem Change.next_ne_zero {s t : Store} {e : Effect} (h : Change s e t)
    (hs : s.nextSequence ≠ 0) : t.nextSequence ≠ 0 := by
  cases h with
  | draw => exact nextSequence_next_ne_zero s
  | addAlbum => exact nextSequence_next_ne_zero s
  | addTrack => exact nextSequence_next_ne_zero s
  | countPlay => exact nextSequence_next_ne_zero s
  | forget =>
    change (1 : UInt32) ≠ 0
    decide
  | _ => exact hs

theorem Path.next_ne_zero {s t : Store} {es : List Effect} (h : Path s es t)
    (hs : s.nextSequence ≠ 0) : t.nextSequence ≠ 0 := by
  induction h with
  | nil => exact hs
  | quiet hc _ ih => exact ih (Change.next_ne_zero hc hs)
  | cons hc _ ih => exact ih (Change.next_ne_zero hc hs)

theorem Sound.empty (lib : UInt32 → Metadata) (s : Store) : Sound lib (resetCache s) where
  shape := .forget s
  next := by
    change (1 : UInt32) ≠ 0
    decide
  full c hc := absurd (lookup_empty Album.checksum c) hc

theorem Sound.withoutAlbums {lib : UInt32 → Metadata} {s : Store} (h : Sound lib s)
    (gone : List UInt32) : Sound lib (withoutAlbums gone s) where
  shape := Shape.withoutAlbums h.shape gone
  next := h.next
  full c hc i hi := by
    rw [albumAt_withoutAlbums h.shape] at hc
    rw [trackAt_withoutAlbums h.shape]
    by_cases hgone : c ∈ gone
    · exact absurd (if_pos hgone) hc
    · rw [if_neg hgone] at hc ⊢
      exact h.full c hc i hi

/-! ## A sync with a cartridge of the library -/

def newAlbums (c : UInt32) (s : Store) : Nat := if albumAt s c = none then 1 else 0

theorem not_over_zero {s : Store} (hs : Shape s) : ¬ Over 0 0 s := by
  have halbums := hs.albumCount ▸ inUse_le s.albums
  have htracks := hs.trackCount ▸ inUse_le s.tracks
  rintro (h | h)
  · exact absurd halbums (Nat.not_le.mpr h)
  · exact absurd htracks (Nat.not_le.mpr h)

theorem getMetadataTrackCount_eq {cart : Cartridge} {m : Metadata} (hm : cart.metadata = some m) :
    cart.getMetadataTrackCount = m.header.trackCount.toNat := by
  rw [Cartridge.getMetadataTrackCount, hm]

/-- A full album lacks no track. -/
theorem Full.missing_eq_nil {lib : UInt32 → Metadata} {s : Store} (h : Full lib s)
    {cart : Cartridge} {m : Metadata} (hcart : OfLibrary lib cart) (hm : cart.metadata = some m)
    (hc : albumAt s m.header.checksum ≠ none) :
    missingTracks cart m.header.checksum s = [] := by
  refine List.filter_eq_nil_iff.mpr fun i hi => ?_
  rw [List.mem_range, getMetadataTrackCount_eq hm, ← hcart m hm] at hi
  have htrack := h _ hc i hi
  rw [decide_eq_true_eq, not_not, mem_trackKeys]
  exact Option.ne_none_iff_isSome.mp htrack

/-- **What a sync comes to**: room is made with albums the search finds and the
records are written, or no album is left to find. -/
theorem sync_cases {lib : UInt32 → Metadata} {s : Store} (hs : Sound lib s) {cart : Cartridge}
    {m : Metadata} (hcart : OfLibrary lib cart) (hmounted : cart.isMounted = true)
    (hm : cart.metadata = some m) :
    ∃ cs, (∀ c ∈ cs, ∃ a, Holds s.albums a ∧ a.checksum = c ∧ Findable a) ∧
      ((∃ made t sequence opened drawn, syncCurrentCartridge cart s = (t, .ok) ∧
          Path s (syncEffects cart m.header.checksum cs s) t ∧
          Pruned m.header.checksum (newAlbums m.header.checksum s)
            (missingTracks cart m.header.checksum s).length s cs made ∧
          Synced cart m.header.checksum sequence made opened drawn t) ∨
        syncCurrentCartridge cart s = (withoutAlbums cs s, .noMem) ∧
          Over (newAlbums m.header.checksum s)
            (missingTracks cart m.header.checksum s).length (withoutAlbums cs s) ∧
          (∀ a, Holds (withoutAlbums cs s).albums a → ¬ Findable a)) := by
  have hmeta : cart.getMetadataHeader = some m.header := by
    rw [Cartridge.getMetadataHeader, hm]
    rfl
  have hdone : ∀ cs made, ensureCapacityLoop m.header.checksum true
        (newAlbums m.header.checksum s) (missingTracks cart m.header.checksum s).length
        (maxAlbums + 1) s = (made, .ok) →
      Pruned m.header.checksum (newAlbums m.header.checksum s)
        (missingTracks cart m.header.checksum s).length s cs made →
      ∃ made t sequence opened drawn, syncCurrentCartridge cart s = (t, .ok) ∧
        Path s (syncEffects cart m.header.checksum cs s) t ∧
        Pruned m.header.checksum (newAlbums m.header.checksum s)
          (missingTracks cart m.header.checksum s).length s cs made ∧
        Synced cart m.header.checksum sequence made opened drawn t := by
    intro cs made hloop hpruned
    obtain ⟨t, hsync, hpath⟩ := syncCurrentCartridge_of_room hmounted hmeta hs.shape hloop hpruned
    obtain ⟨sequence, opened, drawn, hsynced⟩ :=
      Pruned.synced hmounted hmeta hs.shape hloop hpruned hsync
    exact ⟨made, t, sequence, opened, drawn, hsync, hpath, hpruned, hsynced⟩
  by_cases hc : albumAt s m.header.checksum = none
  · obtain ⟨cs, made, err, hloop, hfound, ⟨rfl, hpruned⟩ | ⟨rfl, rfl, hover, hhidden⟩⟩ :=
      @ensureCapacityLoop_absent m.header.checksum _ _ (maxAlbums + 1) s hs.shape hc
        (Nat.lt_succ_of_le (inUse_le s.albums))
    · exact ⟨cs, hfound, .inl (hdone cs made hloop hpruned)⟩
    · refine ⟨cs, hfound, .inr ⟨?_, hover, hhidden⟩⟩
      have hdelta : (if (findAlbumSlot s m.header.checksum).isNone then 1 else 0) =
          newAlbums m.header.checksum s := by
        simp only [Option.isNone_iff_eq_none, findAlbumSlot_eq_none, newAlbums]
      simp only [syncCurrentCartridge, hmounted, hmeta, hdelta, countMissing_eq, ensureCapacity,
        hloop, Bool.true_eq_false, if_false]
  · have hroom : ¬ Over (newAlbums m.header.checksum s)
        (missingTracks cart m.header.checksum s).length s := by
      rw [newAlbums, if_neg hc, hs.full.missing_eq_nil hcart hm hc]
      exact not_over_zero hs.shape
    refine ⟨[], fun c hc => absurd hc List.not_mem_nil, .inl (hdone [] s ?_ (.room hroom))⟩
    unfold Over at hroom
    rw [ensureCapacityLoop, if_neg hroom]

theorem Synced.full {lib : UInt32 → Metadata} {cart : Cartridge} {m : Metadata}
    {sequence : UInt32} {s opened drawn t : Store}
    (h : Synced cart m.header.checksum sequence s opened drawn t) (hs : Full lib s)
    (hcart : OfLibrary lib cart) (hm : cart.metadata = some m) : Full lib t := by
  intro c hc i hi
  by_cases hcm : c = m.header.checksum
  · subst hcm
    rw [hcart m hm, ← getMetadataTrackCount_eq hm] at hi
    obtain ⟨r, hr, -⟩ := h.tracks _ (mem_cartridgeKeys.mpr ⟨i, hi, rfl⟩)
    rw [hr]
    exact Option.some_ne_none r
  · rw [h.otherAlbums c hcm] at hc
    rw [h.otherTracks _ fun hmem => ?_]
    · exact hs c hc i hi
    · obtain ⟨j, -, heq⟩ := mem_cartridgeKeys.mp hmem
      exact hcm (Prod.mk.inj heq).1

theorem sync_sound {lib : UInt32 → Metadata} {s : Store} (hs : Sound lib s) {cart : Cartridge}
    (hcart : OfLibrary lib cart) : Sound lib (syncCurrentCartridge cart s).1 := by
  cases hread : readable cart with
  | none =>
    obtain ⟨err, hsync, -⟩ := syncCurrentCartridge_unreadable hread s
    rw [hsync]
    exact hs
  | some header =>
    obtain ⟨hmounted, hmeta⟩ := readable_some hread
    obtain ⟨m, hm, -⟩ := Option.map_eq_some_iff.mp hmeta
    obtain ⟨cs, -, ⟨made, t, sequence, opened, drawn, hsync, hpath, hpruned, hsynced⟩ |
      ⟨hsync, -⟩⟩ := sync_cases hs hcart hmounted hm
    · have hmade : Sound lib made := Pruned.eq_withoutAlbums hpruned hs.shape ▸ hs.withoutAlbums cs
      rw [hsync]
      exact ⟨hpath.shape hs.shape, Path.next_ne_zero hpath hs.next,
        Synced.full hsynced hmade.full hcart hm⟩
    · rw [hsync]
      exact hs.withoutAlbums cs

theorem countPlay_sound {lib : UInt32 → Metadata} {s : Store} (hs : Sound lib s)
    {event : TrackEvent} {i : Fin maxTracks}
    (hfind : findTrackSlot s event.cartridgeChecksum event.trackIndex = some i) :
    Sound lib (countPlay i event s).1 := by
  obtain ⟨u, hi, hkey⟩ := findTrackSlot_some hfind
  have hpath := countPlay_spec hi event
  have hcounted := countPlay_counted hs.shape hi hkey
  refine ⟨hpath.shape hs.shape, Path.next_ne_zero hpath hs.next, fun c hc j hj => ?_⟩
  have hc' : albumAt s c ≠ none := fun hnone => hc (by rw [hcounted.otherAlbums c (.inr hnone), hnone])
  have htrack := hs.full c hc' j hj
  by_cases hk : (c, UInt32.ofNat j) = (event.cartridgeChecksum, event.trackIndex)
  · obtain ⟨-, r, -, hr, -⟩ := hcounted.track
    rw [hk, hr]
    exact Option.some_ne_none r
  · rw [hcounted.otherTracks _ hk]
    exact htrack

theorem applyCountablePlay_sound {lib : UInt32 → Metadata} {s : Store} (hs : Sound lib s)
    {cart : Cartridge} (hcart : OfLibrary lib cart) (event : TrackEvent) :
    Sound lib (applyCountablePlay cart event s).1 := by
  -- the store the slot is looked up in is sound, and the slot is the track's
  have hslot : ∀ t r, slotForPlay cart event s = (t, r) → Sound lib t ∧
      ∀ i, r = .ok (some i) → findTrackSlot t event.cartridgeChecksum event.trackIndex = some i := by
    intro t r h
    unfold slotForPlay at h
    cases hfind : findTrackSlot s event.cartridgeChecksum event.trackIndex with
    | some i =>
      rw [hfind] at h
      cases h
      exact ⟨hs, fun j hj => by cases hj; exact hfind⟩
    | none =>
      rw [hfind] at h
      dsimp only at h
      cases hmeta : cart.getMetadataHeader with
      | none =>
        rw [hmeta] at h
        cases h
        exact ⟨hs, fun i hi => by cases hi⟩
      | some header =>
        rw [hmeta] at h
        dsimp only at h
        split at h
        · have hsync := sync_sound hs hcart
          generalize syncCurrentCartridge cart s = result at h hsync
          obtain ⟨u, err⟩ := result
          split at h
          · next heq =>
            cases heq
            cases h
            exact ⟨hsync, fun i hi => by injection hi⟩
          · next heq =>
            cases heq
            cases h
            exact ⟨hsync, fun i hi => by cases hi⟩
        · cases h
          exact ⟨hs, fun i hi => by cases hi⟩
  unfold applyCountablePlay
  cases hr : slotForPlay cart event s with
  | mk t r =>
    obtain ⟨ht, hfound⟩ := hslot t r hr
    match r, hfound with
    | .error _, _ => exact ht
    | .ok none, _ => exact ht
    | .ok (some i), hfound => exact countPlay_sound ht (hfound i rfl)

theorem processEvent_sound {lib : UInt32 → Metadata} {s : Store} (hs : Sound lib s)
    {cart : Cartridge} (hcart : OfLibrary lib cart) (event : Event) :
    Sound lib (processEvent cart event s).1 := by
  cases event with
  | syncCurrentCartridge => exact sync_sound hs hcart
  | countablePlay track =>
    rw [processEvent_countablePlay]
    exact applyCountablePlay_sound hs hcart track
  | clear => exact Sound.empty lib { s with dirty := true }
  | rebuild => exact sync_sound (Sound.empty lib { s with dirty := true }) hcart

theorem Sound.compacted {lib : UInt32 → Metadata} {s : Store} (h : Sound lib s) (u : Store) :
    Sound lib { compacted s with dirty := u.dirty, wrapped := u.wrapped } where
  shape := by
    have hshape := Shape.compacted h.shape
    exact ⟨hshape.albumCount, hshape.trackCount, hshape.albums, hshape.tracks, hshape.home,
      hshape.index⟩
  next := h.next
  full c hc i hi := by
    have halbum : albumAt s c ≠ none := by
      rwa [albumAt, ← lookup_ofList_records h.shape.albums]
    have htrack := h.full c halbum i hi
    rw [trackAt, ← lookup_ofList_records h.shape.tracks] at htrack
    exact htrack

theorem Reached.sound {lib : UInt32 → Metadata} {s : Store} (h : Reached lib s) : Sound lib s := by
  induction h with
  | reset s => exact .empty lib s
  | event _ hcart event ih => exact processEvent_sound ih hcart event
  | load _ hbuild u ih =>
    rw [load_buildSerializedBlob ih.shape.albumCount ih.shape.trackCount ih.next hbuild u]
    exact ih.compacted u

/-! ## What is in use after a sync -/

theorem Synced.albumCount {cart : Cartridge} {c sequence : UInt32} {s opened drawn t : Store}
    (h : Synced cart c sequence s opened drawn t) (hs : Shape s) (ht : Shape t) :
    t.albumCount = s.albumCount + newAlbums c s := by
  have hkeys : keys Album.checksum t.albums = insert c (keys Album.checksum s.albums) := by
    ext d
    rw [Finset.mem_insert, mem_keys, mem_keys, ← albumAt, ← albumAt]
    by_cases hd : d = c
    · obtain ⟨a, ha, -⟩ := h.album
      simp [hd, ha]
    · simp [hd, h.otherAlbums d hd]
  rw [ht.albumCount, hs.albumCount, ← ht.albums.card_keys, ← hs.albums.card_keys, hkeys, newAlbums]
  split
  · next hnone =>
    refine Finset.card_insert_of_notMem fun hmem => ?_
    rw [mem_keys, ← albumAt, hnone] at hmem
    cases hmem
  · next hsome =>
    rw [Finset.insert_eq_of_mem (mem_keys.mpr (Option.ne_none_iff_isSome.mp hsome)), Nat.add_zero]

theorem Synced.trackCount {cart : Cartridge} {c sequence : UInt32} {s opened drawn t : Store}
    (h : Synced cart c sequence s opened drawn t) (hs : Shape s) (ht : Shape t) :
    t.trackCount = s.trackCount + (missingTracks cart c s).length := by
  have hmem : ∀ k, k ∈ trackKeysOf c (missingTracks cart c s) ↔
      k ∈ cartridgeKeys cart c ∧ k ∉ trackKeys s := by
    intro k
    rw [mem_cartridgeKeys, trackKeysOf, missingTracks, missingIn]
    simp only [List.mem_map, List.mem_filter, List.mem_range, decide_eq_true_eq]
    constructor
    · rintro ⟨i, ⟨hi, hnot⟩, rfl⟩
      exact ⟨⟨i, hi, rfl⟩, hnot⟩
    · rintro ⟨⟨i, hi, rfl⟩, hnot⟩
      exact ⟨i, ⟨hi, hnot⟩, rfl⟩
  have hkeys : trackKeys t = trackKeys s ∪ (trackKeysOf c (missingTracks cart c s)).toFinset := by
    ext k
    rw [Finset.mem_union, List.mem_toFinset, hmem, mem_trackKeys, mem_trackKeys]
    by_cases hk : k ∈ cartridgeKeys cart c
    · obtain ⟨r, hr, -⟩ := h.tracks k hk
      simp only [hr, hk, true_and, Option.isSome_some, true_iff]
      exact em _
    · rw [h.otherTracks k hk]
      simp only [hk, false_and, or_false]
  have hnodup : (trackKeysOf c (missingTracks cart c s)).Nodup :=
    (nodup_cartridgeKeys cart c).sublist (List.filter_sublist.map _)
  have hdisjoint : Disjoint (trackKeys s) (trackKeysOf c (missingTracks cart c s)).toFinset :=
    Finset.disjoint_right.mpr fun k hk => ((hmem k).mp (List.mem_toFinset.mp hk)).2
  have hlength : (trackKeysOf c (missingTracks cart c s)).length =
      (missingTracks cart c s).length := List.length_map _
  rw [ht.trackCount, hs.trackCount, ← ht.tracks.card_keys, ← hs.tracks.card_keys, ← trackKeys,
    hkeys, Finset.card_union_of_disjoint hdisjoint, List.toFinset_card_of_nodup hnodup, hlength]
  rfl

/-! ## Minimal pruning -/

/-- With these albums out, the cartridge's album and the tracks it lacks are within the caps. -/
def Fits (cart : Cartridge) (c : UInt32) (s : Store) (gone : List UInt32) : Prop :=
  (withoutAlbums gone s).albumCount + newAlbums c s ≤ maxAlbums ∧
    (withoutAlbums gone s).trackCount + (missingTracks cart c s).length ≤ maxTracks

theorem fits_iff {cart : Cartridge} {c : UInt32} {s : Store} {gone : List UInt32} :
    Fits cart c s gone ↔
      ¬ Over (newAlbums c s) (missingTracks cart c s).length (withoutAlbums gone s) := by
  rw [Fits, Over, not_or, Nat.not_lt, Nat.not_lt]

/-- A sync left `t` of the store, with `evicted` out and `kept` not, in the order
in which they were first seen. -/
structure Evicts (cart : Cartridge) (c : UInt32) (s t : Store) (evicted kept : List Album) :
    Prop where
  others : (evicted ++ kept).Perm (others c s)
  oldest : (evicted ++ kept).Pairwise seenBefore
  room : Fits cart c s (evicted.map Album.checksum)
  needed : ∀ n, n < evicted.length → ¬ Fits cart c s ((evicted.take n).map Album.checksum)
  albumCount : t.albumCount =
    (withoutAlbums (evicted.map Album.checksum) s).albumCount + newAlbums c s
  trackCount : t.trackCount =
    (withoutAlbums (evicted.map Album.checksum) s).trackCount + (missingTracks cart c s).length
  albums : ∀ d, d ≠ c → albumAt t d = if d ∈ evicted.map Album.checksum then none else albumAt s d
  tracks : ∀ k, k.1 ≠ c →
    trackAt t k = if k.1 ∈ evicted.map Album.checksum then none else trackAt s k

/-- The sync succeeds, keeps the cartridge's album and the plays of its tracks,
and evicts the fewest albums, oldest first. -/
structure PrunesMinimally (cart : Cartridge) (c : UInt32) (s : Store) (result : Store × EspErr) :
    Prop where
  ok : result.2 = .ok
  album : ∀ a, albumAt s c = some a →
    ∃ b, albumAt result.1 c = some b ∧ b.firstSeenSequence = a.firstSeenSequence
  plays : ∀ k u, k.1 = c → trackAt s k = some u →
    ∃ v, trackAt result.1 k = some v ∧ v.playCount = u.playCount
  evicts : ∃ evicted kept, Evicts cart c s result.1 evicted kept

/-- With every other album out that the search can find, the cartridge fits. -/
def FindsRoom (cart : Cartridge) (c : UInt32) (s : Store) : Prop :=
  Fits cart c s (((others c s).filter fun a => decide (Findable a)).map Album.checksum)

theorem mem_findable {c d : UInt32} {s : Store} :
    d ∈ ((others c s).filter fun a => decide (Findable a)).map Album.checksum ↔
      ∃ a, Holds s.albums a ∧ a.checksum = d ∧ d ≠ c ∧ Findable a := by
  simp only [List.mem_map, List.mem_filter, mem_others, decide_eq_true_eq]
  constructor
  · rintro ⟨a, ⟨⟨ha, hne⟩, hfind⟩, rfl⟩
    exact ⟨a, ha, rfl, hne, hfind⟩
  · rintro ⟨a, ha, rfl, hne, hfind⟩
    exact ⟨a, ⟨⟨ha, hne⟩, hfind⟩, rfl⟩

/-- A sync that has room leaves what minimal pruning leaves. -/
theorem Pruned.prunesMinimally {cart : Cartridge} {c sequence : UInt32}
    {s made opened drawn t : Store} {cs : List UInt32} (hs : Shape s) (ht : Shape t)
    (hpruned : Pruned c (newAlbums c s) (missingTracks cart c s).length s cs made)
    (hsynced : Synced cart c sequence made opened drawn t) :
    PrunesMinimally cart c s (t, .ok) := by
  obtain ⟨evicted, kept, hcs, hothers, hsorted, hneeded⟩ := Pruned.oldest_first hpruned hs
  have hmade := Pruned.eq_withoutAlbums hpruned hs
  have hmissing := hpruned.missingTracks_eq hs cart
  have hnew : newAlbums c made = newAlbums c s := by
    rw [newAlbums, newAlbums]
    simp only [hpruned.albumAt_eq_none hs]
  have hshape : Shape made := hpruned.path.shape hs
  have halbumCount := Synced.albumCount hsynced hshape ht
  have htrackCount := Synced.trackCount hsynced hshape ht
  rw [hnew, hmade, ← hcs] at halbumCount
  rw [hmissing, hmade, ← hcs] at htrackCount
  have hc := Pruned.keep_notMem hpruned
  have halbumMade : albumAt made c = albumAt s c := by
    rw [hmade, albumAt_withoutAlbums hs, if_neg hc]
  have htrackMade : ∀ k : TrackKey, k.1 = c → trackAt made k = trackAt s k := by
    intro k hk
    rw [hmade, trackAt_withoutAlbums hs, if_neg (hk ▸ hc)]
  refine ⟨rfl, ?_, ?_, evicted, kept, hothers, hsorted, ?_, ?_, halbumCount, htrackCount, ?_, ?_⟩
  · intro a ha
    obtain ⟨b, hb, -, hfirst, -⟩ := hsynced.album
    exact ⟨b, hb, hfirst a (halbumMade.trans ha)⟩
  · intro k u hk hu
    by_cases hmem : k ∈ cartridgeKeys cart c
    · obtain ⟨r, hr, hrec⟩ := hsynced.tracks k hmem
      exact ⟨r, hr, (hrec.kept u ((htrackMade k hk).trans hu)).2⟩
    · exact ⟨u, (hsynced.otherTracks k hmem).trans ((htrackMade k hk).trans hu), rfl⟩
  · rw [hcs, fits_iff, ← hmade]
    exact hpruned.room_left
  · intro n hn
    rw [fits_iff, not_not, List.map_take, hcs]
    exact hneeded n hn
  · intro d hd
    rw [hsynced.otherAlbums d hd, hmade, albumAt_withoutAlbums hs, hcs]
  · intro k hk
    have hmem : k ∉ cartridgeKeys cart c := by
      intro hmem
      obtain ⟨i, -, rfl⟩ := mem_cartridgeKeys.mp hmem
      exact hk rfl
    rw [hsynced.otherTracks k hmem, hmade, trackAt_withoutAlbums hs, hcs]

/-- When the albums the search can find make too little room, the sync fails. -/
theorem sync_noMem {lib : UInt32 → Metadata} {s : Store} (hs : Sound lib s) {cart : Cartridge}
    {m : Metadata} (hcart : OfLibrary lib cart) (hmounted : cart.isMounted = true)
    (hm : cart.metadata = some m) (hroom : ¬ FindsRoom cart m.header.checksum s) :
    (syncCurrentCartridge cart s).2 = .noMem := by
  obtain ⟨cs, hfound, ⟨made, t, sequence, opened, drawn, hsync, hpath, hpruned, hsynced⟩ |
    ⟨hsync, -⟩⟩ := sync_cases hs hcart hmounted hm
  · refine absurd (fits_iff.mpr fun hover => ?_) hroom
    refine hpruned.room_left (Pruned.eq_withoutAlbums hpruned hs.shape ▸ ?_)
    refine over_withoutAlbums hs.shape (fun a ha hmem => ?_) hover
    obtain ⟨b, hb, hbc, hfind⟩ := hfound _ hmem
    exact mem_findable.mpr ⟨b, hb, hbc, fun heq => Pruned.keep_notMem hpruned (heq ▸ hmem), hfind⟩
  · rw [hsync]

theorem sync_prunes {lib : UInt32 → Metadata} {s : Store} (hs : Sound lib s) {cart : Cartridge}
    {m : Metadata} (hcart : OfLibrary lib cart) (hmounted : cart.isMounted = true)
    (hm : cart.metadata = some m) (hroom : FindsRoom cart m.header.checksum s) :
    PrunesMinimally cart m.header.checksum s (syncCurrentCartridge cart s) := by
  obtain ⟨cs, -, ⟨made, t, sequence, opened, drawn, hsync, hpath, hpruned, hsynced⟩ |
    ⟨-, hover, hhidden⟩⟩ := sync_cases hs hcart hmounted hm
  · rw [hsync]
    exact Pruned.prunesMinimally hs.shape (hpath.shape hs.shape) hpruned hsynced
  · refine absurd (over_withoutAlbums hs.shape (fun a _ hmem => ?_) hover) (fits_iff.mp hroom)
    obtain ⟨b, hb, hbc, -, hfind⟩ := mem_findable.mp hmem
    by_contra hnot
    exact hhidden b (holds_erase.mpr ⟨hb, decide_eq_false (hbc ▸ hnot)⟩) hfind

/-! ## Three albums -/

/-- A header that gives a checksum below 256 and a track count. -/
def headerOf (checksum : UInt8) (trackCount : List UInt8) : JbmHeader :=
  .ofBytes ([1, 0, 0, 0, checksum, 0, 0, 0] ++ List.replicate 1640 0 ++ trackCount)

def twoTracks : Metadata where
  header := headerOf 8 [2]
  tracks := [.zero, .zero]
  trackCount_eq := by decide +kernel
  tracks_le := by decide

/-- An album of as many tracks as an album can have. -/
def manyTracks : Metadata where
  header := headerOf 9 [0xE7, 3]
  tracks := List.replicate maxTrackFiles .zero
  trackCount_eq := by
    rw [List.length_replicate]
    decide +kernel
  tracks_le := List.length_replicate.le

def threeAlbums (checksum : UInt32) : Metadata :=
  if checksum = 8 then twoTracks else if checksum = 9 then manyTracks else oneTrack

def cartridgeOf (m : Metadata) : Cartridge := ⟨true, some m⟩

theorem checksum_oneTrack : oneTrack.header.checksum = 7 := by decide +kernel

theorem checksum_twoTracks : twoTracks.header.checksum = 8 := by decide +kernel

theorem checksum_manyTracks : manyTracks.header.checksum = 9 := by decide +kernel

theorem ofLibrary_threeAlbums {m : Metadata} (h : m = oneTrack ∨ m = twoTracks ∨ m = manyTracks) :
    OfLibrary threeAlbums (cartridgeOf m) := by
  rintro m' heq
  obtain rfl := Option.some.inj heq
  rcases h with rfl | rfl | rfl
  · rw [checksum_oneTrack]
    rfl
  · rw [checksum_twoTracks]
    rfl
  · rw [checksum_manyTracks]
    rfl

/-- A sync brings no other album into use. -/
theorem sync_albumAt_none {lib : UInt32 → Metadata} {s : Store} (hs : Sound lib s) {m : Metadata}
    (hcart : OfLibrary lib (cartridgeOf m)) {c : UInt32} (hne : c ≠ m.header.checksum)
    (hc : albumAt s c = none) : albumAt (syncCurrentCartridge (cartridgeOf m) s).1 c = none := by
  obtain ⟨cs, -, ⟨made, t, sequence, opened, drawn, hsync, -, hpruned, hsynced⟩ | ⟨hsync, -⟩⟩ :=
    sync_cases hs hcart rfl rfl
  · rw [hsync, hsynced.otherAlbums c hne]
    exact hpruned.albumAt_none hc
  · rw [hsync, albumAt_withoutAlbums hs.shape, hc]
    exact ite_self _

theorem Reached.sync {lib : UInt32 → Metadata} {s : Store} {cart : Cartridge} (h : Reached lib s)
    (hcart : OfLibrary lib cart) : Reached lib (syncCurrentCartridge cart s).1 :=
  h.event hcart .syncCurrentCartridge

/-- An album that is not in use lacks all its tracks. -/
theorem missing_manyTracks {s : Store} (hs : Shape s) (hnone : albumAt s 9 = none) :
    (missingTracks (cartridgeOf manyTracks) 9 s).length = maxTrackFiles := by
  have hall : missingTracks (cartridgeOf manyTracks) 9 s =
      List.range (cartridgeOf manyTracks).getMetadataTrackCount := by
    refine List.filter_eq_self.mpr fun i _ => decide_eq_true fun hmem => ?_
    obtain ⟨u, hu⟩ := Option.isSome_iff_exists.mp (mem_trackKeys.mp hmem)
    obtain ⟨hheld, hkey⟩ := hs.tracks.lookup_eq_some.mp hu
    obtain ⟨b, hb, hbu⟩ := hs.home u hheld
    exact lookup_eq_none.mp hnone b hb (hbu.trans (Prod.mk.inj hkey).1)
  rw [hall, List.length_range, getMetadataTrackCount_eq rfl, manyTracks.trackCount_eq]
  exact List.length_replicate

/-! ## The fewest albums, oldest first -/

/-- **Minimal pruning.** A sync evicts the fewest albums, oldest first, exactly
when the albums that the search can find make enough room. -/
theorem sync_prunesMinimally_iff (lib : UInt32 → Metadata) {s : Store} (h : Reached lib s)
    {cart : Cartridge} {m : Metadata} (hcart : OfLibrary lib cart)
    (hmounted : cart.isMounted = true) (hm : cart.metadata = some m) :
    PrunesMinimally cart m.header.checksum s (syncCurrentCartridge cart s) ↔
      FindsRoom cart m.header.checksum s := by
  refine ⟨fun hmin => ?_, sync_prunes h.sound hcart hmounted hm⟩
  by_contra hroom
  cases (sync_noMem h.sound hcart hmounted hm hroom).symm.trans hmin.ok

/-- A cache with the album of two tracks. -/
def twoTracksCache : Store :=
  (syncCurrentCartridge (cartridgeOf twoTracks) (resetCache emptyStore)).1

/-- Its two tracks leave no room for an album of 999 tracks, and it goes. -/
theorem sync_prunesMinimally_twoTracks :
    PrunesMinimally (cartridgeOf manyTracks) manyTracks.header.checksum twoTracksCache
        (syncCurrentCartridge (cartridgeOf manyTracks) twoTracksCache) ∧
      albumAt twoTracksCache 8 ≠ none ∧
      albumAt (syncCurrentCartridge (cartridgeOf manyTracks) twoTracksCache).1 8 = none := by
  have hreached : Reached threeAlbums twoTracksCache :=
    (Reached.reset emptyStore).sync (ofLibrary_threeAlbums (.inr (.inl rfl)))
  have hshape := hreached.sound.shape
  have hothers : ∀ c, c ≠ 8 → albumAt twoTracksCache c = none := fun c hc =>
    sync_albumAt_none (Sound.empty threeAlbums emptyStore)
      (ofLibrary_threeAlbums (.inr (.inl rfl))) (checksum_twoTracks.symm ▸ hc)
      (lookup_empty Album.checksum c)
  have hmissing := missing_manyTracks hshape (hothers 9 (by decide))
  have hroom : FindsRoom (cartridgeOf manyTracks) 9 twoTracksCache := by
    refine ⟨?_, ?_⟩
    · decide +kernel
    · rw [hmissing]
      decide +kernel
  have hfull : ¬ Fits (cartridgeOf manyTracks) 9 twoTracksCache [] := by
    rw [fits_iff, not_not, hmissing, withoutAlbums_nil hshape]
    exact .inr (by decide +kernel)
  have hmin := (sync_prunesMinimally_iff threeAlbums hreached
    (ofLibrary_threeAlbums (.inr (.inr rfl))) rfl rfl).mpr (checksum_manyTracks.symm ▸ hroom)
  refine ⟨hmin, Option.ne_none_iff_isSome.mpr (by decide +kernel), ?_⟩
  rw [checksum_manyTracks] at hmin
  obtain ⟨evicted, kept, hevicts⟩ := hmin.evicts
  rw [hevicts.albums 8 (by decide), if_pos]
  cases evicted with
  | nil => exact absurd hevicts.room hfull
  | cons a evicted =>
    have ha := mem_others.mp (hevicts.others.subset (List.mem_append_left _ List.mem_cons_self))
    have h8 : a.checksum = 8 := by
      by_contra hne
      exact lookup_eq_none.mp (hothers a.checksum hne) a ha.1 rfl
    exact h8 ▸ List.mem_cons_self

/-! ## An album that is never found -/

/-- Only the album with one track is in use, and the counter is at `next`. -/
structure OneAlbum (s : Store) (next : Nat) : Prop where
  reached : Reached threeAlbums s
  album : albumAt s 7 ≠ none
  others : ∀ c, c ≠ 7 → albumAt s c = none
  albumCount : s.albumCount = 1
  trackCount : s.trackCount = 1
  next : s.nextSequence.toNat = next

/-- A sync with an album that is in use already draws one number. -/
theorem sync_next {lib : UInt32 → Metadata} {s : Store} (hs : Sound lib s) {m : Metadata}
    (hcart : OfLibrary lib (cartridgeOf m)) (hc : albumAt s m.header.checksum ≠ none) :
    (syncCurrentCartridge (cartridgeOf m) s).1.nextSequence = (nextSequence s).2.nextSequence := by
  have hmeta : (cartridgeOf m).getMetadataHeader = some m.header := rfl
  have hmounted : (cartridgeOf m).isMounted = true := rfl
  have hmissing := hs.full.missing_eq_nil hcart rfl hc
  have hroom := not_over_zero hs.shape
  unfold Over at hroom
  cases hfind : findAlbumSlot s m.header.checksum with
  | none => exact absurd (findAlbumSlot_eq_none.mp hfind) hc
  | some i =>
    have hloop : ensureCapacity m.header.checksum true 0 0 s = (s, .ok) := by
      rw [ensureCapacity, ensureCapacityLoop, if_neg hroom]
    have hkeyed : Keyed Track.key
        (updateAlbum i m.header (nextSequence s).1 (nextSequence s).2).tracks := by
      unfold updateAlbum
      split <;> exact nextSequence_tracks s ▸ hs.shape.tracks
    have hpresent : ∀ j ∈ List.range (cartridgeOf m).getMetadataTrackCount,
        trackAt (updateAlbum i m.header (nextSequence s).1 (nextSequence s).2)
          (m.header.checksum, UInt32.ofNat j) ≠ none := by
      intro j hj
      have htracks : (updateAlbum i m.header (nextSequence s).1 (nextSequence s).2).tracks =
          s.tracks := by
        unfold updateAlbum
        split <;> exact nextSequence_tracks s
      rw [trackAt, htracks]
      rw [List.mem_range, getMetadataTrackCount_eq rfl, ← hcart m rfl] at hj
      exact hs.full _ hc j hj
    obtain ⟨t, hsync, hnext⟩ := @syncTracks_present (cartridgeOf m) _ (nextSequence s).1 _ _ hkeyed hpresent
    rw [updateAlbum_nextSequence] at hnext
    simp only [syncCurrentCartridge, hmeta, hmounted, hfind, countMissing_eq, hmissing, openAlbum,
      Option.isNone_some, List.length_nil, Bool.true_eq_false, Bool.false_eq_true, if_false, hloop,
      hsync]
    exact hnext

theorem oneAlbum_first :
    OneAlbum (syncCurrentCartridge oneTrackCartridge (resetCache emptyStore)).1 4 where
  reached := (Reached.reset emptyStore).sync (ofLibrary_threeAlbums (.inl rfl))
  album := Option.ne_none_iff_isSome.mpr (by decide +kernel)
  others c hc := sync_albumAt_none (Sound.empty threeAlbums emptyStore)
    (ofLibrary_threeAlbums (.inl rfl)) (checksum_oneTrack.symm ▸ hc) (lookup_empty Album.checksum c)
  albumCount := by decide +kernel
  trackCount := by decide +kernel
  next := by decide +kernel

theorem Sound.room {lib : UInt32 → Metadata} {s : Store} (hs : Sound lib s) {m : Metadata}
    (hcart : OfLibrary lib (cartridgeOf m)) (halbums : s.albumCount < maxAlbums)
    (htracks : s.trackCount + m.tracks.length ≤ maxTracks) :
    ∃ t sequence opened drawn, syncCurrentCartridge (cartridgeOf m) s = (t, .ok) ∧ Shape t ∧
      Synced (cartridgeOf m) m.header.checksum sequence s opened drawn t := by
  have hcount : (missingTracks (cartridgeOf m) m.header.checksum s).length ≤ m.tracks.length := by
    refine (List.length_filter_le ..).trans ?_
    rw [List.length_range, ← m.trackCount_eq]
    rfl
  have hroom : ¬ Over (newAlbums m.header.checksum s)
      (missingTracks (cartridgeOf m) m.header.checksum s).length s := by
    rintro (h | h)
    · rw [newAlbums] at h
      split at h <;> omega
    · omega
  obtain ⟨cs, -, ⟨made, t, sequence, opened, drawn, hsync, hpath, hpruned, hsynced⟩ |
    ⟨-, hover, -⟩⟩ := sync_cases hs hcart rfl rfl
  · cases hpruned with
    | room => exact ⟨t, sequence, opened, drawn, hsync, hpath.shape hs.shape, hsynced⟩
    | prune hover => exact absurd hover hroom
  · refine absurd (over_withoutAlbums hs.shape (fun a _ hmem => absurd hmem List.not_mem_nil) hover)
      ?_
    rw [withoutAlbums_nil hs.shape]
    exact hroom

/-- One more sync with the same album. -/
theorem OneAlbum.again {s : Store} {next : Nat} (h : OneAlbum s next) (hnext : next < 0xFFFFFFFF) :
    OneAlbum (syncCurrentCartridge oneTrackCartridge s).1 (next + 1) := by
  have hs := h.reached.sound
  have hcart := ofLibrary_threeAlbums (.inl rfl : oneTrack = oneTrack ∨ _)
  have halbum : albumAt s oneTrack.header.checksum ≠ none := checksum_oneTrack.symm ▸ h.album
  have hcounter : (syncCurrentCartridge oneTrackCartridge s).1.nextSequence =
      (nextSequence s).2.nextSequence := sync_next hs hcart halbum
  obtain ⟨t, sequence, opened, drawn, hsync, ht, hsynced⟩ := hs.room hcart
    (by rw [h.albumCount]; decide) (by rw [h.trackCount]; decide)
  have hmissing := hs.full.missing_eq_nil hcart rfl halbum
  have halbums := Synced.albumCount hsynced hs.shape ht
  have htracks := Synced.trackCount hsynced hs.shape ht
  rw [newAlbums, if_neg halbum, h.albumCount] at halbums
  rw [hmissing, h.trackCount] at htracks
  change syncCurrentCartridge oneTrackCartridge s = (t, .ok) at hsync
  obtain ⟨a, ha, -⟩ := hsynced.album
  rw [checksum_oneTrack] at ha
  have hothers := hsynced.otherAlbums
  rw [checksum_oneTrack] at hothers
  refine ⟨h.reached.sync hcart, ?_, ?_, ?_, ?_, ?_⟩
  · rw [hsync, ha]
    exact Option.some_ne_none a
  · intro c hc
    rw [hsync, hothers c hc]
    exact h.others c hc
  · rw [hsync]
    exact halbums
  · rw [hsync]
    exact htracks
  · have hne : s.nextSequence ≠ 0 := hs.next
    have hlt : s.nextSequence.toNat + 1 < 2 ^ 32 := by
      rw [h.next]
      omega
    have hsucc : (s.nextSequence + 1).toNat = next + 1 := by
      rw [UInt32.toNat_add, show (1 : UInt32).toNat = 1 from rfl, Nat.mod_eq_of_lt hlt, h.next]
    have hnot : s.nextSequence + 1 ≠ 0 := by
      intro heq
      rw [heq] at hsucc
      cases hsucc
    rw [hcounter]
    simp only [nextSequence, if_neg hne, if_neg hnot]
    exact hsucc

theorem oneAlbum_reached (n : Nat) (hn : n ≤ 0xFFFFFFFB) : ∃ s, OneAlbum s (4 + n) := by
  induction n with
  | zero => exact ⟨_, oneAlbum_first⟩
  | succ n ih =>
    obtain ⟨s, hs⟩ := ih (by omega)
    exact ⟨_, hs.again (by omega)⟩

/-- An album of two tracks, first seen under the last number before the counter wraps. -/
structure HiddenAlbum (s : Store) : Prop where
  reached : Reached threeAlbums s
  album : ∃ a, albumAt s 8 = some a ∧ ¬ Findable a
  other : albumAt s 9 = none

theorem hiddenAlbum_reached : ∃ s, HiddenAlbum s := by
  obtain ⟨s, h⟩ := oneAlbum_reached 0xFFFFFFFB (Nat.le_refl _)
  have hs := h.reached.sound
  have hcart := ofLibrary_threeAlbums (.inr (.inl rfl) : twoTracks = oneTrack ∨ _)
  obtain ⟨t, sequence, opened, drawn, hsync, -, hsynced⟩ := hs.room hcart
    (by rw [h.albumCount]; decide) (by rw [h.trackCount]; decide)
  obtain ⟨a, ha, -, -, hfirst⟩ := hsynced.album
  rw [checksum_twoTracks] at ha hfirst
  have hnext : s.nextSequence = 0xFFFFFFFF := UInt32.toNat_inj.mp h.next
  have hdrawn : (nextSequence s).1 = 0xFFFFFFFF := by
    simp only [nextSequence, hnext]
    rfl
  have hreached := h.reached.sync hcart
  rw [hsync] at hreached
  refine ⟨t, hreached, ⟨a, ha, not_not.mpr ((hfirst (h.others 8 (by decide))).1.trans hdrawn)⟩, ?_⟩
  have hnine : (9 : UInt32) ≠ twoTracks.header.checksum := checksum_twoTracks.symm ▸ by decide
  rw [hsynced.otherAlbums 9 hnine]
  exact h.others 9 (by decide)

/-- The tracks of a hidden album leave no room for an album of 999 tracks. -/
theorem HiddenAlbum.not_findsRoom {s : Store} (h : HiddenAlbum s) :
    ¬ FindsRoom (cartridgeOf manyTracks) 9 s := by
  intro hroom
  have hs := h.reached.sound
  obtain ⟨a, ha, hhidden⟩ := h.album
  have hmissing := missing_manyTracks hs.shape h.other
  have hkept : ∀ i : UInt32, i = 0 ∨ i = 1 → (8, i) ∈ trackKeys (withoutAlbums
      (((others 9 s).filter fun a => decide (Findable a)).map Album.checksum) s) := by
    intro i hi
    have hfull : trackAt s (8, i) ≠ none := by
      have hcount : (threeAlbums 8).header.trackCount.toNat = 2 := by decide +kernel
      have h8 := hs.full 8 (ha ▸ Option.some_ne_none a)
      rcases hi with rfl | rfl
      · exact h8 0 (by rw [hcount]; decide)
      · exact h8 1 (by rw [hcount]; decide)
    have hgone : (8 : UInt32) ∉ ((others 9 s).filter fun a => decide (Findable a)).map
        Album.checksum := by
      intro hmem
      obtain ⟨b, hb, hb8, -, hfind⟩ := mem_findable.mp hmem
      have hba : albumAt s 8 = some b := hs.shape.albums.lookup_eq_some.mpr ⟨hb, hb8⟩
      obtain rfl := Option.some.inj (hba.symm.trans ha)
      exact hhidden hfind
    rw [mem_trackKeys, trackAt_withoutAlbums hs.shape, if_neg hgone]
    exact Option.ne_none_iff_isSome.mp hfull
  have hshape := Shape.withoutAlbums hs.shape
    (((others 9 s).filter fun a => decide (Findable a)).map Album.checksum)
  have htwo : 2 ≤ (withoutAlbums
      (((others 9 s).filter fun a => decide (Findable a)).map Album.checksum) s).trackCount := by
    rw [hshape.trackCount, ← hshape.tracks.card_keys]
    refine (Finset.card_pair (a := ((8, 0) : TrackKey)) (b := (8, 1)) (by decide)).symm.le.trans ?_
    refine Finset.card_le_card fun k hk => ?_
    rcases Finset.mem_insert.mp hk with rfl | hk
    · exact hkept 0 (.inl rfl)
    · obtain rfl := Finset.mem_singleton.mp hk
      exact hkept 1 (.inr rfl)
  have hle := hroom.2
  rw [hmissing] at hle
  exact absurd ((Nat.add_le_add_right htwo maxTrackFiles).trans hle) (by decide)

theorem sync_not_prunesMinimally : ∃ s, Reached threeAlbums s ∧
    ¬ PrunesMinimally (cartridgeOf manyTracks) 9 s
      (syncCurrentCartridge (cartridgeOf manyTracks) s) := by
  obtain ⟨s, h⟩ := hiddenAlbum_reached
  refine ⟨s, h.reached, fun hmin => ?_⟩
  have hcart := ofLibrary_threeAlbums (.inr (.inr rfl) : manyTracks = oneTrack ∨ _)
  have hfail := sync_noMem h.reached.sound hcart rfl rfl (checksum_manyTracks.symm ▸ h.not_findsRoom)
  cases hfail.symm.trans hmin.ok

end Jukeboy.PlayHistory.Pruning
