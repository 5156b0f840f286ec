import Jukeboy.Base.Stamps
import Jukeboy.PlayHistory.Pruning

/-! # The order of the sequence numbers

The numbers in the records of the play history, compared with when the records
were written. A sync draws its own number before it makes the records of new
tracks, so such a record is first seen after it was last seen, until a later
event writes it. -/
namespace Jukeboy.PlayHistory.SequenceOrder

open Jukeboy.Base Jukeboy.Base.SlotTable Jukeboy.Base.Stamps Jukeboy.Formats.Jbm
  Jukeboy.PlayHistory.Cache Jukeboy.PlayHistory.Effects Jukeboy.PlayHistory.Operations
  Jukeboy.PlayHistory.Invariant Jukeboy.PlayHistory.SyncRecords Jukeboy.PlayHistory.Pruning

/-! ## Records and the events that write them -/

/-- An album or a track of the cache. -/
inductive RecordId where
  | album (checksum : UInt32)
  | track (key : TrackKey)
deriving DecidableEq, Repr

def lastSeen (s : Store) : RecordId → Option Nat
  | .album c => (albumAt s c).map fun a => a.lastSeenSequence.toNat
  | .track k => (trackAt s k).map fun t => t.lastSeenSequence.toNat

/-- The event that last wrote each record, and whether that was the sync that
made the track. -/
structure Touches where
  event : RecordId → Nat
  fresh : TrackKey → Bool

/-- The records a sync with a cartridge writes. -/
def InSync (cart : Cartridge) (c : UInt32) : RecordId → Prop
  | .album d => d = c
  | .track k => k ∈ cartridgeKeys cart c

instance (cart : Cartridge) (c : UInt32) : DecidablePred (InSync cart c)
  | .album d => inferInstanceAs (Decidable (d = c))
  | .track k => inferInstanceAs (Decidable (k ∈ cartridgeKeys cart c))

/-- The records a counted play writes. -/
def InPlay (key : TrackKey) : RecordId → Prop
  | .album d => d = key.1
  | .track k => k = key

instance (key : TrackKey) : DecidablePred (InPlay key)
  | .album d => inferInstanceAs (Decidable (d = key.1))
  | .track k => inferInstanceAs (Decidable (k = key))

namespace Touches

def sync (now : Nat) (cart : Cartridge) (s : Store) (g : Touches) : Touches :=
  match readable cart with
  | none => g
  | some metadata =>
    { event := fun id => if InSync cart metadata.checksum id then now else g.event id
      fresh := fun k => if k ∈ cartridgeKeys cart metadata.checksum then
        decide (trackAt s k = none) else g.fresh k }

def play (now : Nat) (key : TrackKey) (g : Touches) : Touches where
  event id := if InPlay key id then now else g.event id
  fresh k := if k = key then false else g.fresh k

/-- What an event writes: a sync writes the inserted album and its tracks, a play
the track and its album, after the sync it makes for a track that is not in use. -/
def handle (now : Nat) (cart : Cartridge) (event : Event) (s : Store) (g : Touches) : Touches :=
  match event with
  | .syncCurrentCartridge => g.sync now cart s
  | .countablePlay track =>
    let key := (track.cartridgeChecksum, track.trackIndex)
    let synced := if key ∉ trackKeys s ∧
        (readable cart).any (fun metadata => metadata.checksum == key.1) then
      g.sync now cart s else g
    if key ∈ trackKeys (storeForPlay cart key s) then synced.play now key else synced
  | .clear => g
  | .rebuild => g.sync now cart (resetCache s)

end Touches

/-- A cache, the events it has seen, and what they wrote. -/
structure History where
  store : Store
  events : Nat
  touches : Touches

def start : History := ⟨resetCache emptyStore, 0, ⟨fun _ => 0, fun _ => false⟩⟩

def History.handle (h : History) (input : Cartridge × Event) : History where
  store := (processEvent input.1 input.2 h.store).1
  events := h.events + 1
  touches := h.touches.handle h.events input.1 input.2 h.store

def run (inputs : List (Cartridge × Event)) : History := inputs.foldl History.handle start

/-! ## What the numbers say -/

/-- The sequence numbers reflect time. -/
structure InOrder (h : History) : Prop where
  albums : ∀ c a, albumAt h.store c = some a →
    a.firstSeenSequence.toNat ≤ a.lastSeenSequence.toNat ∧
      a.lastSeenSequence.toNat < h.store.nextSequence.toNat
  tracks : ∀ k t, trackAt h.store k = some t →
    t.firstSeenSequence.toNat ≤ t.lastSeenSequence.toNat ∧
      t.lastSeenSequence.toNat < h.store.nextSequence.toNat
  distinct : ∀ c d a b, albumAt h.store c = some a → albumAt h.store d = some b →
    a.firstSeenSequence = b.firstSeenSequence → c = d
  albumLast : ∀ k t a, trackAt h.store k = some t → albumAt h.store k.1 = some a →
    t.lastSeenSequence.toNat ≤ a.lastSeenSequence.toNat
  later : ∀ id id' m n, lastSeen h.store id = some m → lastSeen h.store id' = some n →
    h.touches.event id < h.touches.event id' → m < n

/-- Every track in use was written since the sync that made it. -/
def Settled (h : History) : Prop :=
  ∀ k, trackAt h.store k ≠ none → h.touches.fresh k = false

def stamps (s : Store) (g : Touches) : Stamped RecordId := ⟨s.nextSequence.toNat, lastSeen s, g.event⟩

/-- What every event keeps of the numbers, until the counter wraps. -/
structure Inv (now : Nat) (s : Store) (g : Touches) : Prop where
  shape : Shape s
  timed : Timed s
  ordered : Ordered now (stamps s g)
  albums : ∀ c a, albumAt s c = some a →
    a.firstSeenSequence.toNat ≤ a.lastSeenSequence.toNat
  seen : ∀ k t, trackAt s k = some t → t.firstSeenSequence.toNat < s.nextSequence.toNat
  settled : ∀ k t, trackAt s k = some t → g.fresh k = false →
    t.firstSeenSequence.toNat ≤ t.lastSeenSequence.toNat
  fresh : ∀ k t, trackAt s k = some t → g.fresh k = true →
    t.lastSeenSequence.toNat < t.firstSeenSequence.toNat
  albumLast : ∀ k t a, trackAt s k = some t → albumAt s k.1 = some a →
    t.lastSeenSequence.toNat ≤ a.lastSeenSequence.toNat

/-! ## A sync -/

/-- The numbers a sync leaves in the records: its own in those it writes, one drawn
before it in a new album, and ones drawn after it in new tracks. -/
structure SyncStage (cart : Cartridge) (c : UInt32) (s t : Store) (sequence : Nat) : Prop where
  ge : s.nextSequence.toNat ≤ sequence
  lt : sequence < t.nextSequence.toNat
  album : ∃ a, albumAt t c = some a ∧ a.lastSeenSequence.toNat = sequence ∧
    (∀ b, albumAt s c = some b → a.firstSeenSequence = b.firstSeenSequence) ∧
    (albumAt s c = none → a.firstSeenSequence.toNat < sequence)
  otherAlbums : ∀ d a, d ≠ c → albumAt t d = some a → albumAt s d = some a
  tracks : ∀ k ∈ cartridgeKeys cart c, ∃ r, trackAt t k = some r ∧
    r.lastSeenSequence.toNat = sequence ∧
    (∀ v, trackAt s k = some v → r.firstSeenSequence = v.firstSeenSequence) ∧
    (trackAt s k = none → sequence < r.firstSeenSequence.toNat ∧
      r.firstSeenSequence.toNat < t.nextSequence.toNat)
  otherTracks : ∀ k r, k ∉ cartridgeKeys cart c → trackAt t k = some r → trackAt s k = some r

theorem sync_stage {cart : Cartridge} {s : Store} {metadata : JbmHeader} (hs : Shape s)
    (ht : Timed s) (hread : readable cart = some metadata)
    (hw : (syncCurrentCartridge cart s).1.wrapped = false) :
    ∃ sequence,
      SyncStage cart metadata.checksum s (syncCurrentCartridge cart s).1 sequence := by
  obtain ⟨hmount, hmeta⟩ := readable_some hread
  have hroom := tracksOf_add_missing_le hs cart metadata.checksum
  have hda : (if albumAt s metadata.checksum = none then 1 else 0) ≤ 1 := by
    split <;> omega
  obtain ⟨gone, made, hloop, hpruned⟩ := ensureCapacityLoop_spec hda (maxAlbums + 1) hs ht
    (hroom.trans (by decide)) (Nat.lt_succ_of_le (inUse_le s.albums))
  obtain ⟨t, hsync, -⟩ := syncCurrentCartridge_of_room hmount hmeta hs hloop hpruned
  obtain ⟨sequence, opened, drawn, hsynced⟩ :=
    Pruned.synced hmount hmeta hs hloop hpruned hsync
  rw [hsync] at hw ⊢
  have hmade := Pruned.eq_withoutAlbums hpruned hs
  have hc := Pruned.keep_notMem hpruned
  have halbums : ∀ d, albumAt made d = if d ∈ gone then none else albumAt s d :=
    fun d => hmade ▸ albumAt_withoutAlbums hs gone d
  have htracks : ∀ k, trackAt made k = if k.1 ∈ gone then none else trackAt s k :=
    fun k => hmade ▸ trackAt_withoutAlbums hs gone k
  have htrackC : ∀ k ∈ cartridgeKeys cart metadata.checksum, trackAt made k = trackAt s k := by
    intro k hk
    obtain ⟨i, -, rfl⟩ := mem_cartridgeKeys.mp hk
    exact (htracks _).trans (if_neg hc)
  -- the counter only counts on from one stage to the next
  have hnext : made.nextSequence = s.nextSequence := by rw [hmade]; rfl
  have hwDrawn := hsynced.syncing.not_wrapped hw
  have hwOpened := hsynced.drawing.not_wrapped hwDrawn
  have h0 : 0 < made.nextSequence.toNat := hnext ▸ ht.next
  have hopened := hsynced.opening.next h0 hwOpened
  have hdrawn := hsynced.drawing.next (h0.trans_le hopened) hwDrawn
  have hsyncing := hsynced.syncing.next ((h0.trans_le hopened).trans_le hdrawn) hw
  obtain ⟨hge, hlt⟩ := hsynced.number (h0.trans_le hopened) hwDrawn
  refine ⟨sequence.toNat, hnext ▸ hopened.trans hge, hlt.trans_le hsyncing, ?_, ?_, ?_, ?_⟩
  · obtain ⟨a, ha, hlast, hkept, hnew⟩ := hsynced.album
    rw [halbums, if_neg hc] at hkept hnew
    refine ⟨a, ha, congrArg UInt32.toNat hlast, hkept, fun hnone => ?_⟩
    exact ((hnew hnone).2 h0 hwOpened).2.trans_le hge
  · intro d a hd ha
    rw [hsynced.otherAlbums d hd, halbums] at ha
    split at ha
    · cases ha
    · exact ha
  · intro k hk
    obtain ⟨r, hr, hrec⟩ := hsynced.tracks k hk
    have hkept := hrec.kept
    have hnew := hrec.made
    rw [htrackC k hk] at hkept hnew
    refine ⟨r, hr, congrArg UInt32.toNat hrec.last, fun v hv => (hkept v hv).1, fun hnone => ?_⟩
    obtain ⟨hfirst, hfirst'⟩ := (hnew hnone).2 ((h0.trans_le hopened).trans_le hdrawn) hw
    exact ⟨hlt.trans_le hfirst, hfirst'⟩
  · intro k r hk hr
    rw [hsynced.otherTracks k hk, htracks] at hr
    split at hr
    · cases hr
    · exact hr

theorem SyncStage.restamps {cart : Cartridge} {c : UInt32} {s t : Store} {sequence now : Nat}
    (h : SyncStage cart c s t sequence) {g g' : Touches}
    (hg : g'.event = fun id => if InSync cart c id then now else g.event id) :
    Restamps now (InSync cart c) (stamps s g) (stamps t g') where
  next := h.ge.trans h.lt.le
  drawn id n hid hn := by
    have hn' : n = sequence := by
      cases id with
      | album d =>
        obtain ⟨a, ha, hlast, -⟩ := h.album
        obtain rfl : d = c := hid
        change (albumAt t d).map _ = some n at hn
        rw [ha] at hn
        exact (Option.some.inj hn).symm.trans hlast
      | track k =>
        obtain ⟨r, hr, hlast, -⟩ := h.tracks k hid
        change (trackAt t k).map _ = some n at hn
        rw [hr] at hn
        exact (Option.some.inj hn).symm.trans hlast
    rw [hn']
    exact ⟨h.ge, h.lt⟩
  others id n hid hn := by
    cases id with
    | album d =>
      obtain ⟨a, ha, rfl⟩ := Option.map_eq_some_iff.mp hn
      exact congrArg (Option.map _) (h.otherAlbums d a hid ha)
    | track k =>
      obtain ⟨r, hr, rfl⟩ := Option.map_eq_some_iff.mp hn
      exact congrArg (Option.map _) (h.otherTracks k r hid hr)
  written id hid := by
    rw [stamps, hg]
    exact if_pos hid
  unwritten id hid := by
    rw [stamps, hg]
    exact if_neg hid

theorem Inv.lastAlbum_lt {now : Nat} {s : Store} {g : Touches} (h : Inv now s g) {c : UInt32}
    {a : Album} (ha : albumAt s c = some a) :
    a.lastSeenSequence.toNat < s.nextSequence.toNat :=
  h.ordered.below (.album c) _ (congrArg (Option.map _) ha)

theorem Inv.lastTrack_lt {now : Nat} {s : Store} {g : Touches} (h : Inv now s g) {k : TrackKey}
    {t : Track} (ht : trackAt s k = some t) :
    t.lastSeenSequence.toNat < s.nextSequence.toNat :=
  h.ordered.below (.track k) _ (congrArg (Option.map _) ht)

section

variable {now sequence : Nat} {cart : Cartridge} {c : UInt32} {s t : Store} {g : Touches}

theorem Inv.albums_of_stage (h : Inv now s g) (hstage : SyncStage cart c s t sequence) :
    ∀ d a, albumAt t d = some a → a.firstSeenSequence.toNat ≤ a.lastSeenSequence.toNat := by
  intro d a ha
  by_cases hd : d = c
  · obtain ⟨b, hb, hlast, hkept, hnew⟩ := hstage.album
    obtain rfl := Option.some.inj ((hd ▸ hb).symm.trans ha)
    rw [hlast]
    cases hold : albumAt s c with
    | none => exact (hnew hold).le
    | some v =>
      rw [hkept v hold]
      exact ((h.albums _ v hold).trans (h.lastAlbum_lt hold).le).trans hstage.ge
  · exact h.albums d a (hstage.otherAlbums d a hd ha)

theorem Inv.seen_of_stage (h : Inv now s g) (hstage : SyncStage cart c s t sequence) :
    ∀ k r, trackAt t k = some r → r.firstSeenSequence.toNat < t.nextSequence.toNat := by
  intro k r hr
  by_cases hk : k ∈ cartridgeKeys cart c
  · obtain ⟨r', hr', -, hkept, hnew⟩ := hstage.tracks k hk
    obtain rfl := Option.some.inj (hr'.symm.trans hr)
    cases hold : trackAt s k with
    | none => exact (hnew hold).2
    | some v =>
      rw [hkept v hold]
      exact ((h.seen k v hold).trans_le hstage.ge).trans hstage.lt
  · exact ((h.seen k r (hstage.otherTracks k r hk hr)).trans_le hstage.ge).trans hstage.lt

/-- The album of the cartridge has the number of the sync, and no track a later one. -/
theorem Inv.albumLast_of_stage (h : Inv now s g) (hstage : SyncStage cart c s t sequence) :
    ∀ k r a, trackAt t k = some r → albumAt t k.1 = some a →
      r.lastSeenSequence.toNat ≤ a.lastSeenSequence.toNat := by
  intro k r a hr ha
  have hkey : k ∈ cartridgeKeys cart c → k.1 = c := by
    intro hk
    obtain ⟨i, -, rfl⟩ := mem_cartridgeKeys.mp hk
    rfl
  by_cases hc : k.1 = c
  · obtain ⟨b, hb, hlastA, -⟩ := hstage.album
    obtain rfl := Option.some.inj ((hc ▸ hb).symm.trans ha)
    rw [hlastA]
    by_cases hk : k ∈ cartridgeKeys cart c
    · obtain ⟨r', hr', hlast, -⟩ := hstage.tracks k hk
      obtain rfl := Option.some.inj (hr'.symm.trans hr)
      exact hlast.le
    · exact (h.lastTrack_lt (hstage.otherTracks k r hk hr)).le.trans hstage.ge
  · exact h.albumLast k r a (hstage.otherTracks k r (fun hk => hc (hkey hk)) hr)
      (hstage.otherAlbums _ a hc ha)

end

/-- **A sync keeps the numbers in order**, but for the tracks it makes. -/
theorem Inv.sync {now : Nat} {cart : Cartridge} {s : Store} {g : Touches} (h : Inv now s g)
    (hw : (syncCurrentCartridge cart s).1.wrapped = false) :
    Inv now (syncCurrentCartridge cart s).1 (g.sync now cart s) := by
  cases hread : readable cart with
  | none =>
    obtain ⟨err, hsync, -⟩ := syncCurrentCartridge_unreadable hread s
    simp only [hsync, Touches.sync, hread]
    exact h
  | some metadata =>
    obtain ⟨sequence, hstage⟩ := sync_stage h.shape h.timed hread hw
    obtain ⟨es, hpath⟩ := syncCurrentCartridge_path cart h.shape h.timed
    generalize (syncCurrentCartridge cart s).1 = t at hstage hpath hw
    have hfresh : ∀ k, (g.sync now cart s).fresh k =
        if k ∈ cartridgeKeys cart metadata.checksum then decide (trackAt s k = none)
        else g.fresh k := by
      intro k
      simp only [Touches.sync, hread]
    have hevent : (g.sync now cart s).event = fun id =>
        if InSync cart metadata.checksum id then now else g.event id := by
      simp only [Touches.sync, hread]
    refine ⟨hpath.shape h.shape, hpath.timed h.shape h.timed hw,
      (hstage.restamps hevent).ordered h.ordered, h.albums_of_stage hstage,
      h.seen_of_stage hstage, ?_, ?_, h.albumLast_of_stage hstage⟩
    · intro k r hr hsettled
      rw [hfresh] at hsettled
      by_cases hk : k ∈ cartridgeKeys cart metadata.checksum
      · obtain ⟨r', hr', hlast, hkept, -⟩ := hstage.tracks k hk
        obtain rfl := Option.some.inj (hr'.symm.trans hr)
        rw [if_pos hk, decide_eq_false_iff_not] at hsettled
        obtain ⟨v, hold⟩ := Option.ne_none_iff_exists'.mp hsettled
        rw [hkept v hold, hlast]
        exact (h.seen k v hold).le.trans hstage.ge
      · rw [if_neg hk] at hsettled
        exact h.settled k r (hstage.otherTracks k r hk hr) hsettled
    · intro k r hr hnew
      rw [hfresh] at hnew
      by_cases hk : k ∈ cartridgeKeys cart metadata.checksum
      · obtain ⟨r', hr', hlast, -, hmade⟩ := hstage.tracks k hk
        obtain rfl := Option.some.inj (hr'.symm.trans hr)
        rw [if_pos hk, decide_eq_true_eq] at hnew
        rw [hlast]
        exact (hmade hnew).1
      · rw [if_neg hk] at hnew
        exact h.fresh k r (hstage.otherTracks k r hk hr) hnew

/-! ## A counted play -/

theorem PlayCounted.restamps {key : TrackKey} {sequence : UInt32} {s t : Store} {now : Nat}
    (h : PlayCounted key sequence s t) (hnext : 0 < s.nextSequence.toNat)
    (hw : t.wrapped = false) (g : Touches) :
    Restamps now (InPlay key) (stamps s g) (stamps t (g.play now key)) where
  next := h.onward.next hnext hw
  drawn id n hid hn := by
    have hn' : n = sequence.toNat := by
      cases id with
      | album d =>
        obtain rfl : d = key.1 := hid
        change (albumAt t key.1).map _ = some n at hn
        cases hold : albumAt s key.1 with
        | none =>
          rw [h.otherAlbums key.1 (.inr hold), hold] at hn
          cases hn
        | some a =>
          rw [h.album a hold] at hn
          exact (Option.some.inj hn).symm
      | track k =>
        obtain rfl : k = key := hid
        obtain ⟨-, r, -, hr, -, hlast, -⟩ := h.track
        change (trackAt t k).map _ = some n at hn
        rw [hr] at hn
        exact (Option.some.inj hn).symm.trans (congrArg UInt32.toNat hlast)
    rw [hn']
    exact h.number hnext hw
  others id n hid hn := by
    cases id with
    | album d => exact (congrArg (Option.map _) (h.otherAlbums d (.inl hid))).symm.trans hn
    | track k => exact (congrArg (Option.map _) (h.otherTracks k hid)).symm.trans hn
  written _ hid := if_pos hid
  unwritten _ hid := if_neg hid

/-- **A counted play keeps the numbers in order**, and settles its track. -/
theorem Inv.play {now : Nat} {key : TrackKey} {sequence : UInt32} {s t : Store} {g : Touches}
    (h : Inv now s g) (hplay : PlayCounted key sequence s t) (hshape : Shape t) (htimed : Timed t)
    (hw : t.wrapped = false) : Inv now t (g.play now key) := by
  obtain ⟨hge, hlt⟩ := hplay.number h.timed.next hw
  obtain ⟨u, r, hu, hr, hfirst, hlast, -⟩ := hplay.track
  -- the records of `t` are those of `s`, but for the track played and its album
  have halbum : ∀ c a, albumAt t c = some a → albumAt s c = some a ∨
      c = key.1 ∧ ∃ b, albumAt s c = some b ∧ a = { b with lastSeenSequence := sequence } := by
    intro c a ha
    by_cases hc : c = key.1
    · cases hold : albumAt s c with
      | none =>
        rw [hplay.otherAlbums c (.inr hold), hold] at ha
        cases ha
      | some b =>
        subst hc
        exact .inr ⟨rfl, b, rfl, Option.some.inj (ha.symm.trans (hplay.album b hold))⟩
    · exact .inl ((hplay.otherAlbums c (.inl hc)).symm.trans ha)
  have htrack : ∀ k v, trackAt t k = some v → k ≠ key ∧ trackAt s k = some v ∨ k = key ∧ v = r := by
    intro k v hv
    by_cases hk : k = key
    · exact .inr ⟨hk, Option.some.inj (hv.symm.trans (hk ▸ hr))⟩
    · exact .inl ⟨hk, (hplay.otherTracks k hk).symm.trans hv⟩
  refine ⟨hshape, htimed, (PlayCounted.restamps hplay h.timed.next hw g).ordered h.ordered, ?_, ?_, ?_, ?_, ?_⟩
  · intro c a ha
    rcases halbum c a ha with hold | ⟨-, b, hold, rfl⟩
    · exact h.albums c a hold
    · exact ((h.albums c b hold).trans (h.lastAlbum_lt hold).le).trans hge
  · intro k v hv
    rcases htrack k v hv with ⟨-, hold⟩ | ⟨rfl, rfl⟩
    · exact ((h.seen k v hold).trans_le hge).trans hlt
    · rw [hfirst]
      exact ((h.seen k u hu).trans_le hge).trans hlt
  · intro k v hv hsettled
    rcases htrack k v hv with ⟨hk, hold⟩ | ⟨rfl, rfl⟩
    · exact h.settled k v hold ((if_neg hk).symm.trans hsettled)
    · rw [hfirst, hlast]
      exact (h.seen k u hu).le.trans hge
  · intro k v hv hnew
    rcases htrack k v hv with ⟨hk, hold⟩ | ⟨rfl, rfl⟩
    · exact h.fresh k v hold ((if_neg hk).symm.trans hnew)
    · cases (if_pos rfl).symm.trans hnew
  · intro k v a hv ha
    rcases htrack k v hv with ⟨-, hold⟩ | ⟨rfl, rfl⟩
    · rcases halbum _ a ha with holdA | ⟨-, b, holdA, rfl⟩
      · exact h.albumLast k v a hold holdA
      · exact (h.lastTrack_lt hold).le.trans hge
    · rw [hlast]
      rcases halbum _ a ha with holdA | ⟨-, b, -, rfl⟩
      · exact (Option.some.inj (((hplay.album a holdA)).symm.trans ha) ▸ Nat.le_refl _)
      · exact Nat.le_refl _

/-! ## Whole runs -/

theorem inv_reset (now : Nat) (s : Store) (g : Touches) : Inv now (resetCache s) g := by
  have halbums : ∀ c, albumAt (resetCache s) c = none := lookup_empty Album.checksum
  have htracks : ∀ k, trackAt (resetCache s) k = none := lookup_empty Track.key
  refine ⟨.forget s, .forget s, ordered_of_none fun id => ?_, ?_, ?_, ?_, ?_, ?_⟩
  · cases id with
    | album c => exact congrArg (Option.map _) (halbums c)
    | track k => exact congrArg (Option.map _) (htracks k)
  · exact fun c a ha => by cases (halbums c).symm.trans ha
  · exact fun k t ht => by cases (htracks k).symm.trans ht
  · exact fun k t ht => by cases (htracks k).symm.trans ht
  · exact fun k t ht => by cases (htracks k).symm.trans ht
  · exact fun k t a ht => by cases (htracks k).symm.trans ht

theorem Inv.dirty {now : Nat} {s : Store} {g : Touches} (h : Inv now s g) (dirty : Bool) :
    Inv now { s with dirty } g where
  shape := ⟨h.shape.albumCount, h.shape.trackCount, h.shape.albums, h.shape.tracks, h.shape.home,
    h.shape.index⟩
  timed := ⟨h.timed.next, h.timed.albums, h.timed.order, h.timed.plays_lt⟩
  ordered := ⟨h.ordered.below, h.ordered.past, h.ordered.later⟩
  albums := h.albums
  seen := h.seen
  settled := h.settled
  fresh := h.fresh
  albumLast := h.albumLast

/-- **Every event keeps the numbers in order**, until the counter wraps. -/
theorem Inv.handle {now : Nat} {cart : Cartridge} {event : Event} {s : Store} {g : Touches}
    (h : Inv now s g) (hw : (processEvent cart event s).1.wrapped = false) :
    Inv now (processEvent cart event s).1 (g.handle now cart event s) := by
  cases event with
  | syncCurrentCartridge => exact h.sync hw
  | clear => exact (inv_reset now s g).dirty true
  | rebuild => exact ((inv_reset now s g).dirty true).sync hw
  | countablePlay track =>
    rw [processEvent_countablePlay] at hw ⊢
    have happly := applyCountablePlay_eq cart h.shape h.timed track
    have hpath := applyCountablePlay_spec cart h.shape h.timed track
    dsimp only at happly hpath
    -- the store after the sync the play may make
    have hmid : (storeForPlay cart
          (track.cartridgeChecksum, track.trackIndex) s).wrapped = false →
        Inv now (storeForPlay cart (track.cartridgeChecksum, track.trackIndex) s)
          (if (track.cartridgeChecksum, track.trackIndex) ∉ trackKeys s ∧
            (readable cart).any (fun metadata => metadata.checksum == track.cartridgeChecksum) then
            g.sync now cart s else g) := by
      unfold storeForPlay
      split
      · exact h.sync
      · exact fun _ => h
    unfold Touches.handle
    dsimp only
    generalize storeForPlay cart (track.cartridgeChecksum, track.trackIndex) s = t at *
    rw [happly] at hw hpath ⊢
    cases hfind : findTrackSlot t track.cartridgeChecksum track.trackIndex with
    | none =>
      rw [hfind] at hw
      rw [if_neg fun hmem => by cases (trackKeys_of_find.mpr hmem).choose_spec.symm.trans hfind]
      exact hmid hw
    | some i =>
      have hmem := trackKeys_of_find.mp ⟨i, hfind⟩
      rw [hfind] at hw hpath
      rw [if_pos hmem] at hpath ⊢
      obtain ⟨u, hi, hkey⟩ := findTrackSlot_some hfind
      have hinv := hmid (hpath.not_wrapped hw)
      exact hinv.play (countPlay_counted hinv.shape hi hkey) (hpath.shape hinv.shape)
        (hpath.timed hinv.shape hinv.timed hw) hw

theorem inv_run (inputs : List (Cartridge × Event))
    (hw : ∀ n, (run (inputs.take n)).store.wrapped = false) :
    Inv (run inputs).events (run inputs).store (run inputs).touches := by
  induction inputs using List.reverseRecOn with
  | nil => exact inv_reset 0 emptyStore _
  | append_singleton inputs input ih =>
    have hstep : run (inputs ++ [input]) = (run inputs).handle input := List.foldl_concat ..
    have hinv := ih fun n => by
      have htake : (inputs ++ [input]).take (min n inputs.length) = inputs.take n := by
        rw [List.take_append_of_le_length (Nat.min_le_right ..), ← List.take_take,
          List.take_length]
      exact htake ▸ hw (min n inputs.length)
    have hend := hw (inputs ++ [input]).length
    rw [List.take_length, hstep] at hend
    rw [hstep]
    have hdone := hinv.handle hend
    exact { hdone with ordered := hdone.ordered.mono (Nat.le_succ _) }

/-- **The numbers reflect time**, until the counter wraps, exactly when every
track in use was written since the sync that made it. -/
theorem inOrder_iff_settled (inputs : List (Cartridge × Event))
    (hw : ∀ n, (run (inputs.take n)).store.wrapped = false) :
    InOrder (run inputs) ↔ Settled (run inputs) := by
  have h := inv_run inputs hw
  constructor
  · intro hord k hk
    obtain ⟨t, ht⟩ := Option.ne_none_iff_exists'.mp hk
    by_contra hfresh
    have hlt := h.fresh k t ht (Bool.eq_true_of_not_eq_false hfresh)
    exact absurd (hord.tracks k t ht).1 (Nat.not_le.mpr hlt)
  · intro hsettled
    refine ⟨fun c a ha => ⟨h.albums c a ha, h.lastAlbum_lt ha⟩, fun k t ht => ?_, ?_, h.albumLast,
      h.ordered.later⟩
    · have hfresh := hsettled k (ht ▸ Option.some_ne_none t)
      exact ⟨h.settled k t ht hfresh, h.lastTrack_lt ht⟩
    · intro c d a b ha hb hab
      obtain ⟨hheldA, rfl⟩ := h.shape.albums.lookup_eq_some.mp ha
      obtain ⟨hheldB, rfl⟩ := h.shape.albums.lookup_eq_some.mp hb
      rw [h.timed.order.eq_of_holds hheldA hheldB hab]

def syncOnce : List (Cartridge × Event) := [(oneTrackCartridge, .syncCurrentCartridge)]

def syncThenPlay : List (Cartridge × Event) :=
  [(oneTrackCartridge, .syncCurrentCartridge), (oneTrackCartridge, .countablePlay oneTrackPlay)]

theorem inOrder_syncThenPlay : InOrder (run syncThenPlay) ↔ Settled (run syncThenPlay) :=
  inOrder_iff_settled syncThenPlay fun n => by
    match n with
    | 0 => decide +kernel
    | 1 => decide +kernel
    | n + 2 =>
      rw [List.take_of_length_le (Nat.le_add_left 2 n)]
      decide +kernel

/-- After its first sync, the track's first number is greater than its last. -/
theorem not_inOrder_syncOnce : ¬ InOrder (run syncOnce) := by
  have hseen : (trackAt (run syncOnce).store (7, 0)).map (fun t =>
      (t.firstSeenSequence, t.lastSeenSequence)) = some (3, 2) := by decide +kernel
  intro hord
  obtain ⟨t, ht, heq⟩ := Option.map_eq_some_iff.mp hseen
  have hle := (hord.tracks _ t ht).1
  rw [(Prod.mk.inj heq).1, (Prod.mk.inj heq).2] at hle
  exact absurd hle (by decide)

end Jukeboy.PlayHistory.SequenceOrder
