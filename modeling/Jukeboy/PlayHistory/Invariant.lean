import Jukeboy.PlayHistory.Operations
import Jukeboy.PlayHistory.Persistence

/-! # The play-history cache stays in shape

From an empty cache or a file the service wrote, whatever events and cartridges
come, the counters and the keys stay right until the sequence counter wraps. -/
namespace Jukeboy.PlayHistory.Invariant

open Jukeboy.Base Jukeboy.Base.SlotTable Jukeboy.Formats.Jbm Jukeboy.PlayHistory.Cache
  Jukeboy.PlayHistory.Effects Jukeboy.PlayHistory.Operations Jukeboy.PlayHistory.Persistence

/-! ## Every event is a path of changes -/

theorem syncCurrentCartridge_path (cart : Cartridge) {s : Store} (hs : Shape s) (ht : Timed s) :
    ∃ es, Path s es (syncCurrentCartridge cart s).1 := by
  cases hread : readable cart with
  | none =>
    obtain ⟨err, hsync, -⟩ := syncCurrentCartridge_unreadable hread s
    exact ⟨[], by rw [hsync]; exact .nil s⟩
  | some metadata =>
    obtain ⟨hmount, hmeta⟩ := readable_some hread
    obtain ⟨pruned, made, t, hsync, -, hpath⟩ := syncCurrentCartridge_spec hmount hmeta hs ht
    exact ⟨_, by rw [hsync]; exact hpath⟩

theorem storeForPlay_path (cart : Cartridge) (key : TrackKey) {s : Store} (hs : Shape s)
    (ht : Timed s) : ∃ es, Path s es (storeForPlay cart key s) := by
  unfold storeForPlay
  split
  · exact syncCurrentCartridge_path cart hs ht
  · exact ⟨[], .nil s⟩

/-- **Every event is a path of changes.** -/
theorem processEvent_path (cart : Cartridge) (event : Event) {s : Store} (hs : Shape s)
    (ht : Timed s) : ∃ es, Path s es (processEvent cart event s).1 := by
  cases event with
  | syncCurrentCartridge => exact syncCurrentCartridge_path cart hs ht
  | countablePlay track =>
    obtain ⟨es, hpath⟩ :=
      storeForPlay_path cart (track.cartridgeChecksum, track.trackIndex) hs ht
    have happly := applyCountablePlay_spec cart hs ht track
    dsimp only at happly
    rw [processEvent_countablePlay]
    split at happly
    · exact ⟨_, hpath.append happly⟩
    · exact ⟨es, by rw [happly]; exact hpath⟩
  | clear => exact ⟨[.forget], .cons (.forget s) (.silent (.dirty _))⟩
  | rebuild =>
    have hreset : Path s [.forget] { resetCache s with dirty := true } :=
      .cons (.forget s) (.silent (.dirty _))
    obtain ⟨es, hpath⟩ := syncCurrentCartridge_path cart (hreset.shape hs)
      (Timed.forget { s with dirty := true })
    exact ⟨_, hreset.append hpath⟩

/-! ## Loading -/

theorem holds_ofList_records {n : Nat} {α : Type} {t : Table n α} {a : α} :
    Holds (ofList (records t) : Table n α) a ↔ Holds t a := by
  rw [holds_ofList ((length_records t).trans_le (inUse_le t)), mem_records]

theorem inUse_ofList_records {n : Nat} {α : Type} (t : Table n α) :
    inUse (ofList (records t) : Table n α) = inUse t := by
  rw [inUse_ofList ((length_records t).trans_le (inUse_le t)), length_records]

theorem Shape.compacted {s : Store} (h : Shape s) : Shape (compacted s) where
  albumCount := h.albumCount.trans (inUse_ofList_records s.albums).symm
  trackCount := h.trackCount.trans (inUse_ofList_records s.tracks).symm
  albums := keyed_ofList h.albums.records_nodup
  tracks := keyed_ofList h.tracks.records_nodup
  home t ht := by
    obtain ⟨a, ha, hat⟩ := h.home t (holds_ofList_records.mp ht)
    exact ⟨a, holds_ofList_records.mpr ha, hat⟩
  index t ht := h.index t (holds_ofList_records.mp ht)

theorem Timed.compacted {s : Store} (h : Timed s) : Timed (compacted s) where
  next := h.next
  albums a ha := h.albums a (holds_ofList_records.mp ha)
  order := keyed_ofList h.order.records_nodup
  plays_lt t ht := h.plays_lt t (holds_ofList_records.mp ht)

/-! ## The stores reached -/

/-- The stores the service can be in before the sequence counter wraps: after a
reset, after an event with any cartridge inserted, or after loading a file it
once wrote, whatever came since. -/
inductive Reachable : Store → Prop where
  | reset (s : Store) : Reachable { resetCache s with wrapped := false }
  | event {s : Store} (h : Reachable s) (cart : Cartridge) (event : Event)
      (hw : (processEvent cart event s).1.wrapped = false) :
      Reachable (processEvent cart event s).1
  | load {s : Store} {blob : List UInt8} (h : Reachable s)
      (hbuild : buildSerializedBlob s = .ok blob) (u : Store) :
      Reachable { (loadFromSerializedBytes blob u).1 with wrapped := false }

theorem nextSequence_ne_zero {s : Store} (ht : Timed s) : s.nextSequence ≠ 0 := by
  intro heq
  have hnext := ht.next
  rw [heq] at hnext
  exact absurd hnext (Nat.lt_irrefl 0)

theorem Reachable.sound {s : Store} (h : Reachable s) :
    Shape s ∧ Timed s ∧ s.wrapped = false := by
  induction h with
  | reset s => exact ⟨.forget { s with wrapped := false }, .forget { s with wrapped := false }, rfl⟩
  | @event s _ cart event hw ih =>
    obtain ⟨hs, ht, -⟩ := ih
    obtain ⟨es, hpath⟩ := processEvent_path cart event hs ht
    exact ⟨hpath.shape hs, hpath.timed hs ht hw, hw⟩
  | load _ hbuild u ih =>
    obtain ⟨hs, ht, -⟩ := ih
    rw [load_buildSerializedBlob hs.albumCount hs.trackCount (nextSequence_ne_zero ht) hbuild u]
    have hshape := Shape.compacted hs
    have htimed := Timed.compacted ht
    exact ⟨{ hshape with }, { htimed with }, rfl⟩

/-! ## A cartridge with one track -/

def emptyStore : Store := ⟨1, 0, 0, empty, empty, false, false⟩

/-- A cartridge with one track, of checksum 7. -/
def oneTrack : Metadata where
  header := ⟨[1, 0, 0, 0, 7, 0, 0, 0] ++ List.replicate 1640 0 ++ [1, 0, 0, 0], by decide +kernel⟩
  tracks := [.zero]
  trackCount_eq := by decide +kernel
  tracks_le := by decide

def oneTrackCartridge : Cartridge := ⟨true, some oneTrack⟩

def oneTrackPlay : TrackEvent := ⟨7, 0, 1, 0, 30, []⟩

end Jukeboy.PlayHistory.Invariant
