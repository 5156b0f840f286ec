import Jukeboy.Base.Runs
import Jukeboy.Player.Track

/-! # The lookup window serves the whole table

A window that was loaded and validated agrees with the table of the file on
every chunk it contains. What a call answers is therefore the bounds the whole
table gives, while *whether* it answers depends on the entries of the window
that is loaded for it. -/
namespace Jukeboy.Player.LookupWindow
open Jukeboy.Base Jukeboy.Base.Runs Jukeboy.Base.LittleEndian Jukeboy.Formats.Jba
open Jukeboy.Player.Track

variable {file : List UInt8} {info : TrackInfo} {io : WindowIo} {i : Nat}

/-! ## The whole table -/

/-- The bounds of chunk `i` computed from the whole table at once. -/
def tableBounds (file : List UInt8) (info : TrackInfo) (i : Nat) : Nat × Nat :=
  (tableEntry file i, if i + 1 < info.lookupTableLen then tableEntry file (i + 1) else info.dataLen)

/-- Bounds the player can serve: inside the data area, longer than the CRC,
and at most 24 KiB apart. -/
def BoundsValid (info : TrackInfo) (b : Nat × Nat) : Prop :=
  b.1 ≤ b.2 ∧ b.2 ≤ info.dataLen ∧ 4 < b.2 - b.1 ∧ b.2 - b.1 ≤ 24 * 1024

instance (info : TrackInfo) (b : Nat × Nat) : Decidable (BoundsValid info b) :=
  inferInstanceAs (Decidable (_ ∧ _ ∧ _ ∧ _))

theorem chunkValid_iff {start stop : Nat} :
    chunkValid info.dataLen start stop = true ↔ BoundsValid info (start, stop) := by
  simp only [chunkValid, BoundsValid, Bool.and_eq_true, Bool.not_eq_true',
    Bool.or_eq_false_iff, decide_eq_false_iff_not]
  simp only [chunkCrcBytes, chunkMaxBytes]
  omega

/-- The geometry `loadTrackInfo` accepts: the table lies before the data, and
the data lies in the file. -/
structure Geometry (file : List UInt8) (info : TrackInfo) : Prop where
  table_fits : headerLen + info.lookupTableLen * 4 ≤ info.dataOffset
  data_pos : info.dataOffset < info.totalFileSize
  size_le : info.totalFileSize ≤ file.length

/-- The geometry fields of two track descriptions agree; only the window differs. -/
structure SameTrack (info info' : TrackInfo) : Prop where
  lookupTableLen : info'.lookupTableLen = info.lookupTableLen
  dataOffset : info'.dataOffset = info.dataOffset
  totalFileSize : info'.totalFileSize = info.totalFileSize

namespace SameTrack

theorem refl (info : TrackInfo) : SameTrack info info := ⟨rfl, rfl, rfl⟩

theorem trans {a b c : TrackInfo} (h : SameTrack a b) (h' : SameTrack b c) : SameTrack a c :=
  ⟨h'.1.trans h.1, h'.2.trans h.2, h'.3.trans h.3⟩

theorem dataLen {a b : TrackInfo} (h : SameTrack a b) : b.dataLen = a.dataLen := by
  simp only [TrackInfo.dataLen, h.dataOffset, h.totalFileSize]

theorem tableBounds {a b : TrackInfo} (h : SameTrack a b) (i : Nat) :
    tableBounds file b i = tableBounds file a i := by
  simp only [LookupWindow.tableBounds, h.lookupTableLen, h.dataLen]

theorem boundsValid {a b : TrackInfo} (h : SameTrack a b) (p : Nat × Nat) :
    BoundsValid b p ↔ BoundsValid a p := by
  simp only [BoundsValid, h.dataLen]

theorem geometry {a b : TrackInfo} (h : SameTrack a b) (hg : Geometry file a) :
    Geometry file b :=
  ⟨by rw [h.lookupTableLen, h.dataOffset]; exact hg.1,
    by rw [h.dataOffset, h.totalFileSize]; exact hg.2, by rw [h.totalFileSize]; exact hg.3⟩

theorem invalidate (info : TrackInfo) : SameTrack info (invalidateLookupWindow info) :=
  ⟨rfl, rfl, rfl⟩

theorem readWindow (file : List UInt8) (info : TrackInfo) (i : Nat) :
    SameTrack info (readWindow file info i) :=
  ⟨rfl, rfl, rfl⟩

end SameTrack

/-! ## The window invariant -/

/-- The window lies inside the table, holds its entries, and every chunk it
contains has valid bounds. An invalidated window is the empty one. -/
structure WindowOk (file : List UInt8) (info : TrackInfo) : Prop where
  length_window : info.lookupWindow.length = lookupWindowEntries
  count_le : info.lookupWindowEntryCount ≤ lookupWindowEntries
  in_table : info.lookupWindowStart + info.lookupWindowEntryCount ≤ info.lookupTableLen
  entry : ∀ k, k < info.lookupWindowEntryCount →
    info.lookupWindow[k]? = some (tableEntry file (info.lookupWindowStart + k))
  valid : ∀ i, lookupWindowContainsChunk info i = true → BoundsValid info (tableBounds file info i)

/-- What it is for the window to contain a chunk: its entry is there, and so is
the entry that ends it, unless it is the last chunk of the track. -/
theorem contains_iff :
    lookupWindowContainsChunk info i = true ↔
      info.lookupWindowStart ≤ i ∧ i < info.lookupTableLen ∧
        (i + 1 < info.lookupWindowStart + info.lookupWindowEntryCount ∨
          i + 1 = info.lookupTableLen ∧
            i + 1 = info.lookupWindowStart + info.lookupWindowEntryCount) := by
  simp only [lookupWindowContainsChunk]
  split
  · simp only [Bool.false_eq_true, false_iff]
    omega
  · split
    · simp only [true_iff]
      omega
    · simp only [Bool.and_eq_true, decide_eq_true_eq]
      omega

/-- The invalidated window is good, whatever the file holds. -/
theorem windowOk_invalidate (file : List UInt8) (info : TrackInfo) :
    WindowOk file (invalidateLookupWindow info) where
  length_window := by simp [invalidateLookupWindow]
  count_le := Nat.zero_le _
  in_table := Nat.zero_le _
  entry k hk := absurd hk (Nat.not_lt_zero k)
  valid i hi := by simp [lookupWindowContainsChunk, invalidateLookupWindow] at hi

/-- **A read inside the window is a read of the table.** -/
theorem readBounds_of_contains (hw : WindowOk file info)
    (hc : lookupWindowContainsChunk info i = true) :
    readBounds info i = some (tableBounds file info i) := by
  obtain ⟨hstart, hlt, hin⟩ := contains_iff.mp hc
  have hk : i - info.lookupWindowStart < info.lookupWindowEntryCount := by omega
  have hentry := hw.entry _ hk
  rw [show info.lookupWindowStart + (i - info.lookupWindowStart) = i by omega] at hentry
  simp only [readBounds, hentry, Option.bind_some, tableBounds]
  by_cases hnext : i - info.lookupWindowStart + 1 < info.lookupWindowEntryCount
  · have hlt' : i + 1 < info.lookupTableLen := by have := hw.in_table; omega
    have hentry' := hw.entry _ hnext
    rw [show info.lookupWindowStart + (i - info.lookupWindowStart + 1) = i + 1 by omega]
      at hentry'
    rw [if_pos hnext, if_pos hlt', hentry', Option.map_some]
  · have hlast : ¬ i + 1 < info.lookupTableLen := by omega
    rw [if_neg hnext, if_neg hlast]

/-! ## Loading a window -/

theorem windowEntryCount_le (len start : Nat) : windowEntryCount len start ≤ lookupWindowEntries :=
  Nat.min_le_right _ _

/-- The window that was just read holds the entries of the table. -/
theorem readWindow_entry {k : Nat} (hk : k < windowEntryCount info.lookupTableLen i) :
    (readWindow file info i).lookupWindow[k]? = some (tableEntry file (i + k)) := by
  simp only [readWindow]
  rw [List.getElem?_append_left (by simpa using hk)]
  simp [hk]

theorem length_readWindow (hw : info.lookupWindow.length = lookupWindowEntries) :
    (readWindow file info i).lookupWindow.length = lookupWindowEntries := by
  have := windowEntryCount_le info.lookupTableLen i
  simp only [readWindow, List.length_append, List.length_map, List.length_range,
    List.length_drop]
  omega

/-- The chunks a fresh window at `i` is validated for. -/
def loadChecks (file : List UInt8) (info : TrackInfo) (i : Nat) : Prop :=
  (i = 0 → tableEntry file 0 = 0) ∧
    ∀ j, i ≤ j → j < i + windowChunkCount info.lookupTableLen i →
      BoundsValid info (tableBounds file info j)

theorem windowChunkCount_le (len start : Nat) :
    windowChunkCount len start ≤ windowEntryCount len start := by
  simp only [windowChunkCount]
  split <;> omega

/-- A check of the validation loop is a check of the table. -/
theorem windowChunkValid_readWindow {k : Nat} (hi : i < info.lookupTableLen)
    (hk : k < windowChunkCount info.lookupTableLen i) :
    windowChunkValid (readWindow file info i) k = true ↔
      BoundsValid info (tableBounds file info (i + k)) := by
  have hlt := Nat.lt_of_lt_of_le hk (windowChunkCount_le _ _)
  have hend : windowChunkEnd (readWindow file info i).lookupWindow
      (readWindow file info i).lookupWindowEntryCount (readWindow file info i).dataLen k =
      (tableBounds file info (i + k)).2 := by
    change windowChunkEnd _ (windowEntryCount info.lookupTableLen i) info.dataLen k = _
    simp only [windowChunkEnd, tableBounds]
    have hcount : windowEntryCount info.lookupTableLen i ≤ info.lookupTableLen - i :=
      Nat.min_le_left _ _
    by_cases hnext : k + 1 < windowEntryCount info.lookupTableLen i
    · rw [if_pos hnext, if_pos (by omega), List.getD_eq_getElem?_getD, readWindow_entry hnext]
      rfl
    · -- the entry is the last one of the window, so the loop reaches it only at the table's end
      have hlast : ¬ i + k + 1 < info.lookupTableLen := by
        simp only [windowChunkCount] at hk
        split at hk <;> omega
      rw [if_neg hnext, if_neg hlast]
  simp only [windowChunkValid, hend, List.getD_eq_getElem?_getD, readWindow_entry hlt,
    Option.getD_some]
  exact chunkValid_iff

theorem all_windowChunkValid_iff (hi : i < info.lookupTableLen) :
    (List.range (windowChunkCount info.lookupTableLen i)).all
        (windowChunkValid (readWindow file info i)) = true ↔
      ∀ j, i ≤ j → j < i + windowChunkCount info.lookupTableLen i →
        BoundsValid info (tableBounds file info j) := by
  simp only [List.all_eq_true, List.mem_range]
  constructor
  · intro h j hij hj
    obtain ⟨k, rfl⟩ := Nat.exists_eq_add_of_le hij
    have hk : k < windowChunkCount info.lookupTableLen i := by omega
    exact (windowChunkValid_readWindow hi hk).mp (h k hk)
  · intro h k hk
    exact (windowChunkValid_readWindow hi hk).mpr (h (i + k) (by omega) (by omega))

theorem windowEntryCount_pos (hi : i < info.lookupTableLen) :
    0 < windowEntryCount info.lookupTableLen i := by
  simp only [windowEntryCount, lookupWindowEntries, lookupWindowChunks]
  omega

/-- A fill returns the window that was read, and only when the file can be read
and every check passes. -/
theorem fillLookupWindow_ok_iff {loaded : TrackInfo} (hg : Geometry file info)
    (hi : i < info.lookupTableLen) :
    fillLookupWindow file io info i = .ok loaded ↔
      loaded = readWindow file info i ∧ io.good ∧ loadChecks file info i := by
  have hcount : windowEntryCount info.lookupTableLen i ≤ info.lookupTableLen - i :=
    Nat.min_le_left _ _
  have hrange : ¬ (headerLen + i * 4 > info.dataOffset ∨
      windowEntryCount info.lookupTableLen i * 4 > info.dataOffset - (headerLen + i * 4)) := by
    have := hg.table_fits
    omega
  have hfile : ¬ file.length < headerLen + i * 4 + windowEntryCount info.lookupTableLen i * 4 := by
    have := hg.table_fits
    have := hg.data_pos
    have := hg.size_le
    omega
  have hzero : (i == 0 && (readWindow file info i).lookupWindow.getD 0 0 != 0) = false ↔
      (i = 0 → tableEntry file 0 = 0) := by
    rw [List.getD_eq_getElem?_getD, readWindow_entry (windowEntryCount_pos hi)]
    by_cases h0 : i = 0 <;> simp [h0]
  have hall := @all_windowChunkValid_iff file info i hi
  simp only [fillLookupWindow, failIf_bind_ok_iff, decide_eq_false hrange, decide_eq_false hfile,
    Bool.or_false, Bool.not_eq_false', hzero, hall, WindowIo.good, loadChecks, pure,
    Except.pure, Except.ok.injEq, true_and]
  tauto

theorem fillLookupWindow_ne_error_ok : fillLookupWindow file io info i ≠ .error .ok := by
  simp only [fillLookupWindow]
  iterate 8 refine failIf_bind_ne_error_ok (fun _ => by decide) ?_
  exact fun h => by cases h

/-- Everything a window load can do: keep the track and return the window that
was read and checked, or leave the window empty or as it was. -/
theorem loadLookupWindow_cases (io : WindowIo) (i : Nat) (hg : Geometry file info) :
    (i < info.lookupTableLen ∧ io.good ∧ loadChecks file info i ∧
        loadLookupWindow file io info i = (.ok, readWindow file info i)) ∨
      ∃ err, err ≠ .ok ∧ (loadLookupWindow file io info i = (err, info) ∨
        loadLookupWindow file io info i = (err, invalidateLookupWindow info)) := by
  by_cases hi : i < info.lookupTableLen
  · simp only [loadLookupWindow, if_neg (Nat.not_le_of_lt hi)]
    cases hfill : fillLookupWindow file io info i with
    | ok loaded =>
      obtain ⟨rfl, hio, hchecks⟩ := (fillLookupWindow_ok_iff hg hi).mp hfill
      exact .inl ⟨hi, hio, hchecks, rfl⟩
    | error err =>
      exact .inr ⟨err, fun h => fillLookupWindow_ne_error_ok (h ▸ hfill), .inr rfl⟩
  · exact .inr ⟨.invalidArg, by decide, .inl (by rw [loadLookupWindow, if_pos (by omega)])⟩

/-- A load succeeds when the file can be read and the checks pass. -/
theorem loadLookupWindow_ok (hg : Geometry file info) (hi : i < info.lookupTableLen)
    (hio : io.good) (hchecks : loadChecks file info i) :
    loadLookupWindow file io info i = (.ok, readWindow file info i) := by
  rw [loadLookupWindow, if_neg (Nat.not_le_of_lt hi),
    (fillLookupWindow_ok_iff hg hi).mpr ⟨rfl, hio, hchecks⟩]

/-- The window a successful load leaves behind is good. -/
theorem windowOk_readWindow (hw : WindowOk file info) (hi : i < info.lookupTableLen)
    (hchecks : loadChecks file info i) : WindowOk file (readWindow file info i) where
  length_window := length_readWindow hw.length_window
  count_le := windowEntryCount_le _ _
  in_table := by
    change i + min (info.lookupTableLen - i) _ ≤ info.lookupTableLen
    omega
  entry _ hk := readWindow_entry hk
  valid j hj := by
    obtain ⟨hij, hlt, hin⟩ := contains_iff.mp hj
    change i ≤ j at hij
    change j < info.lookupTableLen at hlt
    change j + 1 < i + windowEntryCount info.lookupTableLen i ∨
      j + 1 = info.lookupTableLen ∧ j + 1 = i + windowEntryCount info.lookupTableLen i at hin
    refine hchecks.2 j hij ?_
    simp only [windowChunkCount]
    split <;> omega

theorem contains_readWindow (file : List UInt8) (hi : i < info.lookupTableLen) :
    lookupWindowContainsChunk (readWindow file info i) i = true := by
  refine contains_iff.mpr ⟨Nat.le_refl _, hi, ?_⟩
  change i + 1 < i + windowEntryCount info.lookupTableLen i ∨
    i + 1 = info.lookupTableLen ∧ i + 1 = i + windowEntryCount info.lookupTableLen i
  simp only [windowEntryCount, lookupWindowEntries, lookupWindowChunks]
  omega

/-! ## One call -/

/-- Making sure of the window keeps the track and the window invariant, and
when it succeeds the window contains the chunk. -/
theorem ensureWindow_spec (io : WindowIo) (i : Nat) (hg : Geometry file info)
    (hw : WindowOk file info) :
    SameTrack info (ensureWindow file io info i).2 ∧ WindowOk file (ensureWindow file io info i).2 ∧
      ((ensureWindow file io info i).1 = .ok →
        lookupWindowContainsChunk (ensureWindow file io info i).2 i = true) := by
  simp only [ensureWindow]
  split_ifs with hlen hin
  · exact ⟨.refl _, hw, fun h => by cases h⟩
  · exact ⟨.refl _, hw, fun _ => hin⟩
  · rcases loadLookupWindow_cases io i hg with
      ⟨hi, -, hchecks, heq⟩ | ⟨err, herr, heq | heq⟩
    · rw [heq]
      exact ⟨.readWindow .., windowOk_readWindow hw hi hchecks, fun _ => contains_readWindow file hi⟩
    · rw [heq]
      exact ⟨.refl _, hw, fun h => absurd h herr⟩
    · rw [heq]
      exact ⟨.invalidate _, windowOk_invalidate file info, fun h => absurd h herr⟩

/-- A call succeeds exactly when its window does, with the bounds of the table. -/
theorem getChunkBounds_eq (io : WindowIo) (i : Nat) (hg : Geometry file info)
    (hw : WindowOk file info) :
    getChunkBounds file io info i =
      (if (ensureWindow file io info i).1 = .ok then .ok (some (tableBounds file info i))
        else .error (ensureWindow file io info i).1, (ensureWindow file io info i).2) := by
  obtain ⟨hsame, hw', hin⟩ := ensureWindow_spec io i hg hw
  simp only [getChunkBounds]
  generalize ensureWindow file io info i = r at *
  obtain ⟨err, info'⟩ := r
  by_cases herr : err = .ok
  · subst herr
    simp only [if_pos, readBounds_of_contains hw' (hin rfl), hsame.tableBounds]
  · simp only [if_neg herr]

/-- The window a call needs is there, or its load passes. -/
theorem ensureWindow_ok_iff (hg : Geometry file info) :
    (ensureWindow file io info i).1 = .ok ↔
      i < info.lookupTableLen ∧
        (lookupWindowContainsChunk info i = true ∨ io.good ∧ loadChecks file info i) := by
  simp only [ensureWindow]
  split_ifs with hlen hin
  · simp only [false_iff, not_and]
    exact fun hi => absurd hi (Nat.not_lt_of_le hlen)
  · exact ⟨fun _ => ⟨Nat.lt_of_not_le hlen, .inl hin⟩, fun _ => rfl⟩
  · constructor
    · intro hok
      rcases loadLookupWindow_cases io i hg with
        ⟨hi, hio, hchecks, -⟩ | ⟨err, herr, heq | heq⟩
      · exact ⟨hi, .inr ⟨hio, hchecks⟩⟩
      · rw [heq] at hok
        exact absurd hok herr
      · rw [heq] at hok
        exact absurd hok herr
    · rintro ⟨hi, h | ⟨hio, hchecks⟩⟩
      · exact absurd h hin
      · rw [loadLookupWindow_ok hg hi hio hchecks]

/-! ## Sequences of calls and invalidations -/

/-- What happens to the window: calls for any chunk, and invalidations. -/
inductive WindowOp where
  | getChunkBounds (io : WindowIo) (chunkIndex : Nat)
  | invalidate

def windowStep (file : List UInt8) (info : TrackInfo) : WindowOp → Option TrackInfo
  | .getChunkBounds io i => some (getChunkBounds file io info i).2
  | .invalidate => some (invalidateLookupWindow info)

/-- The whole table is one the player can serve. -/
def TableValid (file : List UInt8) (info : TrackInfo) : Prop :=
  tableEntry file 0 = 0 ∧ ∀ j, j < info.lookupTableLen → BoundsValid info (tableBounds file info j)

/-- What a call answers on the track `track` when the window of `info` is loaded. -/
structure ServesTable (file : List UInt8) (track info : TrackInfo) (io : WindowIo) (i : Nat) :
    Prop where
  sound : ∀ b, (getChunkBounds file io info i).1 = .ok b →
    b = some (tableBounds file track i) ∧ i < track.lookupTableLen ∧
      BoundsValid track (tableBounds file track i)
  contained : lookupWindowContainsChunk info i = true →
    (getChunkBounds file io info i).1 = .ok (some (tableBounds file track i))
  loaded : lookupWindowContainsChunk info i = false →
    ((∃ b, (getChunkBounds file io info i).1 = .ok b) ↔
      i < track.lookupTableLen ∧ io.good ∧ loadChecks file track i)
  whole : TableValid file track → i < track.lookupTableLen → io.good →
    (getChunkBounds file io info i).1 = .ok (some (tableBounds file track i))

/-- What the window invariant gives of one call. -/
def CallMeets (file : List UInt8) (track info : TrackInfo) : WindowOp → Prop
  | .getChunkBounds io i => ServesTable file track info io i
  | .invalidate => True

theorem windowChunkCount_pos (hi : i < info.lookupTableLen) :
    0 < windowChunkCount info.lookupTableLen i := by
  have : windowEntryCount info.lookupTableLen i = min (info.lookupTableLen - i) 51 := rfl
  simp only [windowChunkCount]
  split <;> omega

theorem windowChunkCount_in_table (len start : Nat) (h : start < len) :
    start + windowChunkCount len start ≤ len := by
  have := windowChunkCount_le len start
  have : windowEntryCount len start ≤ len - start := Nat.min_le_left _ _
  omega

theorem loadChecks_of_tableValid (h : TableValid file info) (hi : i < info.lookupTableLen) :
    loadChecks file info i := by
  refine ⟨fun _ => h.1, fun j _ hj => h.2 j ?_⟩
  have := windowChunkCount_in_table info.lookupTableLen i hi
  omega

theorem loadChecks_congr {track : TrackInfo} (h : SameTrack track info) :
    loadChecks file info i ↔ loadChecks file track i := by
  simp only [loadChecks, h.lookupTableLen, h.tableBounds, h.boundsValid]

theorem getChunkBounds_fst_ok {track : TrackInfo} (hsame : SameTrack track info)
    (hg : Geometry file track) (hw : WindowOk file info) (b : Option (Nat × Nat)) :
    (getChunkBounds file io info i).1 = .ok b ↔
      b = some (tableBounds file track i) ∧ i < track.lookupTableLen ∧
        (lookupWindowContainsChunk info i = true ∨ io.good ∧ loadChecks file track i) := by
  have hiff := @ensureWindow_ok_iff file info io i (hsame.geometry hg)
  rw [loadChecks_congr hsame, hsame.lookupTableLen] at hiff
  rw [getChunkBounds_eq io i (hsame.geometry hg) hw, ← hiff, hsame.tableBounds]
  by_cases hok : (ensureWindow file io info i).1 = .ok
  · rw [if_pos hok, Except.ok.injEq, and_iff_left hok]
    exact eq_comm
  · rw [if_neg hok]
    exact ⟨fun h => (by cases h), fun h => absurd h.2 hok⟩

theorem servesTable_of_windowOk {track : TrackInfo} (hsame : SameTrack track info)
    (hg : Geometry file track) (hw : WindowOk file info) (io : WindowIo) (i : Nat) :
    ServesTable file track info io i where
  sound b hb := by
    obtain ⟨rfl, hi, hin⟩ := (getChunkBounds_fst_ok hsame hg hw b).mp hb
    refine ⟨rfl, hi, ?_⟩
    rcases hin with hin | ⟨-, hchecks⟩
    · have := hw.valid i hin
      rwa [hsame.tableBounds, hsame.boundsValid] at this
    · -- the load at `i` validates at least chunk `i` itself
      refine hchecks.2 i (Nat.le_refl i) ?_
      have := windowChunkCount_pos hi
      omega
  contained hin := by
    have hlt := (contains_iff.mp hin).2.1
    rw [hsame.lookupTableLen] at hlt
    exact (getChunkBounds_fst_ok hsame hg hw _).mpr ⟨rfl, hlt, .inl hin⟩
  loaded hout := by
    simp only [getChunkBounds_fst_ok hsame hg hw, hout, Bool.false_eq_true, false_or,
      exists_eq_left]
  whole hv hi hio :=
    (getChunkBounds_fst_ok hsame hg hw _).mpr
      ⟨rfl, hi, .inr ⟨hio, loadChecks_of_tableValid hv hi⟩⟩

/-- What every state of a run keeps: the track it was loaded for, and the window invariant. -/
structure RunInv (file : List UInt8) (track info : TrackInfo) : Prop where
  geometry : Geometry file track
  same : SameTrack track info
  window : WindowOk file info

theorem runInv_step {track t : TrackInfo} (op : WindowOp) (h : RunInv file track info)
    (hstep : windowStep file info op = some t) : RunInv file track t := by
  cases op with
  | getChunkBounds io i =>
    simp only [windowStep, Option.some.injEq] at hstep
    have hg := h.same.geometry h.geometry
    obtain ⟨hsame, hw, -⟩ := ensureWindow_spec io i hg h.window
    rw [getChunkBounds_eq io i hg h.window] at hstep
    subst hstep
    exact ⟨h.geometry, h.same.trans hsame, hw⟩
  | invalidate =>
    simp only [windowStep, Option.some.injEq] at hstep
    subst hstep
    exact ⟨h.geometry, h.same.trans (.invalidate info), windowOk_invalidate file info⟩

theorem statSize_le (length : Nat) : statSize length ≤ length := by
  have hmod := Nat.mod_le length (2 ^ 32)
  simp only [statSize]
  split_ifs <;> omega

/-- What an accepted header says about the file and the window. -/
theorem loadTrackInfo_inv {filename : Nat} {io : LoadIo} {track : TrackInfo}
    (h : loadTrackInfo filename io file = .ok track) :
    Geometry file track ∧ WindowOk file track := by
  simp only [loadTrackInfo, failIf_bind_ok_iff, decide_eq_false_iff_not] at h
  obtain ⟨-, -, -, -, -, -, -, -, -, hsize, htable, heq⟩ := h
  cases heq
  have := statSize_le file.length
  refine ⟨⟨Nat.le_of_not_lt htable, ?_, ?_⟩, windowOk_invalidate file _⟩
  all_goals
    simp only [invalidateLookupWindow]
    omega

theorem RunInv.of_load {filename : Nat} {io : LoadIo} {track : TrackInfo}
    (h : loadTrackInfo filename io file = .ok track) : RunInv file track track :=
  ⟨(loadTrackInfo_inv h).1, .refl track, (loadTrackInfo_inv h).2⟩

theorem RunInv.run {track : TrackInfo} {s t : TrackInfo} {ops : List WindowOp}
    (h : RunInv file track s) (hrun : Runs.run (windowStep file) s ops = some t) :
    RunInv file track t :=
  run_invariant (fun _ op _ hs _ hstep => runInv_step op hs hstep) h (along_true ops) hrun

/-- **The window is transparent for the answers it gives.** For every file the
player accepts and every sequence of calls and invalidations, a call that
succeeds returns the bounds of the whole table, and these are valid. A chunk
the window contains is always served; for any other chunk a window is loaded,
which succeeds exactly when the file can be read and every chunk of that window
is valid. -/
theorem chunk_bounds_transparent {filename : Nat} {io : LoadIo} {track : TrackInfo}
    (h : loadTrackInfo filename io file = .ok track) (ops : List WindowOp) :
    Along (windowStep file) (CallMeets file track) track ops := by
  refine along_of_invariant (fun s op t hs _ hstep => runInv_step op hs hstep)
    (fun s op hs _ => ?_) (RunInv.of_load h) (along_true ops)
  cases op with
  | getChunkBounds io i => exact servesTable_of_windowOk hs.same hs.geometry hs.window io i
  | invalidate => trivial

/-- A track of 52 chunks whose chunk 50 is empty and whose other chunks hold five bytes. -/
def unevenFile : List UInt8 :=
  [1] ++ leBytes 4 1 ++ leBytes 4 52 ++
    (List.range 51).flatMap (fun i => leBytes 4 (5 * i)) ++ leBytes 4 250 ++
    List.replicate (512 - (headerLen + 4 * 52)) 0 ++ List.replicate 255 0

def unevenTrack : TrackInfo :=
  { TrackInfo.zero with
    filename := some 0, lookupTableLen := 52, dataOffset := 512, totalFileSize := 767 }

theorem loadTrackInfo_unevenFile : loadTrackInfo 0 {} unevenFile = .ok unevenTrack := by
  decide +kernel

theorem chunk_bounds_transparent_unevenFile :
    Along (windowStep unevenFile) (CallMeets unevenFile unevenTrack) unevenTrack
      [.getChunkBounds {} 0, .getChunkBounds {} 1, .invalidate, .getChunkBounds {} 1] :=
  chunk_bounds_transparent loadTrackInfo_unevenFile _

/-- Whether a chunk is served depends on the window: chunk 1 is, from the window
loaded for chunk 0, and is not when a window is loaded for it, because that
window is the first to reach the empty chunk 50. -/
theorem chunk_bounds_depend_on_window :
    ¬ ∀ (file : List UInt8) (filename : Nat) (track info : TrackInfo) (ops : List WindowOp)
      (i : Nat), loadTrackInfo filename {} file = .ok track →
      run (windowStep file) track ops = some info →
      (getChunkBounds file {} info i).1 = (getChunkBounds file {} track i).1 := by
  intro h
  have heq := h unevenFile 0 unevenTrack (getChunkBounds unevenFile {} unevenTrack 0).2
    [.getChunkBounds {} 0] 1 loadTrackInfo_unevenFile rfl
  have hserved : (getChunkBounds unevenFile {} (getChunkBounds unevenFile {} unevenTrack 0).2 1).1 =
      .ok (some (5, 10)) := by decide +kernel
  have hrefused : (getChunkBounds unevenFile {} unevenTrack 1).1 = .error .fail := by
    decide +kernel
  rw [hserved, hrefused] at heq
  cases heq

end Jukeboy.Player.LookupWindow
