import Jukeboy.Base.Filling
import Jukeboy.Base.Runs
import Jukeboy.CompanionApi.TlvRoundTrip

/-! # Paged responses

A page holds the entries from the requested offset on, until one does not fit, and the
count of them behind. The append of the count is not checked: where the entries leave
less than its eight bytes, the page has none. Only the tracks of the playlist have
names long enough for that. -/
namespace Jukeboy.CompanionApi.Pages

open Jukeboy.Base Jukeboy.Base.Runs Jukeboy.Base.Filling
open Jukeboy.CompanionApi.Tlv Jukeboy.CompanionApi.ServiceHandlers
open Jukeboy.CompanionApi.TlvRoundTrip

/-! ## What is listed -/

/-- What the services list, with names that fit their fields. -/
structure Contents where
  tracks : List PlaylistTrack
  accessPoints : List WifiAp
  albums : List HistoryAlbum
  albumTracks : UInt32 → List HistoryTrack
  tracks_le : tracks.length ≤ 999
  accessPoints_le : accessPoints.length ≤ 20
  albums_le : albums.length ≤ 50
  albumTracks_le : ∀ checksum, (albumTracks checksum).length ≤ 1000
  track_names : ∀ t ∈ tracks, t.trackTitle.length < 128 ∧ t.trackArtists.length < 256
  ssids : ∀ r ∈ accessPoints, r.ssid.length < 33
  album_names : ∀ r ∈ albums, r.albumName.length < 128 ∧ r.artist.length < 256
  albumTrack_names : ∀ checksum, ∀ r ∈ albumTracks checksum, r.trackName.length < 128

/-- The services while they list this. -/
def Contents.services (c : Contents) (sv : Services) : Services :=
  { sv with
    playlistTrackCount := .ofNat c.tracks.length
    playlistTrackInfo := fun index => c.tracks[index.toNat]?
    wifi := { sv.wifi with scanResults := .ok c.accessPoints }
    history := { sv.history with
      albumCount := .ofNat c.albums.length
      albumRecord := fun slot => c.albums[slot.toNat]?
      albumTrackCount := fun checksum => .ofNat (c.albumTracks checksum).length
      albumTrackRecord := fun checksum slot => (c.albumTracks checksum)[slot.toNat]? } }

/-- The paged requests; a page of an album's tracks names the album. -/
inductive PageKind where
  | tracks
  | scanResults
  | albums
  | albumTracks (checksum : UInt32)
deriving DecidableEq

/-- An entry of a page, TLV by TLV. -/
abbrev Entry := List (TlvType × Bytes)

def trackEntry (t : PlaylistTrack) : Entry :=
  [(.trackIndex, u32Bytes t.trackIndex), (.trackTitle, stringBytes t.trackTitle),
    (.trackArtist, stringBytes t.trackArtists), (.durationSec, u32Bytes t.durationSec),
    (.trackFile, u32Bytes t.fileNum)]

def accessPointEntry (r : WifiAp) : Entry :=
  [(.wifiSsid, stringBytes r.ssid), (.wifiRssi, u32Bytes (UInt32.ofInt r.rssi.toInt)),
    (.wifiChannel, [r.primary]), (.wifiAuthmode, [r.authmode])]

def albumEntry (r : HistoryAlbum) : Entry :=
  [(.cartridgeChecksum, u32Bytes r.checksum), (.trackCount, u32Bytes r.trackCount),
    (.historyFirstSeen, u32Bytes r.firstSeenSequence),
    (.historyLastSeen, u32Bytes r.lastSeenSequence),
    (.albumName, stringBytes r.albumName), (.albumArtist, stringBytes r.artist)]

def albumTrackEntry (r : HistoryTrack) : Entry :=
  [(.trackIndex, u32Bytes r.trackIndex), (.trackTitle, stringBytes r.trackName),
    (.historyPlayCount, u32Bytes r.playCount), (.historyFirstSeen, u32Bytes r.firstSeenSequence),
    (.historyLastSeen, u32Bytes r.lastSeenSequence)]

namespace PageKind

variable (c : Contents) (sv : Services)

def handler : PageKind → Bytes → Answer
  | .tracks => handleTrackPage sv
  | .scanResults => handleWifiScanResults sv
  | .albums => handleHistoryAlbumPage sv
  | .albumTracks _ => handleHistoryTrackPage sv

/-- The request is one for these items. -/
def Requests (payload : Bytes) : PageKind → Prop
  | .albumTracks checksum => tlvU32 payload .cartridgeChecksum = some checksum
  | .tracks | .scanResults | .albums => True

instance (payload : Bytes) : ∀ kind : PageKind, Decidable (kind.Requests payload)
  | .albumTracks _ => inferInstanceAs (Decidable (_ = _))
  | .tracks | .scanResults | .albums => isTrue trivial

/-- All that there is to list. -/
def items : PageKind → List Entry
  | .tracks => c.tracks.map trackEntry
  | .scanResults => c.accessPoints.map accessPointEntry
  | .albums => c.albums.map albumEntry
  | .albumTracks checksum => (c.albumTracks checksum).map albumTrackEntry

/-- As many entries as a page may have. -/
def most : PageKind → UInt32
  | .tracks | .scanResults => 8
  | .albums | .albumTracks _ => 4

/-- The TLVs in front of the entries. -/
def head (payload : Bytes) : PageKind → Entry
  | .tracks =>
    [(.offset, u32Bytes (pageOffset payload)), (.trackCount, u32Bytes (.ofNat c.tracks.length))]
  | .scanResults =>
    [(.offset, u32Bytes (pageOffset payload)), (.count, u32Bytes (.ofNat c.accessPoints.length))]
  | .albums =>
    [(.offset, u32Bytes (pageOffset payload)),
      (.historyAlbumCount, u32Bytes (.ofNat c.albums.length))]
  | .albumTracks checksum =>
    [(.cartridgeChecksum, u32Bytes checksum), (.offset, u32Bytes (pageOffset payload)),
      (.trackCount, u32Bytes (.ofNat (c.albumTracks checksum).length))]

/-- The type an entry starts with. -/
def start : PageKind → TlvType
  | .tracks | .albumTracks _ => .trackIndex
  | .scanResults => .wifiSsid
  | .albums => .cartridgeChecksum

end PageKind

/-! ## What a client sees -/

/-- The count a page announces, and its entries. -/
structure View where
  returnedCount : Option UInt32
  entries : List Entry
deriving DecidableEq

/-- One turn of the loops of `decode_track_page` and its siblings: an entry starts with
its first type, and takes what follows until the next one. -/
def View.read (start : TlvType) (v : View) (t : TlvEntry) : View :=
  if t.type = start then { v with entries := v.entries ++ [[(t.type, t.value)]] }
  else if t.type = .returnedCount then { v with returnedCount := tlvValueU32 t.value }
  else match v.entries.getLast? with
  | none => v
  | some entry => { v with entries := v.entries.dropLast ++ [entry ++ [(t.type, t.value)]] }

def readPage (start : TlvType) (w : Writer) : View := w.foldl (View.read start) ⟨none, []⟩

/-- A page with `n` entries from `offset` on: they are the items there, without a gap,
the count says how many they are, and there is one wherever there is an item. -/
def Complete (c : Contents) (sv : Services) (kind : PageKind) (payload : Bytes) : Prop :=
  ∃ w n, (kind.handler (c.services sv) payload).body = .ok w ∧
    readPage kind.start w =
      ⟨some (.ofNat n), ((kind.items c).drop (pageOffset payload).toNat).take n⟩ ∧
    n ≤ (kind.items c).length - (pageOffset payload).toNat ∧
    ((pageOffset payload).toNat < (kind.items c).length → 0 < n)

/-! ## Appending entries -/

theorem len_append (w : Writer) (entry : Entry) :
    Writer.len (w ++ entry.map toTlv) = Writer.len w + size entry := by
  simp only [Writer.len, List.map_append, List.sum_append, List.map_map, size]
  rfl

theorem len_entries (w : Writer) (entries : List Entry) :
    Writer.len (w ++ entries.flatMap (·.map toTlv)) = Writer.len w + total size entries := by
  induction entries generalizing w with
  | nil => rw [List.flatMap_nil, List.append_nil, total_nil, Nat.add_zero]
  | cons entry entries ih =>
    rw [List.flatMap_cons, ← List.append_assoc, ih, len_append, total_cons, Nat.add_assoc]

/-- An entry is appended as a whole or not at all. -/
theorem appendEntry_eq {w : Writer} (hw : Writer.len w ≤ writerCapacity) (entry : Entry) :
    appendEntry w entry =
      if size entry ≤ writerCapacity - Writer.len w then some (w ++ entry.map toTlv) else none := by
  induction entry generalizing w with
  | nil => simp [appendEntry]
  | cons first rest ih =>
    obtain ⟨type, value⟩ := first
    have hlen := len_append w [(type, value)]
    rw [size_cons, size_nil] at hlen
    change ((tryAppend w type value).bind fun w => appendEntry w rest) = _
    rw [tryAppend, size_cons]
    by_cases hfull : Writer.len w + tlvHeaderLen + value.length > writerCapacity
    · rw [if_pos hfull, if_neg (by omega)]
      rfl
    · change Writer.len (w ++ [⟨type, value⟩]) = _ at hlen
      rw [if_neg hfull, Option.bind_some, ih (by omega), hlen, List.map_cons, List.append_assoc]
      by_cases hfits : tlvHeaderLen + value.length + size rest ≤ writerCapacity - Writer.len w
      · rw [if_pos hfits, if_pos (by omega)]
        rfl
      · rw [if_neg hfits, if_neg (by omega)]

/-- The item at a position of the list. -/
def pageItem (items : List Entry) (position : UInt32) : PageItem :=
  match items[position.toNat]? with
  | none => .stop
  | some entry => .entry entry

/-- The entries that fit into a page. -/
def taken (items : List Entry) (w : Writer) (position count : Nat) : List Entry :=
  fill size (writerCapacity - Writer.len w) ((items.drop position).take count)

/-- **The loop appends the entries that fit**, from the position on, and counts them. -/
theorem pageLoop_eq {items : List Entry} (hitems : items.length < 2 ^ 32) (count : Nat)
    (position : UInt32) {w : Writer} (hw : Writer.len w ≤ writerCapacity) (returned : UInt32) :
    pageLoop (pageItem items) count position w returned =
      (w ++ (taken items w position.toNat count).flatMap (·.map toTlv),
        returned + .ofNat (taken items w position.toNat count).length) := by
  induction count generalizing position w returned with
  | zero => simp [pageLoop, taken, fill]
  | succ count ih =>
    rw [pageLoop, pageItem]
    by_cases hposition : position.toNat < items.length
    · have hnext : (position + 1).toNat = position.toNat + 1 := by
        rw [UInt32.toNat_add]
        exact Nat.mod_eq_of_lt (by change position.toNat + 1 < _; omega)
      rw [List.getElem?_eq_getElem hposition]
      dsimp only
      rw [appendEntry_eq hw, taken, List.drop_eq_getElem_cons hposition, List.take_succ_cons, fill]
      by_cases hfits : size items[position.toNat] ≤ writerCapacity - Writer.len w
      · have hlen := len_append w items[position.toNat]
        rw [if_pos hfits, if_pos hfits]
        dsimp only
        rw [ih _ (by omega), taken, hnext, hlen, ← Nat.sub_sub, List.flatMap_cons,
          List.append_assoc, List.length_cons, UInt32.ofNat_add, UInt32.add_assoc,
          UInt32.add_comm 1]
        rfl
      · rw [if_neg hfits, if_neg hfits]
        simp
    · rw [List.getElem?_eq_none (by omega)]
      simp [taken, List.drop_eq_nil_of_le (Nat.not_lt.mp hposition), fill]

/-! ## The handlers' pages -/

theorem lt_ofNat_iff {n : Nat} (hn : n < 2 ^ 32) (position : UInt32) :
    position < .ofNat n ↔ position.toNat < n := by
  rw [UInt32.lt_iff_toNat_lt, UInt32.toNat_ofNat_of_lt' hn]

/-- A handler's turn that stops behind the list, and finds the items before, lists them. -/
theorem eq_pageItem {α : Type} {l : List α} {f : α → Entry} {position : UInt32} {item : PageItem}
    (hstop : l.length ≤ position.toNat → item = .stop)
    (hentry : ∀ a, position.toNat < l.length → l[position.toNat]? = some a → item = .entry (f a)) :
    item = pageItem (l.map f) position := by
  rw [pageItem, List.getElem?_map]
  by_cases hposition : position.toNat < l.length
  · rw [hentry _ hposition (List.getElem?_eq_getElem hposition),
      List.getElem?_eq_getElem hposition]
    rfl
  · rw [hstop (Nat.not_lt.mp hposition), List.getElem?_eq_none (Nat.not_lt.mp hposition)]
    rfl

theorem items_lt (c : Contents) (kind : PageKind) : (kind.items c).length < 2 ^ 32 := by
  cases kind with
  | tracks => exact (List.length_map _).trans_lt (c.tracks_le.trans_lt (by decide))
  | scanResults => exact (List.length_map _).trans_lt (c.accessPoints_le.trans_lt (by decide))
  | albums => exact (List.length_map _).trans_lt (c.albums_le.trans_lt (by decide))
  | albumTracks checksum =>
    exact (List.length_map _).trans_lt ((c.albumTracks_le checksum).trans_lt (by decide))

theorem handler_eq (c : Contents) (sv : Services) {kind : PageKind} {payload : Bytes}
    (h : kind.Requests payload) :
    kind.handler (c.services sv) payload =
      page payload kind.most (appendAll [] (kind.head c payload)) (pageItem (kind.items c)) := by
  cases kind with
  | tracks =>
    refine congrArg (page payload 8 _) (funext fun position => eq_pageItem ?_ ?_)
    all_goals
      have hlt : position < (c.services sv).playlistTrackCount ↔ _ :=
        lt_ofNat_iff (c.tracks_le.trans_lt (by decide)) position
    · exact fun hend => if_neg fun hlow => Nat.not_lt.mpr hend (hlt.mp hlow)
    · intro t hlow ht
      rw [if_pos (hlt.mpr hlow), show (c.services sv).playlistTrackInfo position = some t from ht]
      rfl
  | scanResults =>
    refine congrArg (page payload 8 _) (funext fun position => eq_pageItem ?_ ?_)
    · intro hend
      rw [List.getElem?_eq_none hend]
    · intro r _ hr
      rw [hr]
      rfl
  | albums =>
    refine congrArg (page payload 4 _) (funext fun position => eq_pageItem ?_ ?_)
    all_goals
      have hlt : position < (c.services sv).history.albumCount ↔ _ :=
        lt_ofNat_iff (c.albums_le.trans_lt (by decide)) position
    · exact fun hend => if_neg fun hlow => Nat.not_lt.mpr hend (hlt.mp hlow)
    · intro r hlow hr
      rw [if_pos (hlt.mpr hlow), show (c.services sv).history.albumRecord position = some r from hr]
      rfl
  | albumTracks checksum =>
    change tlvU32 payload .cartridgeChecksum = some checksum at h
    rw [PageKind.handler, handleHistoryTrackPage, h]
    refine congrArg (page payload 4 _) (funext fun position => eq_pageItem ?_ ?_)
    all_goals
      have hlt : position < (c.services sv).history.albumTrackCount checksum ↔ _ :=
        lt_ofNat_iff ((c.albumTracks_le checksum).trans_lt (by decide)) position
    · exact fun hend => if_neg fun hlow => Nat.not_lt.mpr hend (hlt.mp hlow)
    · intro r hlow hr
      rw [if_pos (hlt.mpr hlow),
        show (c.services sv).history.albumTrackRecord checksum position = some r from hr]
      rfl

/-! ## Sizes -/

/-- The bytes of `RETURNED_COUNT`. -/
def countSize : Nat := 8

/-- The bytes of a track's entry. -/
def trackSize (t : PlaylistTrack) : Nat := 32 + t.trackTitle.length + t.trackArtists.length

theorem length_stringBytes {v : Bytes} (h : v.length < 256) : (stringBytes v).length = v.length := by
  rw [stringBytes, List.length_take]
  omega

theorem size_trackEntry {c : Contents} {t : PlaylistTrack} (h : t ∈ c.tracks) :
    size (trackEntry t) = trackSize t := by
  obtain ⟨htitle, hartists⟩ := c.track_names t h
  simp only [trackEntry, size_cons, size_nil, length_u32Bytes, tlvHeaderLen, trackSize,
    length_stringBytes (show t.trackTitle.length < 256 by omega), length_stringBytes hartists]
  omega

/-- The largest entry of a kind. -/
def entryBound : PageKind → Nat
  | .tracks => 414
  | .scanResults => 54
  | .albums => 422
  | .albumTracks _ => 163

theorem size_bounds (c : Contents) {kind : PageKind} {entry : Entry} (h : entry ∈ kind.items c) :
    countSize ≤ size entry ∧ size entry ≤ entryBound kind := by
  cases kind with
  | tracks =>
    obtain ⟨t, ht, rfl⟩ := List.mem_map.mp h
    obtain ⟨htitle, hartists⟩ := c.track_names t ht
    rw [size_trackEntry ht, trackSize, countSize, entryBound]
    omega
  | scanResults =>
    obtain ⟨r, hr, rfl⟩ := List.mem_map.mp h
    have hssid := c.ssids r hr
    simp only [accessPointEntry, size_cons, size_nil, length_u32Bytes, tlvHeaderLen, countSize,
      entryBound, length_stringBytes (show r.ssid.length < 256 by omega), List.length_singleton]
    omega
  | albums =>
    obtain ⟨r, hr, rfl⟩ := List.mem_map.mp h
    obtain ⟨hname, hartist⟩ := c.album_names r hr
    simp only [albumEntry, size_cons, size_nil, length_u32Bytes, tlvHeaderLen, countSize,
      entryBound, length_stringBytes (show r.albumName.length < 256 by omega),
      length_stringBytes hartist]
    omega
  | albumTracks checksum =>
    obtain ⟨r, hr, rfl⟩ := List.mem_map.mp h
    have hname := c.albumTrack_names checksum r hr
    simp only [albumTrackEntry, size_cons, size_nil, length_u32Bytes, tlvHeaderLen, countSize,
      entryBound, length_stringBytes (show r.trackName.length < 256 by omega)]
    omega

/-- The bytes in front of the entries. -/
def headSize : PageKind → Nat
  | .tracks | .scanResults | .albums => 16
  | .albumTracks _ => 24

theorem size_head (c : Contents) (payload : Bytes) (kind : PageKind) :
    size (kind.head c payload) = headSize kind := by
  cases kind <;> simp [PageKind.head, headSize, tlvHeaderLen]

theorem pageCount_le (payload : Bytes) (most : UInt32) :
    (pageCount payload most).toNat ≤ most.toNat := by
  unfold pageCount
  dsimp only
  split
  · exact Nat.le_refl _
  · next hle => exact Nat.not_lt.mp fun hlt => hle (UInt32.lt_iff_toNat_lt.mpr hlt)

/-! ## What a client reads off a page -/

/-- An entry starts with its first type, which does not occur again in it. -/
def Shaped (start : TlvType) (entry : Entry) : Prop :=
  ∃ value rest, entry = (start, value) :: rest ∧ ∀ x ∈ rest, x.1 ≠ start ∧ x.1 ≠ .returnedCount

theorem shaped_items (c : Contents) {kind : PageKind} {entry : Entry} (h : entry ∈ kind.items c) :
    Shaped kind.start entry := by
  cases kind <;> obtain ⟨r, -, rfl⟩ := List.mem_map.mp h <;>
    exact ⟨_, _, rfl, by simp [PageKind.start]⟩

theorem start_ne (kind : PageKind) : kind.start ≠ .returnedCount := by
  cases kind <;> simp [PageKind.start]

theorem head_types (c : Contents) (payload : Bytes) (kind : PageKind) :
    ∀ x ∈ kind.head c payload, x.1 ≠ kind.start ∧ x.1 ≠ .returnedCount := by
  cases kind <;> simp [PageKind.head, PageKind.start]

theorem read_other {start : TlvType} {x : TlvType × Bytes} (h : x.1 ≠ start ∧ x.1 ≠ .returnedCount)
    (v : View) : View.read start v (toTlv x) =
      match v.entries.getLast? with
      | none => v
      | some entry => { v with entries := v.entries.dropLast ++ [entry ++ [x]] } := by
  rw [View.read, if_neg (show (toTlv x).type ≠ start from h.1),
    if_neg (show (toTlv x).type ≠ .returnedCount from h.2)]
  rfl

/-- TLVs before the first entry are passed over. -/
theorem foldl_read_head {start : TlvType} {entries : Entry}
    (h : ∀ x ∈ entries, x.1 ≠ start ∧ x.1 ≠ .returnedCount) :
    (entries.map toTlv).foldl (View.read start) ⟨none, []⟩ = ⟨none, []⟩ := by
  induction entries with
  | nil => rfl
  | cons x entries ih =>
    rw [List.map_cons, List.foldl_cons, read_other (h x List.mem_cons_self)]
    exact ih fun y hy => h y (List.mem_cons_of_mem x hy)

/-- The rest of an entry is taken into it. -/
theorem foldl_read_rest {start : TlvType} {rest : Entry}
    (h : ∀ x ∈ rest, x.1 ≠ start ∧ x.1 ≠ .returnedCount) (count : Option UInt32)
    (done : List Entry) (begun : Entry) :
    (rest.map toTlv).foldl (View.read start) ⟨count, done ++ [begun]⟩ =
      ⟨count, done ++ [begun ++ rest]⟩ := by
  induction rest generalizing begun with
  | nil => rw [List.map_nil, List.foldl_nil, List.append_nil]
  | cons x rest ih =>
    rw [List.map_cons, List.foldl_cons, read_other (h x List.mem_cons_self)]
    dsimp only
    rw [List.getLast?_concat]
    dsimp only
    rw [List.dropLast_concat, ih fun y hy => h y (List.mem_cons_of_mem x hy), List.append_assoc]
    rfl

/-- **The entries of a page are read one by one.** -/
theorem foldl_read_entries {start : TlvType} {entries : List Entry}
    (h : ∀ entry ∈ entries, Shaped start entry) (count : Option UInt32) (done : List Entry) :
    (entries.flatMap (·.map toTlv)).foldl (View.read start) ⟨count, done⟩ =
      ⟨count, done ++ entries⟩ := by
  induction entries generalizing done with
  | nil => rw [List.flatMap_nil, List.foldl_nil, List.append_nil]
  | cons entry entries ih =>
    obtain ⟨value, rest, rfl, hrest⟩ := h entry List.mem_cons_self
    rw [List.flatMap_cons, List.foldl_append, List.map_cons, List.foldl_cons, View.read,
      if_pos (by rfl)]
    dsimp only
    have hone := foldl_read_rest hrest count done [(start, value)]
    rw [List.singleton_append] at hone
    change List.foldl (View.read start)
      ((rest.map toTlv).foldl (View.read start) ⟨count, done ++ [[(start, value)]]⟩) _ = _
    rw [hone, ih fun e he => h e (List.mem_cons_of_mem _ he), List.append_assoc,
      List.singleton_append]

theorem foldl_read_count (kind : PageKind) (n : UInt32) (entries : List Entry) :
    [⟨.returnedCount, u32Bytes n⟩].foldl (View.read kind.start) ⟨none, entries⟩ =
      ⟨some n, entries⟩ := by
  rw [List.foldl_cons, List.foldl_nil, View.read, if_neg (start_ne kind).symm, if_pos (by rfl),
    tlvValueU32_u32Bytes]

/-! ## The pages -/

variable {c : Contents} {sv : Services} {kind : PageKind} {payload : Bytes}

/-- The items a request asks for. -/
def requestedItems (c : Contents) (payload : Bytes) (kind : PageKind) : List Entry :=
  ((kind.items c).drop (pageOffset payload).toNat).take (pageCount payload kind.most).toNat

/-- The bytes a page has for its entries and their count. -/
def room (kind : PageKind) : Nat := writerCapacity - headSize kind

/-- The entries a page has. -/
def pageEntries (c : Contents) (payload : Bytes) (kind : PageKind) : List Entry :=
  fill size (room kind) (requestedItems c payload kind)

theorem mem_requestedItems {entry : Entry} (h : entry ∈ requestedItems c payload kind) :
    entry ∈ kind.items c := List.mem_of_mem_drop (List.mem_of_mem_take h)

theorem pageEntries_isPrefix (c : Contents) (payload : Bytes) (kind : PageKind) :
    pageEntries c payload kind <+: requestedItems c payload kind := fill_isPrefix _ _

/-- The entries are the items from the offset on, without a gap. -/
theorem pageEntries_eq : pageEntries c payload kind =
    ((kind.items c).drop (pageOffset payload).toNat).take (pageEntries c payload kind).length := by
  have hle : (pageEntries c payload kind).length ≤ (pageCount payload kind.most).toNat :=
    (pageEntries_isPrefix c payload kind).length_le.trans (List.length_take_le ..)
  have htake := List.prefix_iff_eq_take.mp (pageEntries_isPrefix c payload kind)
  rw [requestedItems, List.take_take, Nat.min_eq_left hle] at htake
  exact htake

theorem length_requestedItems (c : Contents) (payload : Bytes) (kind : PageKind) :
    (requestedItems c payload kind).length =
    min (pageCount payload kind.most).toNat
      ((kind.items c).length - (pageOffset payload).toNat) := by
  rw [requestedItems, List.length_take, List.length_drop]

theorem length_pageEntries_le (c : Contents) (payload : Bytes) (kind : PageKind) :
    (pageEntries c payload kind).length ≤ kind.most.toNat ∧
      (pageEntries c payload kind).length ≤ (kind.items c).length - (pageOffset payload).toNat := by
  have hle := (pageEntries_isPrefix c payload kind).length_le
  have hcount := pageCount_le payload kind.most
  rw [length_requestedItems] at hle
  omega

/-- The count fits behind the entries. -/
def Fits (c : Contents) (payload : Bytes) (kind : PageKind) : Prop :=
  total size (pageEntries c payload kind) + countSize ≤ room kind

/-- **What a page says.** Its entries are those that fit; the count of them is missing
where it does not fit. -/
theorem handler_page (c : Contents) (sv : Services) (h : kind.Requests payload) :
    ∃ w, (kind.handler (c.services sv) payload).body = .ok w ∧
      (Fits c payload kind → readPage kind.start w =
        ⟨some (.ofNat (pageEntries c payload kind).length), pageEntries c payload kind⟩) ∧
      (¬ Fits c payload kind → readPage kind.start w = ⟨none, pageEntries c payload kind⟩) := by
  have hsmall : headSize kind ≤ writerCapacity := by
    cases kind <;> simp [headSize, writerCapacity, frameMaxLen, headerLen]
  have hhead : appendAll [] (kind.head c payload) = (kind.head c payload).map toTlv := by
    refine (appendAll_fits _ _ ?_).trans (List.nil_append _)
    rw [size_head]
    exact (Nat.zero_add _).trans_le hsmall
  have hlen : Writer.len ((kind.head c payload).map toTlv) = headSize kind := by
    have := len_append [] (kind.head c payload)
    rw [List.nil_append, size_head] at this
    exact this.trans (Nat.zero_add _)
  have hloop := pageLoop_eq (items_lt c kind) (pageCount payload kind.most).toNat
    (pageOffset payload) (hlen.trans_le hsmall) 0
  rw [UInt32.zero_add, taken, hlen] at hloop
  change _ = ((kind.head c payload).map toTlv ++ (pageEntries c payload kind).flatMap (·.map toTlv),
    UInt32.ofNat (pageEntries c payload kind).length) at hloop
  rw [handler_eq c sv h, hhead, page, hloop]
  -- the entries are read before the count, when there is one
  have hread : (((kind.head c payload).map toTlv ++
      (pageEntries c payload kind).flatMap (·.map toTlv)).foldl (View.read kind.start) ⟨none, []⟩) =
      ⟨none, pageEntries c payload kind⟩ := by
    rw [List.foldl_append, foldl_read_head (head_types c payload kind), foldl_read_entries,
      List.nil_append]
    intro entry hentry
    exact shaped_items c (mem_requestedItems ((pageEntries_isPrefix c payload kind).subset hentry))
  have hsum : Writer.len ((kind.head c payload).map toTlv ++
      (pageEntries c payload kind).flatMap (·.map toTlv)) =
      headSize kind + total size (pageEntries c payload kind) := by
    rw [len_entries, hlen]
  refine ⟨_, rfl, fun hfits => ?_, fun hfull => ?_⟩
  · rw [appendU32, append, tryAppend, if_neg, Option.getD_some, readPage, List.foldl_append, hread]
    · exact foldl_read_count kind _ _
    · rw [hsum]
      unfold Fits room countSize at hfits
      rw [length_u32Bytes, tlvHeaderLen]
      omega
  · rw [appendU32, append, tryAppend, if_pos, Option.getD_none, readPage, hread]
    rw [hsum]
    unfold Fits room countSize at hfull
    rw [length_u32Bytes, tlvHeaderLen]
    omega

/-- Wherever there is an item, a page has one. -/
theorem pageEntries_ne_nil (hcount : 1 ≤ pageCount payload kind.most)
    (h : (pageOffset payload).toNat < (kind.items c).length) : pageEntries c payload kind ≠ [] := by
  refine fill_ne_nil ?_ fun entry hentry => ?_
  · have hpos : 1 ≤ (pageCount payload kind.most).toNat := UInt32.le_iff_toNat_le.mp hcount
    have hlen := length_requestedItems c payload kind
    intro hnil
    rw [hnil, List.length_nil] at hlen
    omega
  · have hbound := (size_bounds c (mem_requestedItems hentry)).2
    refine hbound.trans ?_
    cases kind <;> simp [entryBound, room, headSize, writerCapacity, frameMaxLen, headerLen]

theorem complete_iff_fits (sv : Services) (h : kind.Requests payload) (hcount : 1 ≤ pageCount payload kind.most) :
    Complete c sv kind payload ↔ Fits c payload kind := by
  obtain ⟨w, hbody, hfits, hfull⟩ := handler_page c sv h
  constructor
  · rintro ⟨w', n, hbody', hread, -⟩
    cases hbody.symm.trans hbody'
    by_contra hnot
    rw [hfull hnot] at hread
    cases hread
  · intro hF
    refine ⟨w, _, hbody, ?_, (length_pageEntries_le c payload kind).2, fun hlt => ?_⟩
    · rw [hfits hF, ← pageEntries_eq]
    · exact List.length_pos_iff_ne_nil.mpr (pageEntries_ne_nil hcount hlt)

/-! ## When the count fits -/

/-- The tracks a request asks for. -/
def requestedTracks (c : Contents) (payload : Bytes) : List PlaylistTrack :=
  (c.tracks.drop (pageOffset payload).toNat).take (pageCount payload 8).toNat

/-- **When a page announces its entries**: no run of the requested tracks that fits leaves
less than the count takes. The other kinds have no such entries. -/
def CountFits (c : Contents) (payload : Bytes) : PageKind → Prop
  | .tracks =>
    ∀ k, k ≤ (requestedTracks c payload).length →
      total trackSize ((requestedTracks c payload).take k) ≤ room .tracks →
        total trackSize ((requestedTracks c payload).take k) + countSize ≤ room .tracks
  | .scanResults | .albums | .albumTracks _ => True

theorem total_trackEntry {l : List PlaylistTrack} (h : ∀ t ∈ l, t ∈ c.tracks) :
    total size (l.map trackEntry) = total trackSize l := by
  rw [total, total, List.map_map]
  exact congrArg List.sum (List.map_congr_left fun t ht => size_trackEntry (h t ht))

/-- Entries of the other kinds are too small to fill a page. -/
theorem fits_small (hkind : room kind ≥ kind.most.toNat * entryBound kind + countSize) :
    Fits c payload kind := by
  have hbound : ∀ entry ∈ pageEntries c payload kind, size entry ≤ entryBound kind :=
    fun entry hentry => (size_bounds c (mem_requestedItems
      ((pageEntries_isPrefix c payload kind).subset hentry))).2
  have htotal := total_le_mul hbound
  have hlen := (length_pageEntries_le c payload kind).1
  have hmul := Nat.mul_le_mul_right (entryBound kind) hlen
  unfold Fits
  omega

theorem fits_iff : Fits c payload kind ↔ CountFits c payload kind := by
  cases kind with
  | tracks =>
    have hitems : requestedItems c payload .tracks = (requestedTracks c payload).map trackEntry := by
      rw [requestedItems, requestedTracks, PageKind.items, List.map_take, List.map_drop]
      rfl
    have hmem : ∀ k, ∀ t ∈ (requestedTracks c payload).take k, t ∈ c.tracks := fun k t ht =>
      List.mem_of_mem_drop (List.mem_of_mem_take (List.mem_of_mem_take ht))
    rw [Fits, pageEntries, spare_iff fun entry hentry =>
      (size_bounds c (mem_requestedItems hentry)).1, hitems, List.length_map, CountFits]
    refine forall_congr' fun k => imp_congr_right fun _ => ?_
    rw [← List.map_take, total_trackEntry (hmem k)]
  | scanResults | albums | albumTracks checksum =>
    refine iff_of_true (fits_small ?_) trivial
    simp [room, headSize, entryBound, PageKind.most, countSize, writerCapacity, frameMaxLen,
      headerLen]

/-! ## A client that asks for everything -/

/-- The offset the client asks for next, and the entries it has. -/
structure Client where
  offset : Nat
  received : List Entry

/-- The client asks for at least one item at its offset, while there is one, and goes on
behind the entries that were announced. -/
def clientStep (c : Contents) (sv : Services) (kind : PageKind) (s : Client) (payload : Bytes) :
    Option Client :=
  if kind.Requests payload ∧ (pageOffset payload).toNat = s.offset ∧
      1 ≤ pageCount payload kind.most ∧ s.offset < (kind.items c).length then
    match (kind.handler (c.services sv) payload).body with
    | .ok w =>
      (readPage kind.start w).returnedCount.map fun n =>
        ⟨s.offset + n.toNat, s.received ++ (readPage kind.start w).entries⟩
    | _ => none
  else none

/-- **One request**: the client gets the next items, at least one, and knows how many. -/
theorem clientStep_eq (sv : Services) {s : Client} (h : kind.Requests payload)
    (hoffset : (pageOffset payload).toNat = s.offset) (hcount : 1 ≤ pageCount payload kind.most)
    (hlt : s.offset < (kind.items c).length) (hfits : CountFits c payload kind) :
    ∃ n, 0 < n ∧ s.offset + n ≤ (kind.items c).length ∧ clientStep c sv kind s payload =
      some ⟨s.offset + n, s.received ++ ((kind.items c).drop s.offset).take n⟩ := by
  obtain ⟨w, n, hbody, hread, hle, hpos⟩ := (complete_iff_fits sv h hcount).mpr
    (fits_iff.mpr hfits)
  rw [hoffset] at hread hle hpos
  have hlong := items_lt c kind
  refine ⟨n, hpos hlt, by omega, ?_⟩
  rw [clientStep, if_pos ⟨h, hoffset, hcount, hlt⟩, hbody]
  dsimp only
  rw [hread, Option.map_some, UInt32.toNat_ofNat_of_lt' (show n < UInt32.size by
    change n < 2 ^ 32; omega)]

/-- The client has the items up to its offset. -/
structure Inv (c : Contents) (kind : PageKind) (s : Client) : Prop where
  received : s.received = (kind.items c).take s.offset
  offset_le : s.offset ≤ (kind.items c).length

theorem inv_step {s t : Client} (hs : Inv c kind s) (hfits : CountFits c payload kind)
    (hstep : clientStep c sv kind s payload = some t) : Inv c kind t ∧ s.offset < t.offset := by
  have hasked : kind.Requests payload ∧ (pageOffset payload).toNat = s.offset ∧
      1 ≤ pageCount payload kind.most ∧ s.offset < (kind.items c).length := by
    by_contra hnot
    rw [clientStep, if_neg hnot] at hstep
    cases hstep
  obtain ⟨h, hoffset, hcount, hlt⟩ := hasked
  obtain ⟨n, hpos, hle, heq⟩ := clientStep_eq sv h hoffset hcount hlt hfits
  cases heq.symm.trans hstep
  exact ⟨⟨by rw [hs.received, ← List.take_add], hle⟩, by dsimp only; omega⟩

/-- Every request brings the client on. -/
theorem length_le_offset {s t : Client} {payloads : List Bytes} (hs : Inv c kind s)
    (hfits : Along (clientStep c sv kind) (fun _ payload => CountFits c payload kind) s payloads)
    (hrun : run (clientStep c sv kind) s payloads = some t) :
    s.offset + payloads.length ≤ t.offset := by
  induction payloads generalizing s with
  | nil => rw [run_nil, Option.some.injEq] at hrun; rw [hrun]; exact Nat.le_refl _
  | cons payload payloads ih =>
    rw [run_cons] at hrun
    obtain ⟨u, hu, hrun⟩ := Option.bind_eq_some_iff.mp hrun
    obtain ⟨hinv, hlt⟩ := inv_step hs hfits.1 hu
    have hrest := ih hinv (hfits.2 u hu) hrun
    rw [List.length_cons]
    omega

/-- **Paged responses enumerate everything** where the count fits, and only there: such a
page has the items from its offset on and their count; a client whose requests are all
such has the items up to its offset after at most as many requests, and while there are
more, every such request brings it on. -/
theorem pages_enumerate (c : Contents) (sv : Services) (kind : PageKind) :
    (∀ payload, kind.Requests payload → 1 ≤ pageCount payload kind.most →
      (Complete c sv kind payload ↔ CountFits c payload kind)) ∧
    ∀ payloads s,
      Along (clientStep c sv kind) (fun _ payload => CountFits c payload kind) ⟨0, []⟩ payloads →
      run (clientStep c sv kind) ⟨0, []⟩ payloads = some s →
        s.received = (kind.items c).take s.offset ∧ payloads.length ≤ s.offset ∧
        s.offset ≤ (kind.items c).length ∧
        (s.offset < (kind.items c).length → ∀ payload, kind.Requests payload →
          (pageOffset payload).toNat = s.offset → 1 ≤ pageCount payload kind.most →
          CountFits c payload kind →
            ∃ t, clientStep c sv kind s payload = some t ∧ s.offset < t.offset) := by
  refine ⟨fun payload h hcount => (complete_iff_fits sv h hcount).trans fits_iff, ?_⟩
  intro payloads s hfits hrun
  have hzero : Inv c kind ⟨0, []⟩ := ⟨rfl, Nat.zero_le _⟩
  have hinv : Inv c kind s := run_invariant
    (fun _ _ _ hs hC hst => (inv_step hs hC hst).1) hzero hfits hrun
  have hlength := length_le_offset hzero hfits hrun
  refine ⟨hinv.received, by simpa using hlength, hinv.offset_le, ?_⟩
  intro hlt payload h hoffset hcount hpayload
  obtain ⟨n, hpos, -, heq⟩ := clientStep_eq sv h hoffset hcount hlt hpayload
  exact ⟨_, heq, by dsimp only; omega⟩

/-! ## A page without its count -/

/-- Five tracks, of 403 bytes each in a page. -/
def fullContents : Contents where
  tracks := List.replicate 5 ⟨0, List.replicate 127 65, List.replicate 244 65, 0, 0⟩
  accessPoints := []
  albums := []
  albumTracks := fun _ => []
  tracks_le := by decide
  accessPoints_le := by decide
  albums_le := by decide
  albumTracks_le := fun _ => by decide
  track_names := by
    intro t ht
    rw [List.eq_of_mem_replicate ht]
    simp
  ssids := nofun
  album_names := nofun
  albumTrack_names := nofun

/-- **A page that announces nothing**: five tracks of 2015 bytes leave five bytes of 2020,
and the append of the count fails. -/
theorem count_missing :
    ¬ ∀ (c : Contents) (sv : Services) (kind : PageKind) (payload : Bytes),
      kind.Requests payload → 1 ≤ pageCount payload kind.most → Complete c sv kind payload := by
  intro h
  have hrequest : PageKind.tracks.Requests [] := trivial
  have hcount : 1 ≤ pageCount [] PageKind.tracks.most := by decide
  have hcomplete := h fullContents default .tracks [] hrequest hcount
  have hfits : CountFits fullContents [] .tracks :=
    fits_iff.mp ((complete_iff_fits default hrequest hcount).mp hcomplete)
  have hfive := hfits 5 (by decide +kernel) (by decide +kernel)
  exact absurd hfive (by decide +kernel)

end Jukeboy.CompanionApi.Pages
