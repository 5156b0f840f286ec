import Mathlib.Data.Finset.Basic
import Mathlib.Data.Finset.Card
import Mathlib.Data.List.Basic
import Mathlib.Tactic.Common

/-! # A shelf of albums

What the play history is for: a bounded shelf that keeps the albums in the order
they came, the tracks seen of each, and how often each track was played. When an
album needs room, the albums that came first go. -/
namespace Jukeboy.PlayHistory.Shelf

variable {α ι : Type} [DecidableEq α] [DecidableEq ι]

/-- The albums, oldest first, the tracks seen, and the plays of each. -/
structure State (α ι : Type) where
  albums : List α
  tracks : Finset (α × ι)
  plays : α × ι → Nat

/-- How many albums and tracks a shelf holds. -/
structure Limits where
  albums : Nat
  tracks : Nat

def empty : State α ι := ⟨[], ∅, fun _ => 0⟩

def addAlbum (a : α) (s : State α ι) : State α ι := { s with albums := s.albums ++ [a] }

/-- The shelf without an album, its tracks and their plays. -/
def removeAlbum (a : α) (s : State α ι) : State α ι where
  albums := s.albums.filter fun b => decide (b ≠ a)
  tracks := s.tracks.filter fun k => k.1 ≠ a
  plays k := if k.1 = a then 0 else s.plays k

def addTrack (k : α × ι) (s : State α ι) : State α ι :=
  { s with tracks := insert k s.tracks, plays := Function.update s.plays k 0 }

def countPlay (k : α × ι) (s : State α ι) : State α ι :=
  { s with plays := Function.update s.plays k (s.plays k + 1) }

/-- The limits do not leave room for so many more albums and tracks. -/
def Over (limits : Limits) (albumDelta trackDelta : Nat) (s : State α ι) : Prop :=
  limits.albums < s.albums.length + albumDelta ∨ limits.tracks < s.tracks.card + trackDelta

instance (limits : Limits) (albumDelta trackDelta : Nat) (s : State α ι) :
    Decidable (Over limits albumDelta trackDelta s) :=
  inferInstanceAs (Decidable (_ ∨ _))

/-- The albums that go, among `candidates` from the first on, until there is room. -/
def victims (limits : Limits) (albumDelta trackDelta : Nat) :
    List α → State α ι → List α
  | [], _ => []
  | a :: candidates, s =>
    if Over limits albumDelta trackDelta s then
      a :: victims limits albumDelta trackDelta candidates (removeAlbum a s)
    else []

def removeAll (albums : List α) (s : State α ι) : State α ι :=
  albums.foldl (fun s a => removeAlbum a s) s

/-- The tracks of an album that are not on the shelf. -/
def missing (a : α) (indices : List ι) (s : State α ι) : List ι :=
  indices.filter fun i => decide ((a, i) ∉ s.tracks)

/-- How many albums a sync adds. -/
def newAlbums (a : α) (s : State α ι) : Nat := if a ∈ s.albums then 0 else 1

/-- The shelf brought up to date with an album: other albums go while there is no
room, then the album and its tracks are there. -/
def sync (limits : Limits) (a : α) (indices : List ι) (s : State α ι) : State α ι :=
  let pruned := removeAll (victims limits (newAlbums a s) (missing a indices s).length
    (s.albums.filter fun b => decide (b ≠ a)) s) s
  let opened := if a ∈ s.albums then pruned else addAlbum a pruned
  (missing a indices s).foldl (fun s i => addTrack (a, i) s) opened

/-- What happens to a shelf. -/
inductive Event (α ι : Type) where
  | sync
  | play (k : α × ι)
  | clear
  | rebuild
deriving DecidableEq

/-- The shelf a play is counted on: brought up to date first when the track is
not on it and its album is the one inserted. -/
def shelfForPlay (limits : Limits) (inserted : Option (α × List ι)) (k : α × ι)
    (s : State α ι) : State α ι :=
  if k ∈ s.tracks then s else
  match inserted with
  | some (a, indices) => if a = k.1 then sync limits a indices s else s
  | none => s

def handle (limits : Limits) (inserted : Option (α × List ι)) (event : Event α ι)
    (s : State α ι) : State α ι :=
  match event with
  | .sync =>
    match inserted with
    | some (a, indices) => sync limits a indices s
    | none => s
  | .play k =>
    let t := shelfForPlay limits inserted k s
    if k ∈ t.tracks then countPlay k t else t
  | .clear => empty
  | .rebuild =>
    match inserted with
    | some (a, indices) => sync limits a indices empty
    | none => empty

/-! ## Events that find nothing to do -/

/-- The event finds everything as it would leave it. -/
def Settled (inserted : Option (α × List ι)) (s : State α ι) : Event α ι → Prop
  | .sync => ∀ a indices, inserted = some (a, indices) → a ∈ s.albums ∧ missing a indices s = []
  | .play _ => False
  | .clear => s = empty
  | .rebuild => match inserted with
    | none => s = empty
    | some (a, indices) => s.albums = [a] ∧ s.tracks = (indices.map fun i => (a, i)).toFinset ∧
        ∀ k, s.plays k = 0

omit [DecidableEq ι] in
theorem victims_of_room {limits : Limits} {da dt : Nat} {s : State α ι}
    (h : ¬ Over limits da dt s) (candidates : List α) : victims limits da dt candidates s = [] := by
  cases candidates with
  | nil => rfl
  | cons a rest => rw [victims, if_neg h]

theorem sync_of_present {limits : Limits} {a : α} {indices : List ι} {s : State α ι}
    (hroom : ¬ Over limits 0 0 s) (ha : a ∈ s.albums) (hmissing : missing a indices s = []) :
    sync limits a indices s = s := by
  simp only [sync, newAlbums, if_pos ha, hmissing, List.length_nil, victims_of_room hroom]
  rfl

theorem addTracks_empty (a : α) (indices : List ι) {s : State α ι} (hplays : ∀ k, s.plays k = 0) :
    indices.foldl (fun s i => addTrack (a, i) s) s =
      { s with tracks := (indices.map fun i => (a, i)).toFinset ∪ s.tracks } := by
  induction indices generalizing s with
  | nil => simp
  | cons i rest ih =>
    have hzero : Function.update s.plays (a, i) 0 = s.plays := by
      rw [← hplays (a, i), Function.update_eq_self]
    rw [List.foldl_cons, ih (by rw [addTrack, hzero]; exact hplays), addTrack, hzero,
      List.map_cons, List.toFinset_cons, Finset.insert_union, Finset.union_insert]

/-- Bringing an empty shelf up to date needs no room. -/
theorem sync_empty (limits : Limits) (a : α) (indices : List ι) :
    sync limits a indices empty =
      ⟨[a], (indices.map fun i => (a, i)).toFinset, fun _ => 0⟩ := by
  have hmissing : missing a indices (empty : State α ι) = indices :=
    List.filter_eq_self.mpr fun i _ => by simp [empty]
  have hnone : a ∉ (empty : State α ι).albums := List.not_mem_nil
  simp only [sync, hmissing, if_neg hnone]
  rw [addTracks_empty a indices (fun _ => rfl)]
  simp [empty, addAlbum, removeAll, victims]

/-- **An event that finds nothing to do changes nothing.** -/
theorem handle_of_settled {limits : Limits} {inserted : Option (α × List ι)} {s : State α ι}
    {event : Event α ι} (hroom : ¬ Over limits 0 0 s) (h : Settled inserted s event) :
    handle limits inserted event s = s := by
  cases event with
  | sync =>
    cases inserted with
    | none => rfl
    | some held =>
      obtain ⟨ha, hmissing⟩ := h held.1 held.2 rfl
      exact sync_of_present hroom ha hmissing
  | play k => exact h.elim
  | clear => exact h.symm
  | rebuild =>
    cases inserted with
    | none => exact h.symm
    | some held =>
      obtain ⟨ha, htracks, hplays⟩ := h
      change sync limits held.1 held.2 empty = s
      rw [sync_empty, ← ha, ← htracks, ← funext hplays]

/-! ## What an event does to the plays -/

omit [DecidableEq ι] in
/-- What stays on the shelf keeps its plays. -/
theorem plays_removeAll (albums : List α) {s : State α ι} {k : α × ι}
    (h : k ∈ (removeAll albums s).tracks) :
    k ∈ s.tracks ∧ (removeAll albums s).plays k = s.plays k := by
  induction albums generalizing s with
  | nil => exact ⟨h, rfl⟩
  | cons a rest ih =>
    obtain ⟨hmem, hplays⟩ := ih h
    obtain ⟨hmem, hne⟩ := Finset.mem_filter.mp hmem
    exact ⟨hmem, hplays.trans (if_neg hne)⟩

/-- A track that is added has no plays. -/
theorem plays_addTracks (a : α) (indices : List ι) (s : State α ι) (k : α × ι) :
    let t := indices.foldl (fun s i => addTrack (a, i) s) s
    (k ∈ t.tracks ↔ (∃ i ∈ indices, k = (a, i)) ∨ k ∈ s.tracks) ∧
      t.plays k = if ∃ i ∈ indices, k = (a, i) then 0 else s.plays k := by
  dsimp only
  induction indices generalizing s with
  | nil => simp
  | cons i rest ih =>
    rw [List.foldl_cons]
    obtain ⟨hmem, hplays⟩ := ih (addTrack (a, i) s)
    rw [hmem, hplays]
    simp only [List.exists_mem_cons_iff, addTrack, Finset.mem_insert, Function.update_apply]
    by_cases hrest : ∃ j ∈ rest, k = (a, j)
    · simp [hrest]
    · by_cases hk : k = (a, i)
      · simp [hk]
      · simp [hrest, hk]

theorem albums_addTracks (a : α) (indices : List ι) (s : State α ι) :
    (indices.foldl (fun s i => addTrack (a, i) s) s).albums = s.albums := by
  induction indices generalizing s with
  | nil => rfl
  | cons i rest ih => exact ih (addTrack (a, i) s)

/-- A sync keeps the plays of the tracks that were there, and the others begin with none. -/
theorem plays_sync {limits : Limits} {a : α} {indices : List ι} {s : State α ι} {k : α × ι}
    (h : k ∈ (sync limits a indices s).tracks) :
    (sync limits a indices s).plays k = if k ∈ s.tracks then s.plays k else 0 := by
  unfold sync at h ⊢
  dsimp only at h ⊢
  generalize victims limits (newAlbums a s) (missing a indices s).length
    (s.albums.filter fun b => decide (b ≠ a)) s = gone at h ⊢
  have hopened : ∀ t : State α ι, (if a ∈ s.albums then t else addAlbum a t).tracks = t.tracks ∧
      (if a ∈ s.albums then t else addAlbum a t).plays = t.plays := by
    intro t
    split
    · exact ⟨rfl, rfl⟩
    · exact ⟨rfl, rfl⟩
  obtain ⟨htracks, hplays⟩ := hopened (removeAll gone s)
  obtain ⟨hmem, hadded⟩ := plays_addTracks a (missing a indices s)
    (if a ∈ s.albums then removeAll gone s else addAlbum a (removeAll gone s)) k
  rw [hmem, htracks] at h
  rw [hadded, hplays]
  by_cases hmissing : ∃ i ∈ missing a indices s, k = (a, i)
  · obtain ⟨i, hi, rfl⟩ := hmissing
    have hnot : (a, i) ∉ s.tracks := of_decide_eq_true (List.mem_filter.mp hi).2
    rw [if_pos ⟨i, hi, rfl⟩, if_neg hnot]
  · obtain ⟨hin, hkept⟩ := plays_removeAll gone (h.resolve_left hmissing)
    rw [if_neg hmissing, if_pos hin, hkept]

theorem plays_shelfForPlay {limits : Limits} {inserted : Option (α × List ι)} {played k : α × ι}
    {s : State α ι} (h : k ∈ (shelfForPlay limits inserted played s).tracks) :
    (shelfForPlay limits inserted played s).plays k = if k ∈ s.tracks then s.plays k else 0 := by
  unfold shelfForPlay at h ⊢
  by_cases hplayed : played ∈ s.tracks
  · rw [if_pos hplayed] at h ⊢
    exact (if_pos h).symm
  · rw [if_neg hplayed] at h ⊢
    cases inserted with
    | none => exact (if_pos h).symm
    | some held =>
      dsimp only at h ⊢
      by_cases ha : held.1 = played.1
      · rw [if_pos ha] at h ⊢
        exact plays_sync h
      · rw [if_neg ha] at h ⊢
        exact (if_pos h).symm

def Event.empties : Event α ι → Bool
  | .clear | .rebuild => true
  | .sync | .play _ => false

/-- **What an event does to the plays** of a track that is on the shelf after it. -/
theorem plays_handle {limits : Limits} {inserted : Option (α × List ι)} {event : Event α ι}
    {s : State α ι} {k : α × ι} (h : k ∈ (handle limits inserted event s).tracks) :
    (handle limits inserted event s).plays k =
      (if k ∈ s.tracks ∧ event.empties = false then s.plays k else 0) +
        if event = .play k then 1 else 0 := by
  cases event with
  | sync =>
    simp only [Event.empties, and_true, reduceCtorEq, if_false, Nat.add_zero]
    cases inserted with
    | none => exact (if_pos h).symm
    | some held => exact plays_sync h
  | play played =>
    simp only [Event.empties, and_true, Event.play.injEq]
    simp only [handle] at h ⊢
    by_cases hon : played ∈ (shelfForPlay limits inserted played s).tracks
    · rw [if_pos hon] at h ⊢
      have hplays := plays_shelfForPlay (k := k) h
      simp only [countPlay, Function.update_apply]
      by_cases hk : k = played
      · subst hk
        rw [if_pos rfl, if_pos rfl, hplays]
      · rw [if_neg hk, if_neg (Ne.symm hk), hplays, Nat.add_zero]
    · rw [if_neg hon] at h ⊢
      have hk : played ≠ k := by
        rintro rfl
        exact hon h
      rw [if_neg hk, plays_shelfForPlay h, Nat.add_zero]
  | clear => exact absurd h (Finset.notMem_empty k)
  | rebuild =>
    simp only [Event.empties, reduceCtorEq, and_false, if_false, Nat.add_zero]
    cases inserted with
    | none => exact absurd h (Finset.notMem_empty k)
    | some held =>
      exact (plays_sync h).trans (if_neg (Finset.notMem_empty k))

/-! ## What the events so far say -/

/-- What is known of a shelf: nothing, that it is empty, that it has an album and all its
tracks, or that it has just those and they were never played. -/
inductive Known (α ι : Type) where
  | nothing
  | empty
  | holding (held : α × List ι)
  | fresh (held : α × List ι)
deriving DecidableEq

namespace Known

/-- The shelf is as it is known to be. -/
def Holds : Known α ι → State α ι → Prop
  | .nothing, _ => True
  | .empty, s => s = Shelf.empty
  | .holding (a, indices), s => a ∈ s.albums ∧ missing a indices s = []
  | .fresh (a, indices), s =>
    s = ⟨[a], (indices.map fun i => (a, i)).toFinset, fun _ => 0⟩

/-- After a sync with an album that is inserted. -/
def sync (held : α × List ι) : Known α ι → Known α ι
  | .empty => .fresh held
  | .fresh before => if before = held then .fresh held else .holding held
  | .nothing | .holding _ => .holding held

/-- After the play of a track; `brought` is the album that is inserted where it is the
track's. -/
def play (k : α × ι) (brought : Option (α × List ι)) : Known α ι → Known α ι
  | .nothing => .nothing
  | .empty => match brought with
    | none => .empty
    | some held => .holding held
  | .fresh held =>
    if k.1 = held.1 ∧ k.2 ∈ held.2 then .holding held
    else match brought with
      | none => .fresh held
      | some other => if other = held then .fresh held else .holding other
  | .holding held =>
    if k.1 = held.1 ∧ k.2 ∈ held.2 then .holding held
    else match brought with
      | none => .holding held
      | some other => if other = held then .holding held else .nothing

/-- After an event, with this album inserted. -/
def after (inserted : Option (α × List ι)) (event : Event α ι) (known : Known α ι) : Known α ι :=
  match event with
  | .sync => match inserted with
    | none => known
    | some held => known.sync held
  | .play k => known.play k (inserted.filter fun held => decide (held.1 = k.1))
  | .clear => .empty
  | .rebuild => match inserted with
    | none => .empty
    | some held => .fresh held

/-- So much is known that the event finds nothing to do. -/
def Settles (inserted : Option (α × List ι)) (known : Known α ι) : Event α ι → Prop
  | .sync => ∀ held, inserted = some held → known = .holding held ∨ known = .fresh held
  | .play _ => False
  | .clear => known = .empty
  | .rebuild => match inserted with
    | none => known = .empty
    | some held => known = .fresh held

instance (inserted : Option (α × List ι)) (known : Known α ι) :
    ∀ event, Decidable (Settles inserted known event)
  | .sync => match inserted with
    | none => .isTrue fun _ h => by cases h
    | some held => decidable_of_iff (known = .holding held ∨ known = .fresh held)
        ⟨fun h _ heq => Option.some.inj heq ▸ h, fun h => h held rfl⟩
  | .play _ => .isFalse id
  | .clear => inferInstanceAs (Decidable (known = .empty))
  | .rebuild => match inserted with
    | none => inferInstanceAs (Decidable (known = .empty))
    | some held => inferInstanceAs (Decidable (known = .fresh held))

end Known

theorem missing_eq_nil {a : α} {indices : List ι} {s : State α ι} :
    missing a indices s = [] ↔ ∀ i ∈ indices, (a, i) ∈ s.tracks := by
  simp [missing, List.filter_eq_nil_iff]

/-- A shelf that has just an album and its tracks has them. -/
theorem Known.Holds.of_fresh {held : α × List ι} {s : State α ι} (h : Known.Holds (.fresh held) s) :
    Known.Holds (.holding held) s := by
  obtain rfl : s = _ := h
  refine ⟨List.mem_singleton_self _, missing_eq_nil.mpr fun i hi => ?_⟩
  exact List.mem_toFinset.mpr (List.mem_map_of_mem hi)

omit [DecidableEq ι] in
theorem victims_subset {limits : Limits} {da dt : Nat} {candidates : List α} {s : State α ι}
    {a : α} (h : a ∈ victims limits da dt candidates s) : a ∈ candidates := by
  induction candidates generalizing s with
  | nil => exact h
  | cons b rest ih =>
    rw [victims] at h
    split at h
    · rcases List.mem_cons.mp h with rfl | h
      · exact List.mem_cons_self
      · exact List.mem_cons_of_mem _ (ih h)
    · cases h

omit [DecidableEq ι] in
/-- An album that does not go stays, with its tracks. -/
theorem kept_removeAll {a : α} {gone : List α} (h : a ∉ gone) (s : State α ι) :
    (a ∈ s.albums → a ∈ (removeAll gone s).albums) ∧
      ∀ i, (a, i) ∈ s.tracks → (a, i) ∈ (removeAll gone s).tracks := by
  induction gone generalizing s with
  | nil => exact ⟨id, fun _ => id⟩
  | cons b rest ih =>
    obtain ⟨hne, hrest⟩ := not_or.mp (mt List.mem_cons.mpr h)
    obtain ⟨halbums, htracks⟩ := ih hrest (removeAlbum b s)
    refine ⟨fun ha => halbums ?_, fun i hi => htracks i ?_⟩
    · exact List.mem_filter.mpr ⟨ha, decide_eq_true hne⟩
    · exact Finset.mem_filter.mpr ⟨hi, hne⟩

/-- A sync leaves the album and its tracks on the shelf. -/
theorem holding_sync (limits : Limits) (held : α × List ι) (s : State α ι) :
    Known.Holds (.holding held) (sync limits held.1 held.2 s) := by
  obtain ⟨a, indices⟩ := held
  unfold sync
  dsimp only
  have hnot : a ∉ victims limits (newAlbums a s) (missing a indices s).length
      (s.albums.filter fun b => decide (b ≠ a)) s := fun hgone =>
    of_decide_eq_true (List.mem_filter.mp (victims_subset hgone)).2 rfl
  generalize victims limits (newAlbums a s) (missing a indices s).length
    (s.albums.filter fun b => decide (b ≠ a)) s = gone at hnot ⊢
  obtain ⟨halbum, htracks⟩ := kept_removeAll hnot s
  generalize hopened : (if a ∈ s.albums then removeAll gone s
    else addAlbum a (removeAll gone s)) = opened
  have hopen : a ∈ opened.albums ∧ opened.tracks = (removeAll gone s).tracks := by
    rw [← hopened]
    split
    · next ha => exact ⟨halbum ha, rfl⟩
    · exact ⟨List.mem_append_right _ (List.mem_singleton_self a), rfl⟩
  have hadded := plays_addTracks a (missing a indices s) opened
  refine ⟨?_, missing_eq_nil.mpr fun i hi => ?_⟩
  · rw [albums_addTracks]
    exact hopen.1
  · rw [(hadded (a, i)).1, hopen.2]
    by_cases hin : (a, i) ∈ s.tracks
    · exact .inr (htracks i hin)
    · exact .inl ⟨i, List.mem_filter.mpr ⟨hi, decide_eq_true hin⟩, rfl⟩

theorem Known.holds_sync {limits : Limits} {known : Known α ι} {s : State α ι}
    (hroom : ¬ Over limits 0 0 s) (h : known.Holds s) (held : α × List ι) :
    (known.sync held).Holds (Shelf.sync limits held.1 held.2 s) := by
  cases known with
  | nothing => exact holding_sync limits held s
  | holding before => exact holding_sync limits held s
  | empty =>
    obtain rfl : s = _ := h
    exact sync_empty limits held.1 held.2
  | fresh before =>
    simp only [Known.sync]
    split
    · next heq =>
      subst heq
      obtain ⟨ha, hmissing⟩ := h.of_fresh
      rw [sync_of_present hroom ha hmissing]
      exact h
    · exact holding_sync limits held s

/-- The shelf a play is counted on. -/
theorem shelfForPlay_eq (limits : Limits) (inserted : Option (α × List ι)) (k : α × ι)
    (s : State α ι) :
    shelfForPlay limits inserted k s = if k ∈ s.tracks then s else
      match inserted.filter fun held => decide (held.1 = k.1) with
      | none => s
      | some held => Shelf.sync limits held.1 held.2 s := by
  unfold shelfForPlay
  cases inserted with
  | none => rfl
  | some held =>
    by_cases ha : held.1 = k.1
    · have hbrought : (some held).filter (fun held => decide (held.1 = k.1)) = some held :=
        Option.filter_some_pos (by simpa using ha)
      rw [hbrought]
      simp only [if_pos ha]
    · have hbrought : (some held).filter (fun held => decide (held.1 = k.1)) = none :=
        Option.filter_some_neg (by simpa using ha)
      rw [hbrought]
      simp only [if_neg ha]

/-- Counting a play leaves the albums and tracks. -/
theorem Known.Holds.count {held : α × List ι} {k : α × ι} {s : State α ι}
    (h : Known.Holds (.holding held) s) :
    Known.Holds (.holding held) (if k ∈ s.tracks then countPlay k s else s) := by
  split
  · exact h
  · exact h

theorem Known.holds_play {limits : Limits} {known : Known α ι} {s : State α ι}
    (hroom : ¬ Over limits 0 0 s) (h : known.Holds s) (inserted : Option (α × List ι)) (k : α × ι) :
    (known.after inserted (.play k)).Holds (handle limits inserted (.play k) s) := by
  have hshelf := shelfForPlay_eq limits inserted k s
  simp only [Known.after, handle]
  generalize shelfForPlay limits inserted k s = t at hshelf ⊢
  generalize inserted.filter (fun held => decide (held.1 = k.1)) = brought at hshelf ⊢
  cases known with
  | nothing => exact trivial
  | empty =>
    obtain rfl : s = _ := h
    have hnot : k ∉ (Shelf.empty : State α ι).tracks := Finset.notMem_empty k
    rw [if_neg hnot] at hshelf
    cases brought with
    | none =>
      obtain rfl : t = _ := hshelf
      rw [if_neg hnot]
      rfl
    | some held =>
      obtain rfl : t = _ := hshelf
      exact (holding_sync limits held _).count
  | fresh held =>
    have hon : k ∈ s.tracks ↔ k.1 = held.1 ∧ k.2 ∈ held.2 := by
      obtain rfl : s = _ := h
      simp [Prod.ext_iff, eq_comm, and_comm]
    by_cases hk : k.1 = held.1 ∧ k.2 ∈ held.2
    · rw [if_pos (hon.mpr hk)] at hshelf
      subst hshelf
      simp only [Known.play, if_pos hk]
      exact h.of_fresh.count
    · have hnot := mt hon.mp hk
      rw [if_neg hnot] at hshelf
      simp only [Known.play, if_neg hk]
      cases brought with
      | none =>
        obtain rfl : t = _ := hshelf
        rw [if_neg hnot]
        exact h
      | some other =>
        dsimp only at hshelf ⊢
        split
        · next heq =>
          subst heq
          obtain ⟨ha, hmissing⟩ := h.of_fresh
          rw [sync_of_present hroom ha hmissing] at hshelf
          subst hshelf
          rw [if_neg hnot]
          exact h
        · subst hshelf
          exact (holding_sync limits other s).count
  | holding held =>
    by_cases hk : k.1 = held.1 ∧ k.2 ∈ held.2
    · have hin : k ∈ s.tracks := by
        have htrack := missing_eq_nil.mp h.2 k.2 hk.2
        rwa [← hk.1] at htrack
      rw [if_pos hin] at hshelf
      subst hshelf
      simp only [Known.play, if_pos hk]
      exact h.count
    · simp only [Known.play, if_neg hk]
      cases brought with
      | none =>
        rw [ite_self] at hshelf
        subst hshelf
        exact h.count
      | some other =>
        dsimp only at hshelf ⊢
        split
        · next heq =>
          subst heq
          rw [sync_of_present hroom h.1 h.2, ite_self] at hshelf
          subst hshelf
          exact h.count
        · exact trivial

/-- **What is known stays right** from event to event. -/
theorem Known.holds_handle {limits : Limits} {known : Known α ι} {s : State α ι}
    (hroom : ¬ Over limits 0 0 s) (h : known.Holds s) (inserted : Option (α × List ι))
    (event : Event α ι) :
    (known.after inserted event).Holds (handle limits inserted event s) := by
  cases event with
  | sync =>
    cases inserted with
    | none => exact h
    | some held => exact Known.holds_sync hroom h held
  | play k => exact Known.holds_play hroom h inserted k
  | clear => rfl
  | rebuild =>
    cases inserted with
    | none => rfl
    | some held => exact sync_empty limits held.1 held.2

/-- An event that what is known settles finds nothing to do. -/
theorem Known.Settles.settled {inserted : Option (α × List ι)} {known : Known α ι}
    {s : State α ι} {event : Event α ι} (h : known.Settles inserted event) (hs : known.Holds s) :
    Settled inserted s event := by
  cases event with
  | sync =>
    intro a indices hinserted
    rcases h (a, indices) hinserted with rfl | rfl
    · exact hs
    · exact hs.of_fresh
  | play k => exact h.elim
  | clear =>
    obtain rfl : known = .empty := h
    exact hs
  | rebuild =>
    cases inserted with
    | none =>
      obtain rfl : known = .empty := h
      exact hs
    | some held =>
      obtain rfl : known = .fresh held := h
      obtain rfl : s = _ := hs
      exact ⟨rfl, rfl, fun _ => rfl⟩

end Jukeboy.PlayHistory.Shelf
