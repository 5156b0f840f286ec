import Jukeboy.Player.StateInvariant

/-! # Walking the shuffle order

In shuffle mode an advance moves the position one step around the order and
starts the track there, and every start brings the position in step with the
track it starts. A playlist is therefore covered by as many advances as it has
tracks, from wherever the position is; that the advances never repeat a track
and that `PREVIOUS` undoes `NEXT` needs the position to be in step. -/
namespace Jukeboy.Player.ShuffleWalk

open Jukeboy.Base Jukeboy.Base.Runs Jukeboy.Base.CyclicOrder Jukeboy.Formats.Jbm
open Jukeboy.Player.Track Jukeboy.Player.State Jukeboy.Player.Service
open Jukeboy.Player.StateInvariant

variable {env : Env} {p q : Service} {index chunk pos : Nat}

/-! ## The order that is built -/

theorem shuffledOrder_head_ne (random : Nat → Nat) {count : Nat} (hn : 2 ≤ count) (index : Nat) :
    (shuffledOrder random count index).head? ≠ some index := by
  have hperm := shuffleFrom_perm random (count - 1) (List.range count)
  unfold shuffledOrder
  rw [if_pos (show 1 < count by omega)]
  refine avoidFirst_head_ne (hperm.nodup_iff.mpr List.nodup_range) (by omega) ?_
  rw [hperm.length_eq, List.length_range]
  have := Nat.mod_lt (random 0) (show 0 < count - 1 by omega)
  omega

theorem Playlist.getElem?_order {l : Playlist} (h : pos < l.count) :
    l.shuffleOrder[pos]? = some (l.shuffleOrder.getD pos 0) := by
  have hlt : pos < l.shuffleOrder.length := l.length_shuffleOrder ▸ h
  rw [List.getD_eq_getElem?_getD, List.getElem?_eq_getElem hlt, Option.getD_some]

/-- Different positions hold different tracks. -/
theorem Playlist.order_inj {l : Playlist} {i j : Nat} (hi : i < l.count) (hj : j < l.count)
    (h : l.shuffleOrder.getD i 0 = l.shuffleOrder.getD j 0) : i = j := by
  have heq : l.shuffleOrder[i]? = l.shuffleOrder[j]? := by
    rw [Playlist.getElem?_order hi, Playlist.getElem?_order hj, h]
  exact (List.getElem?_inj (l.length_shuffleOrder ▸ hi) l.nodup_shuffleOrder).mp heq

/-- The search of a start finds the position the track was taken from. -/
theorem Playlist.idxOf_order {l : Playlist} (h : pos < l.count) :
    l.shuffleOrder.idxOf? (l.shuffleOrder.getD pos 0) = some pos := by
  have hlt : pos < l.shuffleOrder.length := l.length_shuffleOrder ▸ h
  have hget : l.shuffleOrder[pos] = l.shuffleOrder.getD pos 0 :=
    Option.some.inj ((List.getElem?_eq_getElem hlt).symm.trans (Playlist.getElem?_order h))
  rw [List.idxOf?_eq_some_iff, ← hget]
  refine ⟨hlt, rfl, fun j hj heq => ?_⟩
  have := l.nodup_shuffleOrder.getElem_inj_iff.mp heq
  omega

/-! ## What a turn does to the walk -/

/-- The order, the position in it and the mode. -/
def walk (p : Service) := (p.playlist, p.shufflePosition, p.playbackMode)

theorem walk_resumeOnly (h : p.ResumeOnly q) : walk q = walk p := h.eq walk fun _ _ => rfl

theorem walk_stopPlayback (env : Env) (p : Service) : walk (stopPlayback env p) = walk p := by
  unfold stopPlayback
  split <;> rfl

/-- In shuffle mode, among at least two tracks. -/
def Shuffling (p : Service) : Prop := p.playbackMode = .shuffle ∧ 2 ≤ p.playlist.count

theorem Shuffling.congr (h : Shuffling p) (hq : walk q = walk p) : Shuffling q := by
  simp only [walk, Prod.mk.injEq] at hq
  obtain ⟨hlist, -, hmode⟩ := hq
  exact ⟨hmode.trans h.1, hlist ▸ h.2⟩

/-- The track at a position of the order. -/
def trackAt (p : Service) (pos : Nat) : Nat := p.playlist.shuffleOrder.getD pos 0

/-- The walk stands at a position. -/
def walkAt (p : Service) (pos : Nat) := (p.playlist, some pos, PlaybackMode.shuffle)

theorem nextIndex_shuffle (h : Shuffling p) (manual : Bool) :
    nextIndex manual p = (trackAt p (nextPos p.playlist.count p.shufflePosition),
      { p with shufflePosition := some (nextPos p.playlist.count p.shufflePosition) }) := by
  have hn := h.2
  unfold nextIndex
  rw [if_neg (by omega), h.1]
  dsimp only
  rw [if_neg (by omega)]
  rfl

theorem prevIndex_shuffle (h : Shuffling p) :
    prevIndex p = (trackAt p (prevPos p.playlist.count p.shufflePosition),
      { p with shufflePosition := some (prevPos p.playlist.count p.shufflePosition) }) := by
  have hn := h.2
  unfold prevIndex
  rw [if_neg (by omega), if_pos ⟨h.1, by omega⟩]
  rfl

/-- The start of the track at the position the walk stands at leaves the walk there. -/
theorem walk_sync (hwalk : walk q = walkAt p pos) (hpos : pos < p.playlist.count) :
    walk (syncShufflePosition (trackAt p pos) q) = walkAt p pos := by
  have hq := hwalk
  simp only [walk, walkAt, Prod.mk.injEq] at hq
  obtain ⟨hlist, hposition, hmode⟩ := hq
  unfold syncShufflePosition
  rw [if_pos hmode, hlist, trackAt, Playlist.idxOf_order hpos]
  simp only [walk, walkAt, hmode]

theorem beginTrack_walk (env : Env) (index chunk : Nat) (p : Service) :
    walk (beginTrack env index chunk p) = walk (syncShufflePosition index p) ∧
      (beginTrack env index chunk p).playlistIndex = index := by
  unfold beginTrack syncShufflePosition
  dsimp only
  split
  · split <;> exact ⟨rfl, rfl⟩
  · exact ⟨rfl, rfl⟩

/-- A start that succeeds stands at its track, and the walk with it. -/
theorem startTrack_ok (hwalk : walk q = walkAt p pos) (hpos : pos < p.playlist.count)
    (hok : (startTrack env (trackAt p pos) chunk q).1 = .ok) :
    walk (startTrack env (trackAt p pos) chunk q).2 = walkAt p pos ∧
      (startTrack env (trackAt p pos) chunk q).2.playlistIndex = trackAt p pos := by
  unfold startTrack at hok ⊢
  cases hprep : prepareStart env (trackAt p pos) q with
  | error err =>
    rw [hprep] at hok
    cases hok
    exact absurd hprep prepareStart_ne_error_ok
  | ok r =>
    obtain ⟨-, hr, -⟩ := prepareStart_ok hprep
    have hwalk' : walk r = walkAt p pos := by
      rw [hr]
      exact hwalk
    obtain ⟨hbegun, hindex⟩ := beginTrack_walk env (trackAt p pos) chunk r
    rw [walk_sync hwalk' hpos] at hbegun
    rw [hprep] at hok
    dsimp only at hok ⊢
    split at hok
    · cases hok
    split at hok
    · cases hok
    · next hdec hread =>
      rw [if_neg hdec, if_neg hread]
      refine ⟨(walk_resumeOnly Service.resumeOnly_cache).trans hbegun, ?_⟩
      exact (Service.resumeOnly_cache.eq (·.playlistIndex) fun _ _ => rfl).trans hindex

/-! ## Turns in shuffle mode -/

/-- The messages that advance: `NEXT`, and the completion of the active session. -/
def Advancing (p : Service) (msg : Msg) : Prop :=
  msg = .control .next ∨
    msg = .trackComplete p.activeGeneration ∧ p.activeGeneration ≠ p.cancelledGeneration

/-- **An advance starts the track at the next position.** -/
theorem turn_advancing {msg : Msg} (h : Shuffling p) (hadv : Advancing p msg) :
    ∃ q, walk q = walkAt p (nextPos p.playlist.count p.shufflePosition) ∧
      q.playlistIndex = p.playlistIndex ∧
      turn env msg p =
        runStart env (q, .start (trackAt p (nextPos p.playlist.count p.shufflePosition)) 0) := by
  have hn := h.2
  rcases hadv with rfl | ⟨rfl, hcancelled⟩
  · refine ⟨stopPlayback env { (nextIndex true p).2 with paused := false }, ?_, ?_, ?_⟩
    · rw [walk_stopPlayback, nextIndex_shuffle h]
      simp only [walk, walkAt, h.1]
    · rw [nextIndex_shuffle h]
      unfold stopPlayback
      split <;> rfl
    · rw [turn, handle, handleControl, if_neg (by omega), nextIndex_shuffle h]
      rfl
  · obtain ⟨posted, hlive⟩ := handleTrackComplete_live env hcancelled
    have hs : Shuffling { p with posted := posted } := h
    refine ⟨(nextIndex false { p with posted := posted }).2, ?_, ?_, ?_⟩
    · rw [nextIndex_shuffle hs]
      simp only [walk, walkAt, h.1]
    · rw [nextIndex_shuffle hs]
    · rw [turn, handle, hlive, if_neg (by omega), nextIndex_shuffle hs]
      rfl

/-- `PREVIOUS` does not restart the current track: its position, once the
pipeline stopped, is not past the restart limit. -/
def StepsBack (env : Env) (p : Service) : Prop :=
  (stopPlayback env { p with paused := false }).shouldRestartCurrentTrack = false

instance (env : Env) (p : Service) : Decidable (StepsBack env p) :=
  inferInstanceAs (Decidable (_ = _))

/-- **`PREVIOUS` starts the track at the previous position**, unless it restarts
the current one. -/
theorem turn_previous (h : Shuffling p) (hback : StepsBack env p) :
    ∃ q, walk q = walkAt p (prevPos p.playlist.count p.shufflePosition) ∧
      turn env (.control .previous) p =
        runStart env (q, .start (trackAt p (prevPos p.playlist.count p.shufflePosition)) 0) := by
  have hn := h.2
  have hw : walk (stopPlayback env { p with paused := false }) = walk p := walk_stopPlayback ..
  have hs := h.congr hw
  unfold StepsBack at hback
  generalize hq : stopPlayback env { p with paused := false } = q at hback hw hs
  simp only [walk, Prod.mk.injEq] at hw
  obtain ⟨hlist, hpos, hmode⟩ := hw
  refine ⟨(prevIndex q).2, ?_, ?_⟩
  · rw [prevIndex_shuffle hs]
    simp only [walk, walkAt, hlist, hpos, hs.1]
  · rw [turn, handle, handleControl, if_neg (by omega)]
    simp only [finishHandler, hq, afterStop, hback, Bool.false_eq_true, if_false,
      prevIndex_shuffle hs, trackAt, hlist, hpos]

theorem runStart_started (env : Env) (p : Service) (index chunk : Nat) :
    (runStart env (p, .start index chunk)).started = some (index, (startTrack env index chunk p).1) :=
  rfl

/-- A start that ends a turn and succeeds leaves the walk at its track. -/
theorem runStart_ok (hwalk : walk q = walkAt p pos) (hpos : pos < p.playlist.count)
    (hok : (startTrack env (trackAt p pos) chunk q).1 = .ok) :
    walk (runStart env (q, .start (trackAt p pos) chunk)).service = walkAt p pos ∧
      (runStart env (q, .start (trackAt p pos) chunk)).service.playlistIndex = trackAt p pos := by
  have h := startTrack_ok hwalk hpos hok
  simp only [runStart, hok, if_true]
  exact h

/-! ## Coverage -/

/-- The track a step starts, when its start succeeds. -/
def startOf (s : State) : Action → Option Nat
  | .message msg env =>
    (turn env msg s.service).started.bind fun start =>
      if start.2 = .ok then some start.1 else none
  | _ => none

/-- The tracks a run starts, in order. -/
def startsOf : State → List Action → List Nat
  | _, [] => []
  | s, a :: as =>
    (startOf s a).toList ++ match step s a with
      | some t => startsOf t as
      | none => []

def isMessage : Action → Bool
  | .message _ _ => true
  | _ => false

/-- The step is an advance, manual or automatic, whose start succeeds; or the
decoder or the reader makes progress. -/
def Advances (s : State) : Action → Prop
  | .message msg env =>
    Advancing s.service msg ∧ ∃ index, (turn env msg s.service).started = some (index, .ok)
  | .setMode _ _ => False
  | .decoded _ _ _ => True
  | .windowed _ _ _ => True

theorem walk_decodeChunk (cart : Cartridge) (chunk : Nat) (crcOk : Bool) (p : Service) :
    walk (decodeChunk cart chunk crcOk p) = walk p ∧
      (decodeChunk cart chunk crcOk p).playlistIndex = p.playlistIndex := by
  obtain ⟨emitted, posted, h⟩ := decodeChunk_touches cart chunk crcOk p
  rw [h]
  exact ⟨rfl, rfl⟩

/-- An advance whose start succeeds starts the next track of the order and
leaves the walk, and the current index, there. -/
theorem advance_step {msg : Msg} (h : Shuffling p) (hadv : Advancing p msg)
    (hok : (turn env msg p).started = some (index, .ok)) :
    index = trackAt p (nextPos p.playlist.count p.shufflePosition) ∧
      walk (turn env msg p).service = walkAt p (nextPos p.playlist.count p.shufflePosition) ∧
      (turn env msg p).service.playlistIndex = index := by
  have hn := h.2
  obtain ⟨q, hwalk, -, hturn⟩ := @turn_advancing env p msg h hadv
  rw [hturn, runStart_started, Option.some.injEq, Prod.mk.injEq] at hok
  obtain ⟨rfl, hok⟩ := hok
  rw [hturn]
  exact ⟨rfl, runStart_ok hwalk (nextPos_lt (by omega) _) hok⟩

/-- The progress of the other tasks leaves the walk alone. -/
theorem quiet_step {s t : State} {a : Action} (ha : isMessage a = false) (hadv : Advances s a)
    (hstep : step s a = some t) :
    walk t.service = walk s.service ∧ t.service.playlistIndex = s.service.playlistIndex ∧
      startOf s a = none := by
  cases a with
  | message msg env => cases ha
  | setMode mode random => exact hadv.elim
  | decoded cart chunk crcOk =>
    cases hstep
    exact ⟨(walk_decodeChunk ..).1, (walk_decodeChunk ..).2, rfl⟩
  | windowed file io chunk =>
    cases hstep
    exact ⟨rfl, rfl, rfl⟩

/-- The tracks started so far and those of a run of advances are the first
entries of the order, turned to where the walk began. -/
theorem take_append_startsOf {l : Playlist} {q k : Nat} {as : List Action} {s : State}
    (h : Shuffling s.service) (hlist : s.service.playlist = l)
    (hpos : nextPos l.count s.service.shufflePosition = (q + k) % l.count)
    (hadv : Along step Advances s as) (hle : k + as.countP isMessage ≤ l.count) :
    (l.shuffleOrder.rotate q).take k ++ startsOf s as =
      (l.shuffleOrder.rotate q).take (k + as.countP isMessage) := by
  induction as generalizing s k with
  | nil => simp [startsOf]
  | cons a as ih =>
    obtain ⟨hfirst, hrest⟩ := hadv
    cases hmsg : isMessage a with
    | false =>
      rw [List.countP_cons_of_neg (by simp [hmsg])] at hle ⊢
      obtain ⟨t, ht⟩ : ∃ t, step s a = some t := by cases a <;> exact ⟨_, rfl⟩
      obtain ⟨hwalk, -, hstart⟩ := quiet_step hmsg hfirst ht
      have hw := hwalk
      simp only [walk, Prod.mk.injEq] at hw
      rw [startsOf, hstart, ht]
      exact ih (h.congr hwalk) (hw.1.trans hlist) (by rw [hw.2.1, hpos]) (hrest t ht) hle
    | true =>
      rw [List.countP_cons_of_pos hmsg] at hle ⊢
      cases a with
      | setMode _ _ | decoded _ _ _ | windowed _ _ _ => cases hmsg
      | message msg env =>
        obtain ⟨hadvancing, index, hok⟩ := hfirst
        obtain ⟨hindex, hwalk, -⟩ := advance_step h hadvancing hok
        have hn : 0 < l.count := by omega
        rw [hlist, hpos] at hindex hwalk
        obtain ⟨t, ht⟩ : ∃ t, step s (.message msg env) = some t := ⟨_, rfl⟩
        have hts : t.service = (turn env msg s.service).service := by
          cases ht
          rfl
        have hw := hwalk
        rw [← hts] at hw
        simp only [walk, walkAt, Prod.mk.injEq] at hw
        have hentry : l.shuffleOrder[(q + k) % l.shuffleOrder.length]? = some index := by
          rw [l.length_shuffleOrder, Playlist.getElem?_order (Nat.mod_lt _ hn), hindex, trackAt,
            hlist]
        have hshuffling : Shuffling t.service := by
          refine ⟨hw.2.2, ?_⟩
          rw [hw.1]
          exact h.2
        rw [startsOf, startOf, hok, ht]
        change _ ++ ([index] ++ startsOf t as) = _
        rw [← List.append_assoc, ← take_rotate_succ q (by rw [l.length_shuffleOrder]; omega) hentry,
          show k + (as.countP isMessage + 1) = k + 1 + as.countP isMessage by omega]
        refine ih hshuffling (hw.1.trans hlist) ?_ (hrest t ht) (by omega)
        rw [hw.2.1, nextPos_add hn]

/-- **Shuffle covers the playlist.** The order that is built for `n ≥ 2` tracks
holds every index once and begins with another track than the current one; and
from every state in shuffle mode, the not-started one included, `n` advances
whose starts succeed start every track exactly once. -/
theorem shuffle_covers (random : Nat → Nat) {n : Nat} (hn : 2 ≤ n) (index : Nat) :
    (buildShuffleOrder random n index).shuffleOrder.Perm (List.range n) ∧
      (buildShuffleOrder random n index).shuffleOrder.head? ≠ some index ∧
      ∀ (s : State) (as : List Action), s.service.playbackMode = .shuffle →
        s.service.playlist.count = n → Along step Advances s as → as.countP isMessage = n →
        (startsOf s as).Perm (List.range n) := by
  refine ⟨shuffledOrder_perm .., shuffledOrder_head_ne random hn index, ?_⟩
  rintro s as hmode rfl hadv hcount
  have hpos : nextPos s.service.playlist.count s.service.shufflePosition =
      (nextPos s.service.playlist.count s.service.shufflePosition + 0) %
        s.service.playlist.count := by
    rw [Nat.add_zero, Nat.mod_eq_of_lt (nextPos_lt (by omega) _)]
  have htaken := take_append_startsOf ⟨hmode, hn⟩ rfl hpos hadv (by omega)
  rw [List.take_zero, List.nil_append, Nat.zero_add, hcount,
    ← s.service.playlist.length_shuffleOrder] at htaken
  rw [htaken]
  exact (take_rotate_perm ..).trans s.service.playlist.isPerm

instance (p : Service) (msg : Msg) : Decidable (Advancing p msg) :=
  inferInstanceAs (Decidable (_ ∨ _ ∧ _))

instance (s : State) : (a : Action) → Decidable (Advances s a)
  | .message msg env =>
    decidable_of_iff (Advancing s.service msg ∧
        (turn env msg s.service).started.map Prod.snd = some .ok) <| by
      refine and_congr_right fun _ => ?_
      rw [Option.map_eq_some_iff]
      exact ⟨fun ⟨⟨index, _⟩, h, heq⟩ => ⟨index, heq ▸ h⟩, fun ⟨index, h⟩ => ⟨_, h, rfl⟩⟩
  | .setMode _ _ => .isFalse id
  | .decoded _ _ _ => .isTrue trivial
  | .windowed _ _ _ => .isTrue trivial

/-- Three tracks, the first playing when shuffle mode is set. -/
def shuffling : List Action :=
  [.message .cartridgeInserted calmEnv, .setMode .shuffle fun _ => 0]

def threeNexts : List Action := List.replicate 3 (.message (.control .next) calmEnv)

theorem shuffle_covers_three :
    ∃ s, run step (initState none none calmEnv.cartridge) shuffling = some s ∧
      (startsOf s threeNexts).Perm (List.range 3) := by
  have hchecked : (run step (initState none none calmEnv.cartridge) shuffling).map
      (fun s => (s.service.playbackMode, s.service.playlist.count,
        decide (Along step Advances s threeNexts))) = some (.shuffle, 3, true) := by
    decide +kernel
  obtain ⟨s, hrun, hs⟩ := Option.map_eq_some_iff.mp hchecked
  simp only [Prod.mk.injEq, decide_eq_true_eq] at hs
  obtain ⟨hmode, hcount, hadv⟩ := hs
  exact ⟨s, hrun, (shuffle_covers (fun _ => 0) (by decide) 0).2.2 s threeNexts hmode hcount hadv rfl⟩

/-! ## The position in range -/

/-- The playlist fits its storage, and the position lies in the order. -/
def InRange (p : Service) : Prop :=
  p.playlist.count ≤ maxTrackFiles ∧
    ∀ pos ∈ p.shufflePosition, p.playlist.count ≠ 0 → pos < p.playlist.count

theorem InRange.congr (h : InRange p) (hq : walk q = walk p) : InRange q := by
  simp only [walk, Prod.mk.injEq] at hq
  obtain ⟨hlist, hpos, -⟩ := hq
  unfold InRange
  rw [hlist, hpos]
  exact h

theorem InRange.cached (h : InRange p) (env : Env) : InRange (p.cacheCurrentPlaybackStatus env) :=
  h.congr (walk_resumeOnly Service.resumeOnly_cache)

theorem inRange_nextIndex (h : InRange p) (manual : Bool) : InRange (nextIndex manual p).2 := by
  unfold nextIndex
  split
  · exact h
  · next hcount =>
    split
    · exact h
    · split
      · exact h
      · refine ⟨h.1, ?_⟩
        rintro pos ⟨⟩ -
        exact nextPos_lt (Nat.pos_of_ne_zero hcount) _
    · exact h

theorem inRange_prevIndex (h : InRange p) : InRange (prevIndex p).2 := by
  unfold prevIndex
  split
  · exact h
  · next hcount =>
    split
    · refine ⟨h.1, ?_⟩
      rintro pos ⟨⟩ -
      exact prevPos_lt (Nat.pos_of_ne_zero hcount) fun pos hpos => h.2 pos hpos hcount
    · exact h

theorem inRange_sync (h : InRange p) (index : Nat) : InRange (syncShufflePosition index p) := by
  unfold syncShufflePosition
  split
  · split
    · next i hi =>
      refine ⟨h.1, ?_⟩
      rintro pos ⟨⟩ -
      obtain ⟨hlt, -⟩ := List.idxOf?_eq_some_iff.mp hi
      exact p.playlist.length_shuffleOrder ▸ hlt
    · exact h
  · exact h

theorem prepareStart_walk (h : prepareStart env index p = .ok q) : walk q = walk p := by
  obtain ⟨-, hq, -⟩ := prepareStart_ok h
  rw [hq]
  rfl

theorem inRange_startTrack (h : InRange p) : InRange (startTrack env index chunk p).2 := by
  unfold startTrack
  split
  · exact h
  · next q hprep =>
    have hbegun : InRange (beginTrack env index chunk q) :=
      (inRange_sync (h.congr (prepareStart_walk hprep)) index).congr (beginTrack_walk ..).1
    dsimp only
    split
    · exact hbegun
    · split
      · exact hbegun
      · exact hbegun.cached env

theorem inRange_restorePausedTrack (h : InRange p) :
    InRange (restorePausedTrack env index chunk p).2 := by
  unfold restorePausedTrack
  split
  · exact h
  · next q hprep =>
    have hprepared : InRange q := h.congr (prepareStart_walk hprep)
    have hentered : InRange { q with countablePlayEmitted := false, playlistIndex := index } :=
      hprepared
    have hsynced := inRange_sync hentered index
    dsimp only
    generalize syncShufflePosition index _ = r at hsynced ⊢
    refine InRange.cached ?_ env
    exact hsynced

theorem inRange_runStart {r : Service × Next} (h : InRange r.1) :
    InRange (runStart env r).service := by
  obtain ⟨p, next⟩ := r
  cases next with
  | done | stop _ => exact h
  | start index chunk =>
    have hs := @inRange_startTrack env p index chunk h
    simp only [runStart]
    split
    · exact hs
    · exact hs
  | restorePaused index chunk =>
    have hs := @inRange_restorePausedTrack env p index chunk h
    simp only [runStart]
    split
    · exact hs
    · exact hs

theorem inRange_setPlaybackMode (h : InRange p) (random : Nat → Nat) (mode : PlaybackMode) :
    InRange (setPlaybackMode random mode p) := by
  unfold setPlaybackMode
  dsimp only
  split
  · refine ⟨?_, fun _ h => by cases h⟩
    dsimp only
    split
    · exact h.1
    · exact h.1
  · exact h

theorem inRange_scanPlaylist (env : Env) (p : Service) : InRange (scanPlaylist env p) := by
  unfold scanPlaylist
  dsimp only
  split
  · exact ⟨Nat.zero_le _, fun _ _ hcount => absurd rfl hcount⟩
  · next hcount => exact ⟨Nat.le_of_not_lt fun h => hcount (.inr h), fun _ h => by cases h⟩

theorem inRange_afterStop (h : InRange p) (after : AfterStop) :
    InRange (afterStop env p after).1 := by
  cases after with
  | start _ | seek => exact h
  | previous =>
    rw [afterStop]
    split
    · exact h
    · exact inRange_prevIndex h
  | pause _ =>
    have hpaused : InRange { p with paused := true } := h
    exact hpaused.cached env
  | removed => exact ⟨Nat.zero_le _, fun _ _ hcount => absurd rfl hcount⟩
  | inserted =>
    rw [afterStop, afterInserted]
    dsimp only
    split
    · exact h
    · have hscan := inRange_scanPlaylist env
        { p with trackInfo := .zero, paused := false, playing := false, trackStartedUnix := 0 }
      split
      · exact hscan
      · have hloaded := hscan.congr (walk_resumeOnly (@Service.resumeOnly_loadSaved _ env))
        split
        all_goals
          next hload =>
          rw [hload] at hloaded
          exact hloaded

theorem inRange_seekTo (h : InRange p) (target : Nat) : InRange (seekTo env target p).1 := by
  unfold seekTo
  split
  · exact h
  · dsimp only
    split
    · exact h
    · have hmoved : InRange
          { p with resumeChunk := target, trackInfo := invalidateLookupWindow p.trackInfo } := h
      exact hmoved.cached env

theorem inRange_handle (h : InRange p) (msg : Msg) : InRange (handle env p msg).1 := by
  cases msg with
  | cartridgeInserted | cartridgeRemoved => exact h
  | persistForShutdown => exact h.congr (walk_resumeOnly Service.resumeOnly_persist)
  | playIndex _ =>
    rw [handle]
    split
    · exact h
    · exact h
  | seekAbsolute _ =>
    rw [handle]
    split
    · exact h
    · exact inRange_seekTo h _
  | trackComplete generation =>
    rw [handle]
    by_cases hlive : generation = p.activeGeneration ∧ generation ≠ p.cancelledGeneration
    · obtain ⟨rfl, hcancelled⟩ := hlive
      obtain ⟨posted, heq⟩ := handleTrackComplete_live env hcancelled
      have hposted : InRange { p with posted := posted } := h
      rw [heq]
      split
      · exact h
      · exact inRange_nextIndex hposted false
    · rw [handleTrackComplete_stale env hlive]
      exact h
  | control control =>
    rw [handle]
    cases control with
    | next =>
      rw [handleControl]
      split
      · exact h
      · exact inRange_nextIndex h true
    | fastForward | fastBackward =>
      rw [handleControl]
      split
      · exact h
      · exact inRange_seekTo h _
    | previous | volumeUp | volumeDown =>
      rw [handleControl]
      split
      · exact h
      · exact h
    | pause =>
      rw [handleControl]
      split
      · exact h
      · split
        · exact h
        · exact h

theorem inRange_turn (h : InRange p) (msg : Msg) : InRange (turn env msg p).service := by
  have hhandle : InRange (handle env p msg).1 := inRange_handle h msg
  unfold turn
  generalize handle env p msg = r at hhandle ⊢
  obtain ⟨q, next⟩ := r
  cases next with
  | stop after => exact inRange_runStart (inRange_afterStop (hhandle.congr (walk_stopPlayback ..)) after)
  | done | start _ _ | restorePaused _ _ => exact inRange_runStart hhandle

theorem inRange_step {s t : State} (a : Action) (h : InRange s.service)
    (hstep : step s a = some t) : InRange t.service := by
  cases a with
  | message msg env =>
    cases hstep
    exact inRange_turn h msg
  | setMode mode random =>
    cases hstep
    exact inRange_setPlaybackMode h random mode
  | decoded cart chunk crcOk =>
    cases hstep
    exact h.congr (walk_decodeChunk ..).1
  | windowed file io chunk =>
    cases hstep
    exact h

/-! ## Repeats and undoing -/

/-- **The position is in step**: it is the position of the current track. -/
def InStep (p : Service) : Prop :=
  ∃ pos, p.shufflePosition = some pos ∧ pos < p.playlist.count ∧ trackAt p pos = p.playlistIndex

/-- No advance and no step back targets the current track, and a step back
after a `NEXT` that started its track, with any progress of the decoder and the
reader between them, targets the track that was current before. -/
structure Regular (s : State) : Prop where
  advance_ne : ∀ env msg index err, Advancing s.service msg →
    (turn env msg s.service).started = some (index, err) → index ≠ s.service.playlistIndex
  previous_ne : ∀ env index err, StepsBack env s.service →
    (turn env (.control .previous) s.service).started = some (index, err) →
    index ≠ s.service.playlistIndex
  previous_undoes : ∀ env index as u env',
    (turn env (.control .next) s.service).started = some (index, .ok) →
    run step s (.message (.control .next) env :: as) = some u →
    Along step Advances s (.message (.control .next) env :: as) → as.countP isMessage = 0 →
    StepsBack env' u.service →
    (turn env' (.control .previous) u.service).started.map Prod.fst = some s.service.playlistIndex

/-- The progress of the other tasks over a run. -/
theorem quiet_run {s u : State} {as : List Action} (hadv : Along step Advances s as)
    (hquiet : as.countP isMessage = 0) (hrun : run step s as = some u) :
    walk u.service = walk s.service ∧ u.service.playlistIndex = s.service.playlistIndex := by
  induction as generalizing s with
  | nil =>
    cases hrun
    exact ⟨rfl, rfl⟩
  | cons a as ih =>
    have hmsg : isMessage a = false := by
      by_contra h
      rw [List.countP_cons_of_pos (Bool.not_eq_false _ ▸ h)] at hquiet
      cases hquiet
    rw [List.countP_cons_of_neg (by simp [hmsg])] at hquiet
    rw [run_cons] at hrun
    obtain ⟨t, ht, hrun⟩ := Option.bind_eq_some_iff.mp hrun
    obtain ⟨hwalk, hindex, -⟩ := quiet_step hmsg hadv.1 ht
    obtain ⟨hwalk', hindex'⟩ := ih (hadv.2 t ht) hquiet hrun
    exact ⟨hwalk'.trans hwalk, hindex'.trans hindex⟩

theorem trackAt_inj {i j : Nat} (hi : i < p.playlist.count) (hj : j < p.playlist.count)
    (h : trackAt p i = trackAt p j) : i = j :=
  Playlist.order_inj hi hj h

/-- What a `NEXT` and the step back after it target. -/
theorem previous_after_next {s u : State} {as : List Action} {env env' : Env}
    (h : Shuffling s.service) (hok : (turn env (.control .next) s.service).started = some (index, .ok))
    (hrun : run step s (.message (.control .next) env :: as) = some u)
    (hadv : Along step Advances s (.message (.control .next) env :: as))
    (hquiet : as.countP isMessage = 0) (hback : StepsBack env' u.service) :
    (turn env' (.control .previous) u.service).started.map Prod.fst =
      some (trackAt s.service (prevPos s.service.playlist.count
        (some (nextPos s.service.playlist.count s.service.shufflePosition)))) := by
  obtain ⟨-, hwalk, -⟩ := advance_step h (.inl rfl) hok
  obtain ⟨t, ht, hrest⟩ := Option.bind_eq_some_iff.mp hrun
  have hts : t.service = (turn env (.control .next) s.service).service := by
    cases ht
    rfl
  obtain ⟨hquietWalk, -⟩ := quiet_run (hadv.2 t ht) hquiet hrest
  rw [← hts, ← hquietWalk] at hwalk
  simp only [walk, walkAt, Prod.mk.injEq] at hwalk
  obtain ⟨hlist, hpos, hmode⟩ := hwalk
  have hu : Shuffling u.service := ⟨hmode, hlist ▸ h.2⟩
  obtain ⟨q, -, hturn⟩ := turn_previous hu hback
  rw [hturn, runStart_started, Option.map_some, trackAt, trackAt, hlist, hpos]

theorem regular_of_inStep {s : State} (h : Shuffling s.service) (hstep : InStep s.service) :
    Regular s := by
  have hn := h.2
  obtain ⟨pos, hpos, hlt, htrack⟩ := hstep
  refine ⟨?_, ?_, ?_⟩
  · rintro env msg index err hadv hstarted rfl
    obtain ⟨q, -, -, hturn⟩ := @turn_advancing env _ msg h hadv
    rw [hturn, runStart_started, Option.some.injEq, Prod.mk.injEq, hpos, ← htrack] at hstarted
    exact nextPos_ne hn hlt (trackAt_inj (nextPos_lt (by omega) _) hlt hstarted.1)
  · rintro env index err hback hstarted rfl
    obtain ⟨q, -, hturn⟩ := turn_previous h hback
    rw [hturn, runStart_started, Option.some.injEq, Prod.mk.injEq, hpos, ← htrack] at hstarted
    refine prevPos_ne hn hlt (trackAt_inj (prevPos_lt (by omega) ?_) hlt hstarted.1)
    rintro _ ⟨⟩
    exact hlt
  · intro env index as u env' hok hrun hadv hquiet hback
    rw [previous_after_next h hok hrun hadv hquiet hback, hpos, prevPos_nextPos hlt, htrack]

/-! ## A walk that is out of step -/

theorem length_fullTracks_le : (List.replicate maxTrackFiles JbmTrack.zero).length ≤ maxTrackFiles :=
  List.length_replicate.le

/-- A cartridge with as many tracks as there can be, all in one file. -/
def fullMetadata : Metadata where
  header := ⟨[1, 0, 0, 0, 7, 0, 0, 0] ++ List.replicate 1640 0 ++ [231, 3, 0, 0],
    by decide +kernel⟩
  tracks := List.replicate maxTrackFiles .zero
  trackCount_eq := by
    rw [List.length_replicate]
    decide +kernel
  tracks_le := length_fullTracks_le

/-- Every start succeeds, and the decoder stands at the beginning of the track. -/
def openEnv : Env := { calmEnv with cartridge := ⟨true, some fullMetadata⟩, idleAtStop := false }

theorem startable_openEnv (h : index < q.playlist.count) (hle : index < maxTrackFiles) :
    Startable openEnv index q := by
  have hmeta : openEnv.cartridge.getMetadataTrack index = some .zero := by
    have hcount : fullMetadata.header.trackCount.toNat = maxTrackFiles :=
      fullMetadata.trackCount_eq.trans (List.length_replicate ..)
    change (if fullMetadata.header.trackCount.toNat ≤ index then none
      else (List.replicate maxTrackFiles JbmTrack.zero)[index]?) = _
    rw [if_neg (by omega), List.getElem?_replicate, if_pos hle]
  have hname : formatTrackFilename JbmTrack.zero.fileNum = some 0 := by decide +kernel
  refine ⟨h, rfl, 0, ?_, .inr ?_⟩
  · rw [Service.playlistFilename, if_neg (Nat.not_le.mpr h), hmeta]
    exact hname
  · change (loadTrackInfo 0 {} SeekRace.shortFile).toBool = true
    rw [SeekRace.loadTrackInfo_shortFile]
    rfl

theorem startTrack_openEnv (h : index < q.playlist.count) (hle : index < maxTrackFiles) :
    (startTrack openEnv index chunk q).1 = .ok := by
  obtain ⟨r, hr⟩ := startable_iff.mp (startable_openEnv h hle)
  simp only [startTrack, hr]
  rfl

/-- The track a stopped decoder left at its beginning is not restarted. -/
theorem stepsBack_openEnv (p : Service) : StepsBack openEnv p := by
  unfold StepsBack Service.shouldRestartCurrentTrack
  split
  · rfl
  · next hlen =>
    rw [decide_eq_false_iff_not]
    change ¬ clampChunkIndex p.trackInfo.lookupTableLen 0 > previousRestartSeconds
    unfold clampChunkIndex previousRestartSeconds
    split
    · omega
    · split <;> omega

theorem inStep_of_regular {s : State} (h : Shuffling s.service) (hrange : InRange s.service)
    (hregular : Regular s) : InStep s.service := by
  have hn := h.2
  have hcount := hrange.1
  have hnext := nextPos_lt (n := s.service.playlist.count) (by omega) s.service.shufflePosition
  obtain ⟨q, hwalk, -, hturn⟩ := @turn_advancing openEnv _ _ h (.inl rfl)
  have hlist : q.playlist = s.service.playlist := congrArg Prod.fst hwalk
  have htarget : trackAt s.service (nextPos s.service.playlist.count s.service.shufflePosition) <
      s.service.playlist.count := by
    have hmem := List.mem_of_getElem? (Playlist.getElem?_order hnext)
    exact List.mem_range.mp (s.service.playlist.isPerm.mem_iff.mp hmem)
  have hok : (turn openEnv (.control .next) s.service).started =
      some (trackAt s.service (nextPos s.service.playlist.count s.service.shufflePosition), .ok) := by
    rw [hturn, runStart_started, startTrack_openEnv (hlist ▸ htarget) (by omega)]
  obtain ⟨u, hu⟩ : ∃ u, run step s [.message (.control .next) openEnv] = some u := ⟨_, rfl⟩
  have hadv : Along step Advances s [.message (.control .next) openEnv] :=
    ⟨⟨.inl rfl, _, hok⟩, fun _ _ => trivial⟩
  have hundo := hregular.previous_undoes openEnv _ [] u openEnv hok hu hadv rfl (stepsBack_openEnv _)
  rw [previous_after_next h hok hu hadv rfl (stepsBack_openEnv _), Option.some.injEq] at hundo
  cases hpos : s.service.shufflePosition with
  | none =>
    -- The step back wraps to the last entry, whether or not a `NEXT` came before it.
    obtain ⟨r, -, hback⟩ := turn_previous h (stepsBack_openEnv s.service)
    rw [hpos] at hback hundo
    exact absurd hundo (hregular.previous_ne openEnv _ _ (stepsBack_openEnv _) (by rw [hback]; rfl))
  | some pos =>
    have hlt := hrange.2 pos hpos (by omega)
    rw [hpos, prevPos_nextPos hlt] at hundo
    exact ⟨pos, hpos, hlt, hundo⟩

/-- **Shuffle is regular exactly in step.** In every reachable state in shuffle
mode with at least two tracks, an advance or a step back never targets the
current track and a step back undoes a `NEXT`, if and only if the position is
the one of the current track. -/
theorem regular_iff_inStep (resumeRtc : Option ResumeState) (resumeNvs : Option ResumeBlob)
    (cart : Cartridge) {as : List Action} {s : State}
    (hrun : run step (initState resumeRtc resumeNvs cart) as = some s)
    (hmode : s.service.playbackMode = .shuffle) (hn : 2 ≤ s.service.playlist.count) :
    Regular s ↔ InStep s.service := by
  have hinit : InRange (initState resumeRtc resumeNvs cart).service :=
    ⟨Nat.zero_le _, fun _ _ hcount => absurd rfl hcount⟩
  have hrange : InRange s.service :=
    @run_invariant _ _ step (fun _ _ => True) (fun s => InRange s.service)
      (fun _ a _ hs _ hst => inRange_step a hs hst) _ _ _ hinit (along_true as) hrun
  exact ⟨inStep_of_regular ⟨hmode, hn⟩ hrange, regular_of_inStep ⟨hmode, hn⟩⟩

theorem regular_iff_inStep_started :
    ∃ s, run step (initState none none calmEnv.cartridge)
        (shuffling ++ [.message (.control .next) calmEnv]) = some s ∧ Regular s := by
  have hchecked : (run step (initState none none calmEnv.cartridge)
      (shuffling ++ [.message (.control .next) calmEnv])).map
      (fun s => (s.service.playbackMode, s.service.playlist.count, s.service.shufflePosition,
        decide (trackAt s.service 0 = s.service.playlistIndex))) =
          some (.shuffle, 3, some 0, true) := by
    decide +kernel
  obtain ⟨s, hrun, hs⟩ := Option.map_eq_some_iff.mp hchecked
  simp only [Prod.mk.injEq, decide_eq_true_eq] at hs
  obtain ⟨hmode, hcount, hpos, htrack⟩ := hs
  exact ⟨s, hrun, (regular_iff_inStep none none _ hrun hmode (by omega)).mpr
    ⟨0, hpos, by omega, htrack⟩⟩

/-- **Right after shuffle mode is set, `PREVIOUS` can repeat the current track.** -/
theorem shuffle_repeats :
    ¬ ∀ (resumeRtc : Option ResumeState) (resumeNvs : Option ResumeBlob) (cart : Cartridge)
      (as : List Action) (s : State), run step (initState resumeRtc resumeNvs cart) as = some s →
      s.service.playbackMode = .shuffle → 2 ≤ s.service.playlist.count → Regular s := by
  intro h
  have hchecked : (run step (initState none none calmEnv.cartridge) shuffling).map
      (fun s => (s.service.playbackMode, s.service.playlist.count,
        decide (StepsBack calmEnv s.service),
        decide ((turn calmEnv (.control .previous) s.service).started = some (0, .ok)),
        s.service.playlistIndex)) = some (.shuffle, 3, true, true, 0) := by
    decide +kernel
  obtain ⟨s, hrun, hs⟩ := Option.map_eq_some_iff.mp hchecked
  simp only [Prod.mk.injEq, decide_eq_true_eq] at hs
  obtain ⟨hmode, hcount, hback, hstarted, hindex⟩ := hs
  exact (h none none _ _ s hrun hmode (by omega)).previous_ne calmEnv 0 .ok hback hstarted
    hindex.symm

end Jukeboy.Player.ShuffleWalk
