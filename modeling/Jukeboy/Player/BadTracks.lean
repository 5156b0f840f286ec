import Jukeboy.Player.ShuffleWalk

/-! # Going past a bad track

A start that fails leaves the playlist index where it was. In shuffle mode the
position in the order has moved all the same, so the next `NEXT` tries the track
after the bad one; in the other modes the next index is counted from the playlist
index, and every `NEXT` tries the same track again. -/
namespace Jukeboy.Player.BadTracks

open Jukeboy.Base Jukeboy.Base.Runs Jukeboy.Base.CyclicOrder Jukeboy.Base.LittleEndian
open Jukeboy.Formats.Jbm
open Jukeboy.Player.Track Jukeboy.Player.State Jukeboy.Player.Service
open Jukeboy.Player.StateInvariant Jukeboy.Player.ShuffleWalk

variable {env e : Env} {p q : Service} {s : State} {index : Nat}

/-! ## Tracks and surroundings -/

/-- `player_service_ensure_track_loaded` accepts the track. -/
def Loadable (env : Env) (index : Nat) (p : Service) : Prop :=
  (ensureTrackLoaded env index p).toBool = true

instance (env : Env) (index : Nat) (p : Service) : Decidable (Loadable env index p) :=
  inferInstanceAs (Decidable (_ = _))

/-- The pipeline is idle when a start looks, and both tasks can be sent their start
command. -/
structure TakesStarts (env : Env) : Prop where
  idle : env.idleAtStart = true
  decoder : env.sendDecoder = true
  reader : env.sendReader = true

/-- The same cartridge and files, answering the same, and a pipeline that does. -/
structure LoadsAlike (env e : Env) : Prop where
  cartridge : e.cartridge = env.cartridge
  file : e.file = env.file
  loadIo : e.loadIo = env.loadIo
  takes : TakesStarts e ↔ TakesStarts env

/-- What the target of `NEXT` and the loading of a track depend on. -/
def stand (p : Service) :=
  (p.playlist, p.playlistIndex, p.playbackMode, p.shufflePosition, p.trackInfo.filename)

theorem loadable_congr (h : LoadsAlike env e) (hplaylist : q.playlist = p.playlist)
    (hfile : q.trackInfo.filename = p.trackInfo.filename) :
    Loadable e index q ↔ Loadable env index p := by
  unfold Loadable ensureTrackLoaded
  rw [h.cartridge, h.loadIo, h.file, hplaylist, hfile,
    playlistFilename_congr (congrArg Playlist.count hplaylist)]
  by_cases hlt : index ≥ p.playlist.count
  · simp only [hlt, if_true]
  simp only [hlt, if_false]
  cases p.playlistFilename env.cartridge index with
  | none => rfl
  | some file =>
    dsimp only
    by_cases hsame : p.trackInfo.filename = some file
    · simp only [hsame, if_true]
      rfl
    · simp only [hsame, if_false]
      cases loadTrackInfo file env.loadIo (env.file file) with
      | ok _ => rfl
      | error _ => rfl

theorem exists_ok_iff {α : Type} (x : Except EspErr α) : (∃ r, x = .ok r) ↔ x.toBool = true := by
  cases x with
  | ok r => exact ⟨fun _ => rfl, fun _ => ⟨r, rfl⟩⟩
  | error _ =>
    constructor
    · rintro ⟨r, h⟩
      cases h
    · intro h
      cases h

theorem prepareStart_iff :
    (∃ r, prepareStart env index p = .ok r) ↔ env.idleAtStart = true ∧ Loadable env index p := by
  unfold prepareStart Loadable
  by_cases hlt : index ≥ p.playlist.count
  · simp [hlt, ensureTrackLoaded, Except.toBool]
  by_cases hidle : env.idleAtStart = true
  · simp only [hlt, hidle, if_false, Bool.not_true, Bool.false_eq_true, true_and]
    exact exists_ok_iff _
  · simp [hlt, hidle]

/-! ## One NEXT -/

/-- The index `NEXT` tries, and the service with its position moved. -/
def target (p : Service) : Nat := (nextIndex true p).1

def advance (p : Service) : Service := (nextIndex true p).2

theorem advance_touches (p : Service) : ∃ pos, advance p = { p with shufflePosition := pos } :=
  nextIndex_touches true p

theorem next_congr (h : stand q = stand p) :
    target q = target p ∧ stand (advance q) = stand (advance p) := by
  simp only [stand, Prod.mk.injEq] at h
  obtain ⟨hplaylist, hindex, hmode, hpos, hfile⟩ := h
  unfold target advance nextIndex sequentialNext stand
  rw [hplaylist, hmode, hindex, hpos]
  by_cases hcount : p.playlist.count = 0
  · simp only [hcount, if_true, hplaylist, hindex, hmode, hpos, hfile, and_self]
  · cases hp : p.playbackMode with
    | sequential | singleRepeat =>
      simp only [hcount, if_false, if_true, hplaylist, hindex, hmode, hpos, hfile, hp, and_self]
    | shuffle =>
      simp only [hcount, if_false]
      split
      · simp only [hplaylist, hindex, hmode, hpos, hfile, hp, and_self]
      · simp only [hfile, and_self]

/-- `NEXT` ends with the start of its target. -/
theorem turn_next (e : Env) (hcount : p.playlist.count ≠ 0) :
    ∃ q, stand q = stand (advance p) ∧
      turn e (.control .next) p = runStart e (q, .start (target p) 0) := by
  refine ⟨stopPlayback e { advance p with paused := false }, ?_, ?_⟩
  · unfold stopPlayback
    split <;> rfl
  · rw [turn, handle, handleControl, if_neg hcount]
    rfl

/-- Playback goes on, on a track that loads. -/
structure PlaysLoadable (env : Env) (p : Service) : Prop where
  playing : p.playing = true
  loadable : Loadable env p.playlistIndex p

theorem beginTrack_leaves (env : Env) (index chunk : Nat) (p : Service) :
    (beginTrack env index chunk p).playing = true ∧
      (beginTrack env index chunk p).playlistIndex = index ∧
      (beginTrack env index chunk p).playlist = p.playlist ∧
      (beginTrack env index chunk p).trackInfo = p.trackInfo := by
  unfold beginTrack
  dsimp only
  obtain ⟨pos, hpos⟩ := sync_touches index { p with
    countablePlayEmitted := (decide (index = p.playlistIndex) && decide (p.clampChunk chunk > 0) &&
      (p.playing || p.paused)) && p.countablePlayEmitted
    activeGeneration := SeekRace.nextGeneration p.activeGeneration
    playlistIndex := index }
  rw [hpos]
  exact ⟨rfl, rfl, rfl, rfl⟩

theorem finishStart_leaves (env : Env) (p : Service) :
    (finishStart env p).playing = p.playing ∧
      (finishStart env p).playlistIndex = p.playlistIndex ∧
      (finishStart env p).playlist = p.playlist ∧
      (finishStart env p).trackInfo = p.trackInfo := by
  have h := @Service.resumeOnly_cache p env
  exact ⟨h.eq (·.playing) fun _ _ => rfl, h.eq (·.playlistIndex) fun _ _ => rfl,
    h.eq (·.playlist) fun _ _ => rfl, h.eq (·.trackInfo) fun _ _ => rfl⟩

/-- A start that succeeds plays its track, which is loaded. -/
theorem startTrack_plays {r : Service} (hr : prepareStart e index p = .ok r) :
    PlaysLoadable e (finishStart e (beginTrack e index 0 r)) := by
  obtain ⟨hlt, hprepared, ⟨file, hname, hfile⟩, -⟩ := prepareStart_ok hr
  obtain ⟨hplaying, hindex, hbegun, hinfo⟩ := beginTrack_leaves e index 0 r
  obtain ⟨hplaying', hindex', hbegun', hinfo'⟩ := finishStart_leaves e (beginTrack e index 0 r)
  have hplaylist : (finishStart e (beginTrack e index 0 r)).playlist = p.playlist := by
    rw [hbegun', hbegun, hprepared]
  refine ⟨hplaying'.trans hplaying, ?_⟩
  unfold Loadable ensureTrackLoaded
  rw [hindex', hindex, hplaylist, playlistFilename_congr (congrArg Playlist.count hplaylist),
    hfile, if_neg (Nat.not_le.mpr hlt), hinfo', hinfo]
  dsimp only
  rw [if_pos hname]
  rfl

/-- A start leaves the playlist, whatever becomes of it. -/
theorem runStart_playlist (e : Env) (index chunk : Nat) (p : Service) :
    (runStart e (p, .start index chunk)).service.playlist = p.playlist := by
  have hstart : (startTrack e index chunk p).2.playlist = p.playlist := by
    unfold startTrack
    split
    · rfl
    · next r hr =>
      obtain ⟨-, hplaylist, -⟩ := prepareStart_ok hr
      have hbegun := (beginTrack_leaves e index chunk r).2.2.1
      have heq : r.playlist = p.playlist := by rw [hplaylist]
      dsimp only
      split
      · exact hbegun.trans heq
      split
      · exact hbegun.trans heq
      · exact (finishStart_leaves e _).2.2.1.trans (hbegun.trans heq)
  unfold runStart
  dsimp only
  split <;> exact hstart

/-- **A start plays** exactly a track that loads, into a pipeline that takes it. -/
theorem runStart_plays_iff :
    PlaysLoadable e (runStart e (p, .start index 0)).service ↔
      TakesStarts e ∧ Loadable e index p := by
  by_cases hprep : ∃ r, prepareStart e index p = .ok r
  · obtain ⟨hidle, hload⟩ := prepareStart_iff.mp hprep
    obtain ⟨r, hr⟩ := hprep
    simp only [runStart, startTrack, hr]
    by_cases hdecoder : e.sendDecoder = true
    · by_cases hreader : e.sendReader = true
      · simp only [hdecoder, hreader, Bool.not_true, Bool.false_eq_true, if_false, if_true]
        exact ⟨fun _ => ⟨⟨hidle, hdecoder, hreader⟩, hload⟩, fun _ => startTrack_plays hr⟩
      · simp only [hdecoder, hreader, Bool.not_true, Bool.not_false, Bool.false_eq_true, if_false,
          if_true, reduceCtorEq]
        exact ⟨fun h => (by cases h.playing), fun h => absurd h.1.reader hreader⟩
    · simp only [hdecoder, Bool.not_false, if_true, reduceCtorEq, if_false]
      exact ⟨fun h => (by cases h.playing), fun h => absurd h.1.decoder hdecoder⟩
  · rw [runStart_refused hprep]
    refine ⟨fun h => (by cases h.playing), fun h => absurd ?_ hprep⟩
    exact prepareStart_iff.mpr ⟨h.1.idle, h.2⟩

/-- A `NEXT` onto a track that does not load moves the position alone. -/
theorem stand_next_refused (hcount : p.playlist.count ≠ 0) (hload : ¬ Loadable e (target p) p) :
    stand (turn e (.control .next) p).service = stand (advance p) := by
  obtain ⟨q, hq, hturn⟩ := turn_next e hcount
  obtain ⟨pos, hpos⟩ := advance_touches p
  have hstand := hq
  simp only [stand, hpos, Prod.mk.injEq] at hstand
  obtain ⟨hplaylist, -, -, -, hfile⟩ := hstand
  have hrefused : ¬ ∃ r, prepareStart e (target p) q = .ok r := by
    rw [prepareStart_iff, loadable_congr ⟨rfl, rfl, rfl, Iff.rfl⟩ hplaylist hfile]
    exact fun h => hload h.2
  rw [hturn, runStart_refused hrefused, ← hq]
  rfl

/-! ## Presses -/

/-- A step of the decoder or of the reader. -/
def Quiet : Action → Prop
  | .decoded _ _ _ | .windowed _ _ _ => True
  | .message _ _ | .setMode _ _ => False

/-- `NEXT` is handled, after whatever the pipeline tasks did. -/
structure Press where
  quiet : List Action
  env : Env

def Press.actions (x : Press) : List Action := x.quiet ++ [.message (.control .next) x.env]

def presses (xs : List Press) : List Action := xs.flatMap Press.actions

/-- A press in surroundings where the same tracks load. -/
structure Press.Alike (env : Env) (x : Press) : Prop where
  quiet : ∀ a ∈ x.quiet, Quiet a
  alike : LoadsAlike env x.env

theorem quiet_run {as : List Action} (h : ∀ a ∈ as, Quiet a) :
    ∃ t, run step s as = some t ∧ stand t.service = stand s.service := by
  induction as generalizing s with
  | nil => exact ⟨s, rfl, rfl⟩
  | cons a as ih =>
    have hfirst : ∃ t, step s a = some t ∧ stand t.service = stand s.service := by
      cases a with
      | message _ _ | setMode _ _ => exact absurd (h _ List.mem_cons_self) id
      | decoded cart chunk crcOk =>
        obtain ⟨emitted, posted, hdecoded⟩ := decodeChunk_touches cart chunk crcOk s.service
        refine ⟨_, rfl, ?_⟩
        dsimp only
        rw [hdecoded]
        rfl
      | windowed file io chunk =>
        refine ⟨_, rfl, ?_⟩
        simp only [stand, (ensureWindow_frame file io s.service.trackInfo chunk).1]
    obtain ⟨t, ht, hstand⟩ := hfirst
    obtain ⟨u, hu, hrest⟩ := ih fun b hb => h b (List.mem_cons_of_mem a hb)
    exact ⟨u, by rw [run_cons_some as ht, hu], hrest.trans hstand⟩

/-- **One press**: it plays exactly a track that loads; a track that does not leaves
the service standing, with its position moved. -/
theorem press_run {x : Press} (hx : x.Alike env) (hs : stand s.service = stand p)
    (hcount : p.playlist.count ≠ 0) :
    ∃ t, run step s x.actions = some t ∧ t.service.playlist = p.playlist ∧
      (PlaysLoadable env t.service ↔ TakesStarts env ∧ Loadable env (target p) p) ∧
      (¬ Loadable env (target p) p → stand t.service = stand (advance p)) := by
  obtain ⟨u, hu, hstand⟩ := quiet_run hx.quiet
  have hup : stand u.service = stand p := hstand.trans hs
  have hfields := hup
  simp only [stand, Prod.mk.injEq] at hfields
  obtain ⟨hplaylist, -, -, -, hfile⟩ := hfields
  have hucount : u.service.playlist.count ≠ 0 := hplaylist ▸ hcount
  obtain ⟨htarget, hadvance⟩ := next_congr hup
  obtain ⟨q, hq, hturn⟩ := turn_next x.env hucount
  rw [htarget] at hturn
  obtain ⟨pos, hpos⟩ := advance_touches p
  have hqfields := hq.trans hadvance
  simp only [stand, hpos, Prod.mk.injEq] at hqfields
  obtain ⟨hqplaylist, -, -, -, hqfile⟩ := hqfields
  obtain ⟨t, hstep, hservice⟩ : ∃ t, step u (.message (.control .next) x.env) = some t ∧
      t.service = (turn x.env (.control .next) u.service).service := ⟨_, rfl, rfl⟩
  refine ⟨t, ?_, ?_, ?_, ?_⟩
  · rw [Press.actions, run_append, hu, Option.bind_some, run_cons_some [] hstep, run_nil]
  · rw [hservice, hturn, runStart_playlist, hqplaylist]
  · have hplays : PlaysLoadable env t.service ↔ PlaysLoadable x.env t.service :=
      ⟨fun h => ⟨h.playing, (loadable_congr hx.alike rfl rfl).mpr h.loadable⟩,
        fun h => ⟨h.playing, (loadable_congr hx.alike rfl rfl).mp h.loadable⟩⟩
    rw [hplays, hservice, hturn, runStart_plays_iff, hx.alike.takes,
      loadable_congr hx.alike hqplaylist hqfile]
  · intro hload
    rw [hservice]
    refine (stand_next_refused hucount ?_).trans hadvance
    rw [htarget, loadable_congr hx.alike hplaylist hfile]
    exact hload

/-- The presses end on a track that plays. -/
def PlaysAfter (env : Env) (xs : List Press) (s : State) : Prop :=
  ∃ t, run step s (presses xs) = some t ∧ PlaysLoadable env t.service

theorem playsAfter_cons {x : Press} {xs : List Press} {t : State}
    (ht : run step s x.actions = some t) :
    PlaysAfter env (x :: xs) s ↔ PlaysAfter env xs t := by
  unfold PlaysAfter presses
  rw [List.flatMap_cons, run_append, ht]
  exact Iff.rfl

/-- **Presses play in the end** when, and only when, one of the tracks they would try
one after the other loads. -/
theorem presses_play_iff {xs : List Press} (hxs : ∀ x ∈ xs, x.Alike env)
    (hs : stand s.service = stand p) (hcount : p.playlist.count ≠ 0) :
    (∃ k, k < xs.length ∧ PlaysAfter env (xs.take (k + 1)) s) ↔
      TakesStarts env ∧ ∃ k, k < xs.length ∧ Loadable env (target (advance^[k] p)) p := by
  induction xs generalizing s p with
  | nil => simp
  | cons x xs ih =>
    obtain ⟨t, ht, hplaylist, hplays, hrefused⟩ :=
      press_run (hxs x List.mem_cons_self) hs hcount
    have hxs' : ∀ y ∈ xs, y.Alike env := fun y hy => hxs y (List.mem_cons_of_mem x hy)
    have hone : PlaysAfter env [x] s ↔ PlaysLoadable env t.service := by
      rw [playsAfter_cons ht]
      exact ⟨fun ⟨u, hu, h⟩ => Option.some.inj hu ▸ h, fun h => ⟨t, rfl, h⟩⟩
    by_cases hfirst : TakesStarts env ∧ Loadable env (target p) p
    · refine ⟨fun _ => ⟨hfirst.1, 0, Nat.zero_lt_succ _, hfirst.2⟩, fun _ => ⟨0, ?_, ?_⟩⟩
      · exact Nat.zero_lt_succ _
      · exact hone.mpr (hplays.mpr hfirst)
    · -- the first press fails, and the others go on from where it left the service
      have hrest : (∃ k, k < (x :: xs).length ∧ PlaysAfter env ((x :: xs).take (k + 1)) s) ↔
          ∃ k, k < xs.length ∧ PlaysAfter env (xs.take (k + 1)) t := by
        constructor
        · rintro ⟨k, hk, hafter⟩
          cases k with
          | zero => exact absurd (hplays.mp (hone.mp hafter)) hfirst
          | succ k => exact ⟨k, Nat.lt_of_succ_lt_succ hk, (playsAfter_cons ht).mp hafter⟩
        · rintro ⟨k, hk, hafter⟩
          exact ⟨k + 1, Nat.succ_lt_succ hk, (playsAfter_cons ht).mpr hafter⟩
      rw [hrest]
      by_cases htakes : TakesStarts env
      · have hload : ¬ Loadable env (target p) p := fun h => hfirst ⟨htakes, h⟩
        obtain ⟨pos, hpos⟩ := advance_touches p
        have hcount' : (advance p).playlist.count ≠ 0 := by
          rw [hpos]
          exact hcount
        rw [ih hxs' (hrefused hload) hcount']
        refine and_congr_right fun _ => ?_
        have hsame : ∀ i, Loadable env i (advance p) ↔ Loadable env i p := fun i =>
          loadable_congr ⟨rfl, rfl, rfl, Iff.rfl⟩ (by rw [hpos]) (by rw [hpos])
        constructor
        · rintro ⟨k, hk, hk'⟩
          exact ⟨k + 1, Nat.succ_lt_succ hk, (hsame _).mp hk'⟩
        · rintro ⟨k, hk, hk'⟩
          cases k with
          | zero => exact absurd hk' hload
          | succ k => exact ⟨k, Nat.lt_of_succ_lt_succ hk, (hsame _).mpr hk'⟩
      · rw [ih hxs' (rfl : stand t.service = stand t.service) (hplaylist ▸ hcount)]
        exact ⟨fun h => absurd h.1 htakes, fun h => absurd h.1 htakes⟩

/-! ## The tracks that are tried -/

/-- Outside shuffle mode every press tries the track after the playlist index. -/
theorem target_fixed (hmode : p.playbackMode ≠ .shuffle) (hcount : p.playlist.count ≠ 0) (k : Nat) :
    target (advance^[k] p) = sequentialNext p := by
  have hnext : nextIndex true p = (sequentialNext p, p) := by
    unfold nextIndex
    rw [if_neg hcount]
    cases hp : p.playbackMode with
    | sequential | singleRepeat => rfl
    | shuffle => exact absurd hp hmode
  have hadvance : advance p = p := congrArg Prod.snd hnext
  rw [Function.iterate_fixed hadvance k]
  exact congrArg Prod.fst hnext

/-- In shuffle mode the presses walk around the order. -/
theorem target_shuffle (h : Shuffling p) (k : Nat) :
    target (advance^[k] p) =
      trackAt p ((nextPos p.playlist.count p.shufflePosition + k) % p.playlist.count) := by
  have hn : 0 < p.playlist.count := Nat.lt_of_lt_of_le Nat.zero_lt_two h.2
  -- the position after `k` refusals, from which the next step is counted
  have hwalk : ∃ pos, advance^[k] p = { p with shufflePosition := pos } ∧
      nextPos p.playlist.count pos =
        (nextPos p.playlist.count p.shufflePosition + k) % p.playlist.count := by
    induction k with
    | zero =>
      refine ⟨p.shufflePosition, rfl, ?_⟩
      rw [Nat.add_zero, Nat.mod_eq_of_lt (nextPos_lt hn _)]
    | succ k ih =>
      obtain ⟨pos, hpos, hnext⟩ := ih
      have hs : Shuffling { p with shufflePosition := pos } := h
      refine ⟨some (nextPos p.playlist.count pos), ?_, ?_⟩
      · rw [Function.iterate_succ_apply', hpos, advance, nextIndex_shuffle hs]
      · rw [hnext, nextPos_add hn]
  obtain ⟨pos, hpos, hnext⟩ := hwalk
  have hs : Shuffling { p with shufflePosition := pos } := h
  rw [hpos, target, nextIndex_shuffle hs]
  dsimp only
  rw [hnext]
  rfl

/-- As many presses as tracks try every track of a shuffled playlist. -/
theorem exists_target_shuffle (h : Shuffling p) (hindex : index < p.playlist.count) :
    ∃ k, k < p.playlist.count ∧ target (advance^[k] p) = index := by
  have hn : 0 < p.playlist.count := Nat.lt_of_lt_of_le Nat.zero_lt_two h.2
  have hmem : index ∈ p.playlist.shuffleOrder := by
    rw [p.playlist.isPerm.mem_iff, List.mem_range]
    exact hindex
  obtain ⟨j, hj, hget⟩ := List.mem_iff_getElem.mp hmem
  have hjcount : j < p.playlist.count := p.playlist.length_shuffleOrder ▸ hj
  obtain ⟨k, hk, hkj⟩ := exists_add_mod (nextPos_lt hn p.shufflePosition) hjcount
  refine ⟨k, hk, ?_⟩
  rw [target_shuffle h, hkj, trackAt]
  have hgetD := Playlist.getElem?_order hjcount
  rw [List.getElem?_eq_getElem hj, hget] at hgetD
  exact (Option.some.inj hgetD).symm

/-! ## When no bad track traps the player -/

/-- Another track than the current one can be loaded. -/
def OtherLoadable (env : Env) (p : Service) : Prop :=
  ∃ index, index < p.playlist.count ∧ index ≠ p.playlistIndex ∧ Loadable env index p

instance (env : Env) (p : Service) : Decidable (OtherLoadable env p) :=
  inferInstanceAs (Decidable (∃ index, index < p.playlist.count ∧ _))

/-- Where another track can be loaded, one of the presses plays a track that loads. -/
def Untrapped (env : Env) (xs : List Press) (s : State) : Prop :=
  OtherLoadable env s.service → ∃ k, k < xs.length ∧ PlaysAfter env (xs.take (k + 1)) s

/-- **When NEXT passes a bad track**: the mode is shuffle, or the track after the
current one in the playlist loads. -/
def NextPasses (env : Env) (p : Service) : Prop :=
  OtherLoadable env p →
    TakesStarts env ∧ (p.playbackMode = .shuffle ∨ Loadable env (sequentialNext p) p)

theorem untrapped_iff {xs : List Press} (hxs : ∀ x ∈ xs, x.Alike env)
    (hlength : xs.length = s.service.playlist.count) :
    Untrapped env xs s ↔ NextPasses env s.service := by
  refine imp_congr_right fun ⟨i, hi, _, hload⟩ => ?_
  have hn : 0 < s.service.playlist.count := Nat.zero_lt_of_lt hi
  rw [presses_play_iff hxs (rfl : stand s.service = stand s.service) (Nat.ne_of_gt hn), hlength]
  refine and_congr_right fun _ => ?_
  by_cases hmode : s.service.playbackMode = .shuffle
  · refine ⟨fun _ => .inl hmode, fun _ => ?_⟩
    by_cases hone : s.service.playlist.count = 1
    · -- the only track is the one that loads
      have htarget : target s.service = 0 := by
        rw [target, nextIndex, if_neg (Nat.ne_of_gt hn), hmode]
        dsimp only
        rw [if_pos hone]
      refine ⟨0, hn, ?_⟩
      rw [Function.iterate_zero_apply, htarget, ← (by omega : i = 0)]
      exact hload
    · obtain ⟨k, hk, htarget⟩ := exists_target_shuffle ⟨hmode, by omega⟩ hi
      exact ⟨k, hk, htarget ▸ hload⟩
  · constructor
    · rintro ⟨k, -, hk⟩
      exact .inr (target_fixed hmode (Nat.ne_of_gt hn) k ▸ hk)
    · rintro (hshuffle | hnext)
      · exact absurd hshuffle hmode
      · exact ⟨0, hn, (target_fixed hmode (Nat.ne_of_gt hn) 0).symm ▸ hnext⟩

/-! ## The automatic advance -/

/-- The active session has completed, and the next track does not load. -/
structure AdvanceRefused (e : Env) (generation : Nat) (p : Service) : Prop where
  active : generation = p.activeGeneration
  live : p.activeGeneration ≠ p.cancelledGeneration
  count_ne : p.playlist.count ≠ 0
  refused : ¬ Loadable e (nextIndex false p).1 p

/-- An automatic advance onto a bad track ends playback and moves the position at
most. -/
theorem turn_advance_refused {generation : Nat} (h : AdvanceRefused e generation p) :
    ∃ pos posted, (turn e (.trackComplete generation) p).service =
      { p with shufflePosition := pos, posted := posted, playing := false } := by
  obtain ⟨rfl, hlive, hcount, hrefused⟩ := h
  obtain ⟨posted, hcomplete⟩ := handleTrackComplete_live e hlive
  obtain ⟨pos, hpos⟩ := nextIndex_touches false { p with posted := posted }
  have hprep : ¬ ∃ r, prepareStart e (nextIndex false { p with posted := posted }).1
      (nextIndex false { p with posted := posted }).2 = .ok r := by
    rw [prepareStart_iff, hpos, nextIndex_posted]
    rintro ⟨-, hload⟩
    exact hrefused ((loadable_congr (p := p) ⟨rfl, rfl, rfl, Iff.rfl⟩ (by rfl) (by rfl)).mp hload)
  refine ⟨pos, posted, ?_⟩
  rw [turn, handle, hcomplete, if_neg hcount, finishHandler, runStart_refused hprep, hpos]
  intro _ h
  cases h

theorem nextPasses_congr (hplaylist : q.playlist = p.playlist)
    (hindex : q.playlistIndex = p.playlistIndex) (hmode : q.playbackMode = p.playbackMode)
    (hfile : q.trackInfo.filename = p.trackInfo.filename) :
    NextPasses env q ↔ NextPasses env p := by
  have hload : ∀ i, Loadable env i q ↔ Loadable env i p := fun i =>
    loadable_congr ⟨rfl, rfl, rfl, Iff.rfl⟩ hplaylist hfile
  unfold NextPasses OtherLoadable sequentialNext
  simp only [hload, hplaylist, hindex, hmode]

/-- A bad track does not trap the player: from this state, and from the one every
automatic advance onto a bad track leaves, the presses reach a track that plays. -/
def NotTrapped (env : Env) (xs : List Press) (s : State) : Prop :=
  Untrapped env xs s ∧
    ∀ e generation t, LoadsAlike env e → AdvanceRefused e generation s.service →
      step s (.message (.trackComplete generation) e) = some t → Untrapped env xs t

/-- **A bad track does not trap the player** exactly in shuffle mode, where the next
track loads, or where no other does. -/
theorem not_trapped_iff (env : Env) (s : State) {xs : List Press} (hxs : ∀ x ∈ xs, x.Alike env)
    (hlength : xs.length = s.service.playlist.count) :
    NotTrapped env xs s ↔ NextPasses env s.service := by
  refine ⟨fun h => (untrapped_iff hxs hlength).mp h.1, fun h => ⟨?_, ?_⟩⟩
  · exact (untrapped_iff hxs hlength).mpr h
  · intro e generation t _ hrefused hstep
    obtain ⟨pos, posted, hturn⟩ := turn_advance_refused hrefused
    have hservice : t.service =
        { s.service with shufflePosition := pos, posted := posted, playing := false } := by
      rw [← hturn]
      cases hstep
      rfl
    refine (untrapped_iff hxs ?_).mpr ?_
    · rw [hservice]
      exact hlength
    · rw [hservice]
      exact (nextPasses_congr (p := s.service) (by rfl) (by rfl) (by rfl) (by rfl)).mpr h

/-! ## A track that cannot be read

Three tracks in files of their own, of which the second is empty. -/

theorem length_numberedHeader :
    ([1, 0, 0, 0, 7, 0, 0, 0] ++ List.replicate 1640 0 ++ [3, 0, 0, 0] : List UInt8).length = 1652 := by
  decide +kernel

def numberedTrack (fileNum : Nat) : JbmTrack := .ofBytes (List.replicate 388 0 ++ leBytes 4 fileNum)

def numberedTracks : Metadata where
  header :=
    ⟨[1, 0, 0, 0, 7, 0, 0, 0] ++ List.replicate 1640 0 ++ [3, 0, 0, 0], length_numberedHeader⟩
  tracks := [numberedTrack 0, numberedTrack 1, numberedTrack 2]
  trackCount_eq := by decide +kernel
  tracks_le := by decide

def badTrackEnv : Env :=
  { calmEnv with
    cartridge := ⟨true, some numberedTracks⟩
    file := fun n => if n = 1 then [] else SeekRace.shortFile }

/-- `NEXT` as often as there are tracks. -/
def threePresses : List Press := List.replicate 3 ⟨[], badTrackEnv⟩

theorem threePresses_alike : ∀ x ∈ threePresses, x.Alike badTrackEnv := by
  intro x hx
  obtain rfl := List.eq_of_mem_replicate hx
  exact ⟨fun a ha => absurd ha List.not_mem_nil, rfl, rfl, rfl, Iff.rfl⟩

/-- In shuffle mode the presses pass the bad track. -/
theorem not_trapped_shuffling :
    ∃ s, run step (initState none none badTrackEnv.cartridge)
        [.message .cartridgeInserted badTrackEnv, .setMode .shuffle fun _ => 0] = some s ∧
      NotTrapped badTrackEnv threePresses s := by
  have hchecked : (run step (initState none none badTrackEnv.cartridge)
      [.message .cartridgeInserted badTrackEnv, .setMode .shuffle fun _ => 0]).map
        (fun s => (s.service.playbackMode, s.service.playlist.count)) = some (.shuffle, 3) := by
    decide +kernel
  obtain ⟨s, hrun, hs⟩ := Option.map_eq_some_iff.mp hchecked
  obtain ⟨hmode, hcount⟩ := Prod.mk.inj hs
  refine ⟨s, hrun, (not_trapped_iff badTrackEnv s threePresses_alike hcount.symm).mpr ?_⟩
  exact fun _ => ⟨⟨rfl, rfl, rfl⟩, .inl hmode⟩

/-- **A trap**: the first of the three tracks plays in order, and `NEXT` tries the
second one each time. -/
theorem trapped_before_bad_track :
    ¬ ∀ (resumeRtc : Option ResumeState) (resumeNvs : Option ResumeBlob) (cart : Cartridge)
      (as : List Action) (s : State), run step (initState resumeRtc resumeNvs cart) as = some s →
      ∀ (env : Env) (xs : List Press), (∀ x ∈ xs, x.Alike env) →
        xs.length = s.service.playlist.count → NotTrapped env xs s := by
  intro h
  have hchecked : (run step (initState none none badTrackEnv.cartridge)
      [.message .cartridgeInserted badTrackEnv]).map
        (fun s => (s.service.playlist.count, decide (OtherLoadable badTrackEnv s.service),
          decide (s.service.playbackMode = .shuffle ∨
            Loadable badTrackEnv (sequentialNext s.service) s.service))) =
      some (3, true, false) := by
    decide +kernel
  obtain ⟨s, hrun, hs⟩ := Option.map_eq_some_iff.mp hchecked
  simp only [Prod.mk.injEq, decide_eq_true_eq, decide_eq_false_iff_not] at hs
  obtain ⟨hcount, hother, hpasses⟩ := hs
  have huntrapped := (h none none _ _ s hrun badTrackEnv threePresses threePresses_alike
    hcount.symm).1
  exact hpasses ((untrapped_iff threePresses_alike hcount.symm).mp huntrapped hother).2

end Jukeboy.Player.BadTracks
