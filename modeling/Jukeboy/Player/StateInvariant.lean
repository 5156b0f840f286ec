import Jukeboy.Player.Service
import Jukeboy.Player.LookupWindow

/-! # The player's flags agree with its track

`s_paused` implies `s_playing`, and `s_playing` implies that the current index
lies in the playlist, that the loaded track is the file of that index and that
the resume position lies in it. Every message keeps this, whatever fails, as
long as no start fails before it cleared `s_paused`: those that resume a paused
track do not clear it first. -/
namespace Jukeboy.Player.StateInvariant

open Jukeboy.Base Jukeboy.Base.Runs Jukeboy.Formats.Jbm
open Jukeboy.Player.Track Jukeboy.Player.LookupWindow Jukeboy.Player.State Jukeboy.Player.Service

variable {cart : Cartridge} {env : Env} {p q : Service} {index chunk : Nat}

/-! ## The invariant -/

/-- What `s_playing` promises, for the cartridge the track was started on. -/
structure Current (cart : Cartridge) (p : Service) : Prop where
  index_lt : p.playlistIndex < p.playlist.count
  loaded : ∃ file, p.trackInfo.filename = some file ∧
    p.playlistFilename cart p.playlistIndex = some file
  resume_lt : p.resumeChunk < p.trackInfo.lookupTableLen

structure Sound (cart : Cartridge) (p : Service) : Prop where
  paused_playing : p.paused = true → p.playing = true
  current : p.playing = true → Current cart p
  table_nonempty : p.trackInfo.filename ≠ none → 0 < p.trackInfo.lookupTableLen

/-- The variables the invariant is about. -/
def vitals (p : Service) :=
  (p.playing, p.paused, p.playlist.count, p.playlistIndex, p.resumeChunk,
    p.trackInfo.filename, p.trackInfo.lookupTableLen)

theorem playlistFilename_congr (h : q.playlist.count = p.playlist.count) (cart : Cartridge)
    (index : Nat) : q.playlistFilename cart index = p.playlistFilename cart index := by
  simp only [Service.playlistFilename, h]

theorem Sound.congr (h : Sound cart p) (hq : vitals q = vitals p) : Sound cart q := by
  simp only [vitals, Prod.mk.injEq] at hq
  obtain ⟨hplaying, hpaused, hcount, hindex, hresume, hfile, hlen⟩ := hq
  refine ⟨?_, ?_, ?_⟩
  · rw [hplaying, hpaused]
    exact h.paused_playing
  · intro hp
    obtain ⟨hlt, hloaded, hres⟩ := h.current (hplaying ▸ hp)
    refine ⟨by rw [hindex, hcount]; exact hlt, ?_, by rw [hresume, hlen]; exact hres⟩
    rw [hfile, hindex, playlistFilename_congr hcount]
    exact hloaded
  · rw [hfile, hlen]
    exact h.table_nonempty

/-- Stopping keeps the invariant, provided the pause ends too. -/
theorem Sound.stopped (h : Sound cart p) (hpaused : p.paused = false) :
    Sound cart { p with playing := false } :=
  ⟨fun hp => (by cases hpaused ▸ hp), fun h => (by cases h), h.table_nonempty⟩

theorem Sound.unpaused (h : Sound cart p) : Sound cart { p with paused := false } :=
  ⟨fun h => (by cases h), fun hp => ⟨(h.current hp).1, (h.current hp).2, (h.current hp).3⟩,
   h.table_nonempty⟩

/-! ## Frames -/

@[simp] theorem vitals_post (p : Service) (e : Event) : vitals (p.post e) = vitals p := rfl

theorem vitals_resumeOnly (h : p.ResumeOnly q) : vitals q = vitals p := h.eq vitals fun _ _ => rfl

@[simp] theorem vitals_cache (env : Env) (p : Service) :
    vitals (p.cacheCurrentPlaybackStatus env) = vitals p :=
  vitals_resumeOnly Service.resumeOnly_cache

@[simp] theorem vitals_sync (index : Nat) (p : Service) :
    vitals (syncShufflePosition index p) = vitals p := by
  obtain ⟨pos, h⟩ := sync_touches index p
  rw [h]
  rfl

theorem vitals_nextIndex (manual : Bool) (p : Service) :
    vitals (nextIndex manual p).2 = vitals p := by
  obtain ⟨pos, h⟩ := nextIndex_touches manual p
  rw [h]
  rfl

theorem vitals_prevIndex (p : Service) : vitals (prevIndex p).2 = vitals p := by
  obtain ⟨pos, h⟩ := prevIndex_touches p
  rw [h]
  rfl

theorem vitals_stopPlayback (env : Env) (p : Service) :
    vitals (stopPlayback env p) = vitals p := by
  unfold stopPlayback
  split <;> rfl

theorem vitals_setPlaybackMode (random : Nat → Nat) (mode : PlaybackMode) (p : Service) :
    vitals (setPlaybackMode random mode p) = vitals p := by
  obtain ⟨l, pos, hcount, h⟩ := setPlaybackMode_touches random mode p
  rw [h]
  simp only [vitals, hcount]

theorem vitals_decodeChunk (cart : Cartridge) (chunk : Nat) (crcOk : Bool) (p : Service) :
    vitals (decodeChunk cart chunk crcOk p) = vitals p := by
  obtain ⟨emitted, posted, h⟩ := decodeChunk_touches cart chunk crcOk p
  rw [h]
  rfl

theorem ensureWindow_frame (file : List UInt8) (io : WindowIo) (info : TrackInfo) (chunk : Nat) :
    (ensureWindow file io info chunk).2.filename = info.filename ∧
      (ensureWindow file io info chunk).2.lookupTableLen = info.lookupTableLen := by
  unfold ensureWindow
  split
  · exact ⟨rfl, rfl⟩
  · split
    · exact ⟨rfl, rfl⟩
    · unfold loadLookupWindow
      split
      · exact ⟨rfl, rfl⟩
      · split
        · next loaded hfill =>
          simp only [fillLookupWindow, failIf_bind_ok_iff] at hfill
          obtain ⟨-, -, -, -, -, -, -, -, hloaded⟩ := hfill
          cases hloaded
          exact ⟨rfl, rfl⟩
        · exact ⟨rfl, rfl⟩

/-! ## Starting a track -/

theorem loadTrackInfo_loaded {filename : Nat} {io : LoadIo} {file : List UInt8} {info : TrackInfo}
    (h : loadTrackInfo filename io file = .ok info) :
    info.filename = some filename ∧ 0 < info.lookupTableLen := by
  simp only [loadTrackInfo, failIf_bind_ok_iff, beq_eq_false_iff_ne] at h
  obtain ⟨-, -, -, -, -, -, -, hlen, -, -, -, heq⟩ := h
  cases heq
  exact ⟨rfl, Nat.pos_of_ne_zero hlen⟩

theorem clampChunkIndex_lt {len : Nat} (h : 0 < len) (chunk : Nat) :
    clampChunkIndex len chunk < len := by
  unfold clampChunkIndex
  split
  · omega
  · split <;> omega

theorem getSeekTarget_lt {len : Nat} (h : 0 < len) (base : Nat) (forward : Bool) :
    getSeekTarget len base forward < len := by
  have hbase := clampChunkIndex_lt h base
  unfold getSeekTarget
  dsimp only
  split
  · omega
  · split
    · split <;> omega
    · split <;> omega

theorem loadTrackInfo_ne_error_ok {filename : Nat} {io : LoadIo} {file : List UInt8} :
    loadTrackInfo filename io file ≠ .error .ok := by
  refine failIf_bind_ne_error_ok bne_iff_ne.mp ?_
  refine failIf_bind_ne_error_ok bne_iff_ne.mp ?_
  iterate 9 refine failIf_bind_ne_error_ok (fun _ => by decide) ?_
  intro h
  cases h

/-- A start that passes its checks has the index in the playlist and the file of
the index loaded; nothing but the loaded track changed. -/
theorem prepareStart_ok (h : prepareStart env index p = .ok q) :
    index < p.playlist.count ∧ q = { p with trackInfo := q.trackInfo } ∧
      (∃ file, q.trackInfo.filename = some file ∧
        p.playlistFilename env.cartridge index = some file) ∧
      (q.trackInfo = p.trackInfo ∨ 0 < q.trackInfo.lookupTableLen) := by
  unfold prepareStart at h
  split at h
  · cases h
  split at h
  · cases h
  next hlt _ =>
  unfold ensureTrackLoaded at h
  rw [if_neg hlt] at h
  split at h
  · cases h
  · next file hfile =>
    split at h
    · next hsame =>
      cases h
      exact ⟨Nat.not_le.mp hlt, rfl, ⟨file, hsame, hfile⟩, .inl rfl⟩
    · split at h
      · next info hinfo =>
        cases h
        obtain ⟨hname, hlen⟩ := loadTrackInfo_loaded hinfo
        exact ⟨Nat.not_le.mp hlt, rfl, ⟨file, hname, hfile⟩, .inr hlen⟩
      · cases h

theorem prepareStart_ne_error_ok : prepareStart env index p ≠ .error .ok := by
  unfold prepareStart
  split
  · intro h
    cases h
  split
  · intro h
    cases h
  unfold ensureTrackLoaded
  split
  · intro h
    cases h
  split
  · intro h
    cases h
  · split
    · intro h
      cases h
    · split
      · intro h
        cases h
      · next err herr =>
        rintro heq
        cases heq
        exact loadTrackInfo_ne_error_ok herr

/-- What a start leaves, when its checks pass: both starts write the index and
the clamped chunk of the track they loaded. -/
structure Entered (env : Env) (index chunk : Nat) (p q : Service) : Prop where
  file : ∃ file, q.trackInfo.filename = some file ∧
    p.playlistFilename env.cartridge index = some file
  index_lt : index < p.playlist.count
  index_eq : q.playlistIndex = index
  count_eq : q.playlist.count = p.playlist.count
  table_nonempty : 0 < q.trackInfo.lookupTableLen
  resume_eq : q.resumeChunk = clampChunkIndex q.trackInfo.lookupTableLen chunk

theorem Entered.current (h : Entered env index chunk p q) : Current env.cartridge q := by
  refine ⟨?_, ?_, ?_⟩
  · rw [h.index_eq, h.count_eq]
    exact h.index_lt
  · rw [h.index_eq, playlistFilename_congr h.count_eq]
    exact h.file
  · rw [h.resume_eq]
    exact clampChunkIndex_lt h.table_nonempty chunk

theorem Entered.congr {r : Service} (h : Entered env index chunk p q) (hr : vitals r = vitals q) :
    Entered env index chunk p r := by
  simp only [vitals, Prod.mk.injEq] at hr
  obtain ⟨-, -, hcount, hindex, hresume, hfile, hlen⟩ := hr
  exact ⟨hfile ▸ h.file, h.index_lt, hindex.trans h.index_eq, hcount.trans h.count_eq,
    hlen ▸ h.table_nonempty, by rw [hresume, hlen]; exact h.resume_eq⟩

/-- The loaded track of a sound service, after the checks of a start. -/
theorem prepared_nonempty (h : Sound cart p) (hok : prepareStart env index p = .ok q) :
    0 < q.trackInfo.lookupTableLen := by
  obtain ⟨-, -, ⟨file, hfile, -⟩, hsame | hlen⟩ := prepareStart_ok hok
  · rw [hsame] at hfile ⊢
    exact h.table_nonempty (hfile ▸ (fun h => by cases h))
  · exact hlen

theorem entered_beginTrack (h : Sound cart p) (hok : prepareStart env index p = .ok q) :
    Entered env index chunk p (beginTrack env index chunk q) := by
  have hlen := prepared_nonempty h hok
  obtain ⟨hlt, hq, hfile, -⟩ := prepareStart_ok hok
  unfold beginTrack
  dsimp only
  generalize hr : syncShufflePosition index _ = r
  have hv := congrArg vitals hr
  rw [vitals_sync] at hv
  simp only [vitals, Prod.mk.injEq] at hv
  obtain ⟨-, -, hcount, hindex, -, hname, htable⟩ := hv
  refine ⟨hname ▸ hfile, hlt, hindex.symm, ?_, htable ▸ hlen, ?_⟩
  · rw [← hcount, hq]
  · exact htable ▸ rfl

theorem Sound.anyCart {cart' : Cartridge} (h : Sound cart p) (hplaying : p.playing = false) :
    Sound cart' p :=
  ⟨h.paused_playing, fun hp => (by cases hplaying ▸ hp), h.table_nonempty⟩

/-- What the caller of a start is left with: the error clears `s_playing`. -/
def settle (r : EspErr × Service) : Service :=
  if r.1 = .ok then r.2 else { r.2 with playing := false }

/-- The cartridge the track is known from after a start. -/
def startedOn (err : EspErr) (env : Env) (cart : Cartridge) : Cartridge :=
  if err = .ok then env.cartridge else cart

theorem sound_startTrack (h : Sound cart p)
    (hpaused : p.paused = false ∨ ∃ q, prepareStart env index p = .ok q) :
    Sound (startedOn (startTrack env index chunk p).1 env cart)
      (settle (startTrack env index chunk p)) := by
  unfold startTrack
  split
  · next err hprep =>
    have hp : p.paused = false := by
      rcases hpaused with hp | ⟨q, hq⟩
      · exact hp
      · rw [hprep] at hq
        cases hq
    have herr : err ≠ .ok := by
      rintro rfl
      exact prepareStart_ne_error_ok hprep
    rw [settle, if_neg herr]
    exact (h.stopped hp).anyCart rfl
  · next q hprep =>
    have hentered : Entered env index chunk p (beginTrack env index chunk q) :=
      entered_beginTrack h hprep
    have hlen := hentered.table_nonempty
    dsimp only
    split
    · exact ⟨fun h => (by cases h), fun h => (by cases h), fun _ => hlen⟩
    · split
      · exact ⟨fun h => (by cases h), fun h => (by cases h), fun _ => hlen⟩
      · have hbegun : Sound env.cartridge (beginTrack env index chunk q) :=
          ⟨fun h => (by cases h), fun _ => hentered.current, fun _ => hlen⟩
        exact hbegun.congr ((vitals_post ..).trans (vitals_cache ..))

theorem sound_restorePausedTrack (h : Sound cart p) (hpaused : p.paused = false) :
    Sound (startedOn (restorePausedTrack env index chunk p).1 env cart)
      (settle (restorePausedTrack env index chunk p)) := by
  unfold restorePausedTrack
  split
  · next err hprep =>
    have herr : err ≠ .ok := by
      rintro rfl
      exact prepareStart_ne_error_ok hprep
    rw [settle, if_neg herr]
    exact (h.stopped hpaused).anyCart rfl
  · next q hprep =>
    obtain ⟨hlt, hq, hfile, -⟩ := prepareStart_ok hprep
    have hlen := prepared_nonempty h hprep
    dsimp only
    generalize hr : syncShufflePosition index _ = r
    have hv := congrArg vitals hr
    rw [vitals_sync] at hv
    simp only [vitals, Prod.mk.injEq] at hv
    obtain ⟨-, -, hcount, hindex, -, hname, htable⟩ := hv
    have hentered : Entered env index chunk p
        { r with
          playing := true
          paused := true
          stopRequested := false
          resumeChunk := q.clampChunk chunk
          currentChunk := q.clampChunk chunk
          trackStartedUnix := resolveTrackStartedUnix env.time (q.clampChunk chunk) } := by
      refine ⟨hname ▸ hfile, hlt, hindex.symm, ?_, htable ▸ hlen, htable ▸ rfl⟩
      rw [← hcount, hq]
    refine Sound.congr ⟨fun _ => ?_, fun _ => hentered.current, fun _ => ?_⟩ (vitals_cache ..)
    · rfl
    · exact hentered.table_nonempty

/-! ## Turns -/

/-- **When a start passes its checks**: the index lies in the playlist, both
pipeline tasks are idle, and the file of the index is loaded or can be. -/
def Startable (env : Env) (index : Nat) (p : Service) : Prop :=
  index < p.playlist.count ∧ env.idleAtStart = true ∧
    ∃ file, p.playlistFilename env.cartridge index = some file ∧
      (p.trackInfo.filename = some file ∨
        (loadTrackInfo file env.loadIo (env.file file)).toBool = true)

theorem startable_iff : Startable env index p ↔ ∃ q, prepareStart env index p = .ok q := by
  unfold Startable prepareStart ensureTrackLoaded
  by_cases hlt : index ≥ p.playlist.count
  · simp [hlt, Nat.not_lt.mpr hlt]
  by_cases hidle : env.idleAtStart
  · rw [if_neg hlt, if_neg (by simp [hidle]), if_neg hlt]
    cases p.playlistFilename env.cartridge index with
    | none => simp
    | some file =>
      dsimp only
      by_cases hsame : p.trackInfo.filename = some file
      · simp [hsame, hidle, Nat.not_le.mp hlt]
      · cases hload : loadTrackInfo file env.loadIo (env.file file) <;>
          simp [hsame, hidle, Nat.not_le.mp hlt, hload, Except.toBool]
  · simp [hidle, hlt]

/-- **The condition under which a message keeps the flags in step**: one that
starts a track without clearing `s_paused` first finds it startable. These are
the `PAUSE` that resumes, and the completion of the active session while paused. -/
def ResumeReady (env : Env) (p : Service) : Msg → Prop
  | .control .pause => p.playing = true → p.paused = true → Startable env p.playlistIndex p
  | .trackComplete generation =>
    p.paused = true → generation = p.activeGeneration → generation ≠ p.cancelledGeneration →
      p.playlist.count ≠ 0 ∧ Startable env (nextIndex false p).1 p
  | _ => True

/-- The next piece of a handler finds what it needs: one that ends with a start
is not paused or the start passes its checks, and so on past a stop. -/
def NextReady (env : Env) : Service × Next → Prop
  | (p, .start index _) => p.paused = false ∨ ∃ q, prepareStart env index p = .ok q
  | (p, .restorePaused _ _) => p.paused = false
  | (p, .stop (.pause _)) => p.playing = true ∧ p.paused = false
  | (_, .stop .inserted) => True
  | (_, .stop .removed) => True
  | (p, .stop _) => p.paused = false
  | (_, .done) => True

theorem sound_runStart {r : Service × Next} (h : Sound cart r.1) (hready : NextReady env r) :
    Sound (if (runStart env r).started.any fun start => start.2 == .ok then env.cartridge else cart)
      (runStart env r).service := by
  obtain ⟨p, next⟩ := r
  cases next with
  | start index chunk =>
    have hs : Sound (startedOn (startTrack env index chunk p).1 env cart) _ :=
      sound_startTrack h hready
    simp only [startedOn, settle] at hs
    simpa [runStart] using hs
  | restorePaused index chunk =>
    have hs : Sound (startedOn (restorePausedTrack env index chunk p).1 env cart) _ :=
      sound_restorePausedTrack h hready
    simp only [startedOn, settle] at hs
    simpa [runStart] using hs
  | done => exact h
  | stop after => exact h

theorem Startable.congr (h : Startable env index p) (hq : vitals q = vitals p) :
    Startable env index q := by
  simp only [vitals, Prod.mk.injEq] at hq
  obtain ⟨-, -, hcount, -, -, hfile, -⟩ := hq
  obtain ⟨hlt, hidle, file, hname, hload⟩ := h
  refine ⟨hcount ▸ hlt, hidle, file, ?_, hfile ▸ hload⟩
  rw [playlistFilename_congr hcount]
  exact hname

theorem paused_congr (hq : vitals q = vitals p) : q.paused = p.paused := by
  simp only [vitals, Prod.mk.injEq] at hq
  exact hq.2.1

/-- A piece of a handler keeps the invariant, and the rest finds what it needs. -/
def Keeps (cart : Cartridge) (env : Env) (r : Service × Next) : Prop :=
  Sound cart r.1 ∧ NextReady env r

theorem Sound.keeps_done (h : Sound cart p) : Keeps cart env (p, .done) := ⟨h, trivial⟩

theorem keeps_seekTo {target : Nat} (h : Sound cart p)
    (htarget : target < p.trackInfo.lookupTableLen) : Keeps cart env (seekTo env target p) := by
  have hmoved : Sound cart
      { p with resumeChunk := target, trackInfo := invalidateLookupWindow p.trackInfo } :=
    ⟨h.paused_playing, fun hp => ⟨(h.current hp).1, (h.current hp).2, htarget⟩, h.table_nonempty⟩
  unfold seekTo
  split
  · exact h.keeps_done
  · dsimp only
    split
    · next hpaused => exact ⟨hmoved, (Bool.not_eq_true' _).mp hpaused⟩
    · exact (hmoved.congr (vitals_cache ..)).keeps_done

theorem nextIndex_posted (manual : Bool) (p : Service) (posted : List Event) :
    (nextIndex manual { p with posted := posted }).1 = (nextIndex manual p).1 := by
  by_cases hcount : p.playlist.count = 0
  · simp only [nextIndex, hcount, if_true]
  · cases hmode : p.playbackMode with
    | shuffle =>
      simp only [nextIndex, hcount, hmode, if_false]
      split <;> rfl
    | sequential | singleRepeat =>
      simp only [nextIndex, hcount, hmode, if_false, sequentialNext]

/-- The completion of the active session: past the event, the next track starts. -/
theorem handleTrackComplete_live (env : Env)
    (hcancelled : p.activeGeneration ≠ p.cancelledGeneration) :
    ∃ posted, handleTrackComplete env p.activeGeneration p =
      if p.playlist.count = 0 then ({ p with posted := posted, playing := false }, .done)
      else ((nextIndex false { p with posted := posted }).2,
        .start (nextIndex false { p with posted := posted }).1 0) := by
  unfold handleTrackComplete
  rw [if_neg hcancelled, if_neg (not_not.mpr rfl)]
  dsimp only
  split
  · exact ⟨_, rfl⟩
  · exact ⟨p.posted, rfl⟩

/-- Any other completion changes nothing. -/
theorem handleTrackComplete_stale {generation : Nat} (env : Env)
    (h : ¬ (generation = p.activeGeneration ∧ generation ≠ p.cancelledGeneration)) :
    handleTrackComplete env generation p = (p, .done) := by
  unfold handleTrackComplete
  split
  · rfl
  split
  · rfl
  · next hcancelled hactive => exact absurd ⟨not_not.mp hactive, hcancelled⟩ h

theorem keeps_handleTrackComplete {generation : Nat} (h : Sound cart p)
    (hready : ResumeReady env p (.trackComplete generation)) :
    Keeps cart env (handleTrackComplete env generation p) := by
  by_cases hlive : generation = p.activeGeneration ∧ generation ≠ p.cancelledGeneration
  · obtain ⟨rfl, hcancelled⟩ := hlive
    obtain ⟨posted, heq⟩ := handleTrackComplete_live env hcancelled
    have hpost : Sound cart { p with posted := posted } := h.congr rfl
    have hv : vitals (nextIndex false { p with posted := posted }).2 = vitals p :=
      vitals_nextIndex ..
    rw [heq]
    split
    · next hzero =>
      refine (hpost.stopped ?_).keeps_done
      by_contra hp
      exact (hready (Bool.not_eq_false _ ▸ hp) rfl hcancelled).1 hzero
    · refine ⟨hpost.congr hv, ?_⟩
      by_cases hp : p.paused = true
      · refine .inr (startable_iff.mp ?_)
        rw [nextIndex_posted]
        exact (hready hp rfl hcancelled).2.congr hv
      · exact .inl ((paused_congr hv).trans (Bool.not_eq_true _ ▸ hp))
  · rw [handleTrackComplete_stale env hlive]
    exact h.keeps_done

/-- `FAST_FORWARD`, `FAST_BACKWARD` and the absolute seek. -/
theorem keeps_seek {target : Nat} (h : Sound cart p)
    (htarget : 0 < p.trackInfo.lookupTableLen → target < p.trackInfo.lookupTableLen) :
    Keeps cart env (if !p.playing || p.trackInfo.lookupTableLen == 0 then (p, .done)
      else seekTo env target p) := by
  split
  · exact h.keeps_done
  · next hloaded =>
    simp only [Bool.or_eq_true, beq_iff_eq, not_or] at hloaded
    exact keeps_seekTo h (htarget (Nat.pos_of_ne_zero hloaded.2))

theorem keeps_pause (h : Sound cart p) (hready : ResumeReady env p (.control .pause)) :
    Keeps cart env (handleControl env p .pause) := by
  rw [handleControl]
  split
  · exact h.keeps_done
  next hplaying =>
  rw [Bool.not_eq_true', Bool.not_eq_false] at hplaying
  split
  · next hpaused => exact ⟨h, .inr (startable_iff.mp (hready hplaying hpaused))⟩
  · next hpaused =>
    have hlen := Nat.zero_lt_of_lt (h.current hplaying).resume_lt
    refine ⟨⟨h.paused_playing, fun hp => ⟨(h.current hp).1, (h.current hp).2, ?_⟩,
      h.table_nonempty⟩, hplaying, Bool.not_eq_true _ ▸ hpaused⟩
    exact clampChunkIndex_lt hlen _

theorem keeps_handleControl {control : Control} (h : Sound cart p)
    (hready : ResumeReady env p (.control control)) :
    Keeps cart env (handleControl env p control) := by
  cases control with
  | next =>
    rw [handleControl]
    split
    · exact h.keeps_done
    · exact ⟨(h.congr (vitals_nextIndex ..)).unpaused, rfl⟩
  | previous =>
    rw [handleControl]
    split
    · exact h.keeps_done
    · exact ⟨h.unpaused, rfl⟩
  | fastForward => exact keeps_seek h fun hlen => getSeekTarget_lt hlen ..
  | fastBackward => exact keeps_seek h fun hlen => getSeekTarget_lt hlen ..
  | volumeUp =>
    refine Sound.keeps_done (h.congr ?_)
    split <;> rfl
  | volumeDown =>
    refine Sound.keeps_done (h.congr ?_)
    split <;> rfl
  | pause => exact keeps_pause h hready

/-- A handler keeps the invariant up to its stop or its start, and gets there as
the rest of it needs. -/
theorem keeps_handle {msg : Msg} (h : Sound cart p) (hready : ResumeReady env p msg) :
    Keeps cart env (handle env p msg) := by
  cases msg with
  | cartridgeInserted => exact ⟨h, trivial⟩
  | cartridgeRemoved => exact ⟨h, trivial⟩
  | trackComplete generation => exact keeps_handleTrackComplete h hready
  | persistForShutdown => exact (h.congr (vitals_resumeOnly Service.resumeOnly_persist)).keeps_done
  | playIndex trackIndex =>
    rw [handle]
    split
    · exact h.keeps_done
    · exact ⟨h.unpaused, rfl⟩
  | seekAbsolute seconds => exact keeps_seek h fun hlen => clampChunkIndex_lt hlen _
  | control control => exact keeps_handleControl h hready

theorem sound_of_idle (hplaying : p.playing = false) (hpaused : p.paused = false)
    (hinfo : p.trackInfo.filename = none) : Sound cart p :=
  ⟨fun hp => (by cases hpaused ▸ hp), fun hp => (by cases hplaying ▸ hp),
    fun hp => absurd hinfo hp⟩

theorem scanPlaylist_frame (env : Env) (p : Service) :
    (scanPlaylist env p).playing = p.playing ∧ (scanPlaylist env p).paused = p.paused ∧
      (scanPlaylist env p).trackInfo = p.trackInfo := by
  unfold scanPlaylist
  dsimp only
  split <;> exact ⟨rfl, rfl, rfl⟩

theorem keeps_afterInserted (env : Env) (p : Service) : Keeps cart env (afterInserted env p) := by
  unfold afterInserted
  dsimp only
  split
  · exact (sound_of_idle rfl rfl rfl).keeps_done
  · obtain ⟨hplaying, hpaused, hinfo⟩ := scanPlaylist_frame env
      { p with trackInfo := .zero, paused := false, playing := false, trackStartedUnix := 0 }
    generalize scanPlaylist env _ = q at hplaying hpaused hinfo ⊢
    have hsound : Sound cart q :=
      sound_of_idle hplaying hpaused ((congrArg TrackInfo.filename hinfo).trans rfl)
    split
    · exact Sound.keeps_done
        (sound_of_idle rfl hpaused ((congrArg TrackInfo.filename hinfo).trans rfl))
    · have hv := vitals_resumeOnly (@Service.resumeOnly_loadSaved q env)
      split
      all_goals
        next hload =>
        rw [hload] at hv
        refine ⟨hsound.congr hv, ?_⟩
        first
        | exact (paused_congr hv).trans hpaused
        | exact .inl ((paused_congr hv).trans hpaused)

/-- The rest of a handler keeps the invariant up to its start. -/
theorem keeps_afterStop {after : AfterStop} (h : Sound cart p)
    (hready : NextReady env (p, .stop after)) : Keeps cart env (afterStop env p after) := by
  cases after with
  | start index => exact ⟨h, .inl hready⟩
  | previous =>
    rw [afterStop]
    split
    · exact ⟨h, .inl hready⟩
    · exact ⟨h.congr (vitals_prevIndex p), .inl ((paused_congr (vitals_prevIndex p)).trans hready)⟩
  | seek => exact ⟨h, .inl hready⟩
  | pause track =>
    have hpaused : Sound cart { p with paused := true } :=
      ⟨fun _ => hready.1, fun hp => ⟨(h.current hp).1, (h.current hp).2, (h.current hp).3⟩,
        h.table_nonempty⟩
    exact (hpaused.congr ((vitals_post ..).trans (vitals_cache ..))).keeps_done
  | inserted => exact keeps_afterInserted env p
  | removed => exact (sound_of_idle rfl rfl rfl).keeps_done

theorem nextReady_congr {after : AfterStop} (hq : vitals q = vitals p)
    (h : NextReady env (p, .stop after)) : NextReady env (q, .stop after) := by
  have hpaused := paused_congr hq
  have hplaying : q.playing = p.playing := congrArg Prod.fst hq
  cases after with
  | start _ | previous | seek => exact hpaused.trans h
  | pause _ => exact ⟨hplaying.trans h.1, hpaused.trans h.2⟩
  | inserted | removed => trivial

/-- **One message keeps the invariant**, when a start that leaves `s_paused`
alone is ready. -/
theorem sound_turn {msg : Msg} (h : Sound cart p) (hready : ResumeReady env p msg) :
    Sound (if (turn env msg p).started.any fun start => start.2 == .ok then env.cartridge else cart)
      (turn env msg p).service := by
  obtain ⟨hsound, hnext⟩ := keeps_handle h hready
  unfold turn
  generalize handle env p msg = r at hsound hnext ⊢
  obtain ⟨q, next⟩ := r
  cases next with
  | stop after =>
    have hv := vitals_stopPlayback env q
    obtain ⟨hs, hn⟩ := keeps_afterStop (hsound.congr hv) (nextReady_congr hv hnext)
    exact sound_runStart hs hn
  | done | start _ _ | restorePaused _ _ => exact sound_runStart hsound hnext

/-- A start whose checks fail only clears `s_playing`. -/
theorem runStart_refused (h : ¬ ∃ q, prepareStart env index p = .ok q) :
    (runStart env (p, .start index chunk)).service = { p with playing := false } := by
  have hstart : ∃ err, err ≠ .ok ∧ startTrack env index chunk p = (err, p) := by
    unfold startTrack
    split
    · next err hprep => exact ⟨err, fun herr => prepareStart_ne_error_ok (herr ▸ hprep), rfl⟩
    · next q hprep => exact absurd ⟨q, hprep⟩ h
  obtain ⟨err, herr, hstart⟩ := hstart
  simp only [runStart, hstart, if_neg herr]

/-- A message that resumes without being ready stops playback and stays paused. -/
theorem turn_not_ready {msg : Msg} (hready : ¬ ResumeReady env p msg) :
    (turn env msg p).service.paused = true ∧ (turn env msg p).service.playing = false := by
  unfold ResumeReady at hready
  split at hready
  · simp only [Classical.not_imp, startable_iff] at hready
    obtain ⟨hplaying, hpaused, hstart⟩ := hready
    have hhandle : handle env p (.control .pause) = (p, .start p.playlistIndex p.resumeChunk) := by
      simp only [handle, handleControl, hplaying, hpaused, if_true, Bool.not_true]
      rfl
    rw [turn, hhandle, finishHandler, runStart_refused hstart]
    · exact ⟨hpaused, rfl⟩
    · intro _ h
      cases h
  · next generation =>
    simp only [Classical.not_imp] at hready
    obtain ⟨hpaused, rfl, hcancelled, hstart⟩ := hready
    obtain ⟨posted, heq⟩ := handleTrackComplete_live env hcancelled
    rw [turn, handle, heq]
    split
    · exact ⟨hpaused, rfl⟩
    · next hcount =>
      have hv : vitals (nextIndex false { p with posted := posted }).2 = vitals p :=
        vitals_nextIndex ..
      have hrefused : ¬ ∃ r, prepareStart env (nextIndex false { p with posted := posted }).1
          (nextIndex false { p with posted := posted }).2 = .ok r := by
        rw [← startable_iff, nextIndex_posted]
        exact fun hs => hstart ⟨hcount, hs.congr hv.symm⟩
      rw [finishHandler, runStart_refused hrefused]
      · exact ⟨(paused_congr hv).trans hpaused, rfl⟩
      · intro _ h
        cases h
  · exact absurd trivial hready

/-! ## Runs -/

/-- The step is no message that resumes a paused track without being ready. -/
def Resumable (s : State) : Action → Prop
  | .message msg env => ResumeReady env s.service msg
  | _ => True

theorem sound_step {s t : State} (a : Action) (h : Sound s.startedOn s.service)
    (hready : Resumable s a) (hstep : step s a = some t) : Sound t.startedOn t.service := by
  cases a with
  | message msg env =>
    cases hstep
    exact sound_turn h hready
  | setMode mode random =>
    cases hstep
    exact h.congr (vitals_setPlaybackMode ..)
  | decoded cart chunk crcOk =>
    cases hstep
    exact h.congr (vitals_decodeChunk ..)
  | windowed file io chunk =>
    cases hstep
    obtain ⟨hfile, hlen⟩ := ensureWindow_frame file io s.service.trackInfo chunk
    refine h.congr ?_
    simp only [vitals, hfile, hlen]

theorem sound_init (resumeRtc : Option ResumeState) (resumeNvs : Option ResumeBlob)
    (cart : Cartridge) : Sound cart (Service.init resumeRtc resumeNvs) :=
  sound_of_idle rfl rfl rfl

/-- **The flags agree with the track** in every run whose resumes are ready, with
any pattern of failing loads, busy pipelines and other failures: while playing,
the index lies in the playlist, the loaded track is the file of that index on
the cartridge it was started on, and the resume position lies in the track. A
resume that is not ready stops playback and leaves the player paused. -/
theorem player_state_invariant (resumeRtc : Option ResumeState) (resumeNvs : Option ResumeBlob)
    (cart : Cartridge) {as : List Action} {s : State}
    (hready : Along step Resumable (initState resumeRtc resumeNvs cart) as)
    (hrun : run step (initState resumeRtc resumeNvs cart) as = some s) :
    (s.service.paused = true → s.service.playing = true) ∧
      (s.service.playing = true → Current s.startedOn s.service) ∧
      ∀ env msg, ¬ ResumeReady env s.service msg →
        (turn env msg s.service).service.paused = true ∧
          (turn env msg s.service).service.playing = false := by
  have hsound : Sound s.startedOn s.service :=
    @run_invariant _ _ step _ (fun s => Sound s.startedOn s.service)
      (fun _ a _ hs hC hst => sound_step a hs hC hst) _ _ _ (sound_init ..) hready hrun
  exact ⟨hsound.paused_playing, hsound.current, fun _ _ => turn_not_ready⟩

/-! ## A pause that times out

A cartridge of three tracks, all in one short file; the first track starts. -/

def threeTracks : Metadata where
  header := ⟨[1, 0, 0, 0, 7, 0, 0, 0] ++ List.replicate 1640 0 ++ [3, 0, 0, 0], by decide +kernel⟩
  tracks := [.zero, .zero, .zero]
  trackCount_eq := by decide +kernel
  tracks_le := by decide

/-- Everything works, and the pipeline is found idle. -/
def calmEnv : Env where
  cartridge := ⟨true, some threeTracks⟩
  playable := true
  file := fun _ => SeekRace.shortFile
  loadIo := {}
  time := 0
  random := fun _ => 0
  nvs := {}
  idleAtStop := true
  chunkAtStop := 0
  idleAtStart := true
  sendDecoder := true
  sendReader := true

/-- The pipeline is busy when it is asked to stop, and still when a start looks. -/
def busyEnv : Env := { calmEnv with idleAtStop := false, idleAtStart := false }

theorem player_state_invariant_inserted :
    ∃ s, run step (initState none none calmEnv.cartridge) [.message .cartridgeInserted calmEnv] =
      some s ∧ s.service.playing = true ∧ Current s.startedOn s.service := by
  have hchecked : (run step (initState none none calmEnv.cartridge)
      [.message .cartridgeInserted calmEnv]).map (fun s => s.service.playing) = some true := by
    decide +kernel
  obtain ⟨s, hrun, hplaying⟩ := Option.map_eq_some_iff.mp hchecked
  have hready : Along step Resumable (initState none none calmEnv.cartridge)
      [.message .cartridgeInserted calmEnv] := ⟨trivial, fun _ _ => trivial⟩
  exact ⟨s, hrun, hplaying, (player_state_invariant none none _ hready hrun).2.1 hplaying⟩

/-- **A resume that finds the pipeline busy leaves the player paused but not
playing.** -/
theorem paused_not_playing :
    ¬ ∀ (resumeRtc : Option ResumeState) (resumeNvs : Option ResumeBlob) (cart : Cartridge)
      (as : List Action) (s : State), run step (initState resumeRtc resumeNvs cart) as = some s →
      (s.service.paused = true → s.service.playing = true) ∧
        (s.service.playing = true → Current s.startedOn s.service) := by
  intro h
  have hchecked : (run step (initState none none calmEnv.cartridge)
      [.message .cartridgeInserted calmEnv, .message (.control .pause) busyEnv,
        .message (.control .pause) busyEnv]).map
          (fun s => (s.service.paused, s.service.playing)) = some (true, false) := by
    decide +kernel
  obtain ⟨s, hrun, hs⟩ := Option.map_eq_some_iff.mp hchecked
  obtain ⟨hpaused, hplaying⟩ := Prod.mk.inj hs
  cases ((h none none _ _ s hrun).1 hpaused).symm.trans hplaying

end Jukeboy.Player.StateInvariant
