import Jukeboy.Player.SessionBoundary
import Jukeboy.Player.StopPipeline

/-! # A listen is counted once

`s_countable_play_emitted` is reset by a start that begins a new listen and set
by the decoder with the event it posts. A record kept beside the run says what
the listen is: the index every generation was started for, whether a chunk past
the threshold was accepted since the listen began, and the events it posted. As
long as no stop returns over a session, flag and record agree. -/
namespace Jukeboy.Player.ListenCount

open Jukeboy.Base.Runs Jukeboy.Base.LittleEndian Jukeboy.Formats.Jba Jukeboy.Formats.Jbm
open Jukeboy.PlayHistory.Cache (TrackEvent)
open Jukeboy.Player.Track Jukeboy.Player.State Jukeboy.Player.Pipeline
open Jukeboy.Player.StopPipeline (readerSession decoderSession readerStep_session decoderStep_session)
open Jukeboy.Player.TrackCompletion (owes queueMsg_cases)
open Jukeboy.Player.SessionBoundary (pending pending_service pending_beside toSend)
open Jukeboy.Player.Service hiding State Action step initState
open Jukeboy.Player.SeekRace (nextGeneration)
open Jukeboy.Player.StateInvariant (calmEnv)

variable {s t : State} {a : Action} {env : Env} {p q : Service} {generation index chunk : Nat}

/-! ## The record of a listen -/

/-- The listen since its start: `track` is the playlist index each generation
was started for, `accepted` whether the decoder took a good chunk past the
threshold of a track the cartridge describes, `events` the countable plays
posted, each with the track of the session then decoding. `inserted` says that
the next start follows a cartridge insert. -/
structure Listen where
  inserted : Bool
  track : Nat → Nat
  accepted : Bool
  events : List (TrackEvent × Option Nat)

/-- No listen has begun. -/
def Listen.init : Listen := ⟨false, fun _ => 0, false, []⟩

/-- The metadata describes the track. -/
def describes (cart : Cartridge) (index : Nat) : Bool := (cart.getMetadataTrack index).isSome

/-- What a step says of the listen. A start begins a new one at chunk 0, at
another index, or after an insert; a paused restore always does. -/
def Listen.note (l : Listen) (s : State) : Action → State → Listen
  | .service _, t =>
    match s.pc, t.pc with
    | .stopped .inserted, _ => { l with inserted := true }
    | .loading index _, .resetReader .start =>
      let anew :=
        l.inserted || t.service.currentChunk == 0 || index != s.service.playlistIndex
      { inserted := false
        track := Function.update l.track t.service.activeGeneration index
        accepted := !anew && l.accepted
        events := if anew then [] else l.events }
    | .restoreLoading _ _, .resetReader .restore =>
      { l with inserted := false, accepted := false, events := [] }
    | _, _ => l
  | .decoder (.decoded cart chunk crcOk), _ =>
    match decoderSession s with
    | some generation =>
      { l with
        accepted := l.accepted ||
          (crcOk && decide (chunk > previousRestartSeconds) &&
            describes cart (l.track generation)) }
    | none => l
  | _, _ => l

/-- The countable plays a step posts. -/
def newCountable (s t : State) : List TrackEvent :=
  (t.service.posted.drop s.service.posted.length).filterMap countableOf

def Listen.observe (l : Listen) (s : State) (a : Action) (t : State) : Listen :=
  let l := l.note s a t
  { l with
    events := l.events ++
      (newCountable s t).map fun track => (track, (decoderSession s).map l.track) }

/-- The system with the record of its listen. -/
def watch (x : State × Listen) (a : Action) : Option (State × Listen) :=
  (step x.1 a).map fun t => (t, x.2.observe x.1 a t)

/-- **When every stop is final**: where `player_service_stop_playback` returns,
the decoder is not left in a session. Beside that, a start takes a number
no completion to come has, and the reader hands on chunks of the lookup table. -/
def Final (s : State) : Action → Prop
  | .service _ =>
    match s.pc with
    | .stopped _ => decoderSession s = none
    | .loading _ _ => pending s (nextGeneration s.service.activeGeneration) = 0
    | _ => True
  | .decoder (.decoded _ chunk _) => chunk < s.service.trackInfo.lookupTableLen
  | _ => True

instance (s : State) : ∀ a, Decidable (Final s a)
  | .service env =>
    match hpc : s.pc with
    | .stopped _ =>
      decidable_of_iff (decoderSession s = none) (by simp only [Final, hpc])
    | .loading _ _ =>
      decidable_of_iff (pending s (nextGeneration s.service.activeGeneration) = 0)
        (by simp only [Final, hpc])
    | .waiting | .stopping _ | .awaitingIdle _ | .resetReader _ | .resetDecoder _
    | .starting _ _ | .sendDecoder | .sendReader | .restoring _ _ | .restoreLoading _ _ =>
      isTrue (by simp only [Final, hpc])
  | .decoder (.decoded _ chunk _) =>
    inferInstanceAs (Decidable (chunk < s.service.trackInfo.lookupTableLen))
  | .timeout | .post _ | .setMode _ _ | .reader _ | .decoder .receive | .decoder .clearBit
  | .decoder .finish | .decoder .complete => isTrue trivial

theorem newCountable_of {posted : List Event}
    (h : t.service.posted = s.service.posted ++ posted) :
    newCountable s t = posted.filterMap countableOf := by
  rw [newCountable, h, List.drop_left]

theorem newCountable_same (h : t.service.posted = s.service.posted) : newCountable s t = [] :=
  newCountable_of (by rw [h, List.append_nil] : _ = _ ++ [])

theorem observe_silent {l : Listen} (h : newCountable s t = []) :
    l.observe s a t = l.note s a t := by
  simp only [Listen.observe, h, List.map_nil, List.append_nil]

/-! ## What the pieces do -/

theorem ensureTrackLoaded_lt (h : ensureTrackLoaded env index p = .ok q) :
    index < p.playlist.count := by
  unfold ensureTrackLoaded at h
  split at h
  · cases h
  · next hlt => exact Nat.not_le.mp hlt

/-- The flag of the start: a start within the listen keeps it. -/
theorem beginTrack_touches (env : Env) (index chunk : Nat) (p : Service) :
    ∃ pos, beginTrack env index chunk p =
      { p with
        countablePlayEmitted :=
          (decide (index = p.playlistIndex) && decide (p.clampChunk chunk > 0) &&
            (p.playing || p.paused)) && p.countablePlayEmitted
        activeGeneration := nextGeneration p.activeGeneration
        playlistIndex := index
        shufflePosition := pos
        playing := true
        paused := false
        stopRequested := false
        resumeChunk := p.clampChunk chunk
        currentChunk := p.clampChunk chunk
        trackStartedUnix := resolveTrackStartedUnix env.time (p.clampChunk chunk) } := by
  unfold beginTrack
  dsimp only
  obtain ⟨pos, h⟩ := sync_touches index
    { p with
      countablePlayEmitted :=
        (decide (index = p.playlistIndex) && decide (p.clampChunk chunk > 0) &&
          (p.playing || p.paused)) && p.countablePlayEmitted
      activeGeneration := nextGeneration p.activeGeneration
      playlistIndex := index }
  rw [h]
  exact ⟨pos, rfl⟩

theorem restorePausedTrack_touches (h : restorePausedTrack env index chunk p = (.ok, q)) :
    index < p.playlist.count ∧ q.countablePlayEmitted = false ∧ q.posted = p.posted := by
  unfold restorePausedTrack at h
  split at h
  · next err hprep =>
    obtain ⟨rfl, -⟩ := Prod.mk.inj h
    exact absurd hprep StateInvariant.prepareStart_ne_error_ok
  · next r hprep =>
    have hlt : index < p.playlist.count := (StateInvariant.prepareStart_ok hprep).1
    obtain ⟨-, hr, -⟩ := StateInvariant.prepareStart_ok hprep
    obtain ⟨-, rfl⟩ := Prod.mk.inj h
    obtain ⟨pos, hsync⟩ := sync_touches index
      { r with countablePlayEmitted := false, playlistIndex := index }
    rw [hsync]
    obtain ⟨rtc, nvs, hcache⟩ := @Service.resumeOnly_cache
      { r with
        countablePlayEmitted := false, playlistIndex := index, shufflePosition := pos
        playing := true, paused := true, stopRequested := false
        resumeChunk := r.clampChunk chunk, currentChunk := r.clampChunk chunk
        trackStartedUnix := resolveTrackStartedUnix env.time (r.clampChunk chunk) } env
    rw [hcache]
    exact ⟨hlt, rfl, by rw [hr]⟩

/-- A chunk of the table, decoded while not paused. -/
theorem decodeChunk_of_playing {cart : Cartridge} {crcOk : Bool}
    (hchunk : chunk < p.trackInfo.lookupTableLen) (hpaused : p.paused = false)
    (hindex : p.playlistIndex < p.playlist.count) :
    let counts := crcOk && decide (chunk > previousRestartSeconds) &&
      describes cart p.playlistIndex
    (decodeChunk cart chunk crcOk p).countablePlayEmitted = (p.countablePlayEmitted || counts) ∧
      ∃ posted, (decodeChunk cart chunk crcOk p).posted = p.posted ++ posted ∧
        ((p.countablePlayEmitted || !counts) = true → posted = []) ∧
        ((p.countablePlayEmitted || !counts) = false →
          ∃ track : TrackEvent, track.trackIndex = .ofNat p.playlistIndex ∧
            posted = [.trackBecameCountable track]) := by
  have hrestart : { p with currentChunk := chunk }.shouldRestartCurrentTrack =
      decide (chunk > previousRestartSeconds) := by
    have hclamp : clampChunkIndex p.trackInfo.lookupTableLen chunk = chunk := by
      rw [clampChunkIndex, if_neg (by omega), if_neg (by omega)]
    unfold Service.shouldRestartCurrentTrack Service.positionChunk Service.clampChunk
    simp only [hpaused, Bool.false_eq_true, if_false, hclamp]
    split
    · exact (decide_eq_false (by omega)).symm
    · rfl
  unfold decodeChunk
  dsimp only
  rw [hrestart]
  cases hpast : crcOk && decide (chunk > previousRestartSeconds) with
  | false => exact ⟨by simp, [], by simp, fun _ => rfl, by simp⟩
  | true =>
    simp only [if_true, Bool.true_and]
    unfold postCountableTrackEvent
    cases hemitted : p.countablePlayEmitted with
    | true => exact ⟨by simp, [], by simp, fun _ => rfl, by simp⟩
    | false =>
      simp only [Bool.false_eq_true, if_false, Bool.false_or]
      unfold describes Service.fillCurrentTrackEvent
      rw [if_neg (by simpa using hindex)]
      cases htrack : cart.getMetadataTrack p.playlistIndex with
      | none =>
        cases hheader : cart.getMetadataHeader with
        | none | some header => exact ⟨by simp, [], by simp, fun _ => rfl, by simp⟩
      | some track =>
        have hheader : ∃ header, cart.getMetadataHeader = some header := by
          unfold Cartridge.getMetadataTrack at htrack
          unfold Cartridge.getMetadataHeader
          cases hmeta : cart.metadata with
          | none => simp [hmeta] at htrack
          | some metadata => exact ⟨_, rfl⟩
        obtain ⟨header, hheader⟩ := hheader
        rw [hheader]
        exact ⟨by simp [Service.post], [_], rfl, by simp, fun _ => ⟨_, rfl, rfl⟩⟩

theorem idle_afterInserted (env : Env) (p : Service) :
    (afterInserted env p).1.playing = false ∧ (afterInserted env p).1.paused = false := by
  unfold afterInserted
  dsimp only
  split
  · exact ⟨rfl, rfl⟩
  · obtain ⟨playlist, pos, posted, -, hscan⟩ := scanPlaylist_touches env
      { p with trackInfo := .zero, paused := false, playing := false, trackStartedUnix := 0 }
    rw [hscan]
    split
    · exact ⟨rfl, rfl⟩
    · generalize hr : Service.mk .. = r
      obtain ⟨rtc, nvs, hload⟩ := @Service.resumeOnly_loadSaved r env
      split
      all_goals
        next heq =>
        rw [heq] at hload
        dsimp only at hload ⊢
        rw [hload, ← hr]
        exact ⟨rfl, rfl⟩

/-! ## Where a handler goes on -/

/-- The stops that are called for only while playing. -/
def whilePlaying : AfterStop → Bool
  | .seek | .pause _ => true
  | _ => false

/-- Where a handler may go on: to a stop, or to a start of its own. -/
structure GoesOn (p : Service) (msg : Msg) (r : Service × Next) : Prop where
  stop : ∀ after, r.2 = .stop after → whilePlaying after = true → r.1.playing = true
  start : ∀ index chunk, r.2 = .start index chunk →
    (msg = .trackComplete p.activeGeneration ∧ chunk = 0) ∨
      (p.paused = true ∧ r.1.playing = true)
  restore : ∀ index chunk, r.2 ≠ .restorePaused index chunk

theorem goesOn_done {msg : Msg} : GoesOn p msg (q, .done) := ⟨fun _ h => (by cases h),
  fun _ _ h => (by cases h), fun _ _ h => by cases h⟩

theorem goesOn_stop {msg : Msg} {after : AfterStop}
    (h : whilePlaying after = true → q.playing = true) : GoesOn p msg (q, .stop after) := by
  refine ⟨fun after' heq => ?_, fun _ _ h => (by cases h), fun _ _ h => by cases h⟩
  cases heq
  exact h

theorem goesOn_seekTo {msg : Msg} {target : Nat} (hplaying : p.playing = true) :
    GoesOn p msg (seekTo env target p) := by
  unfold seekTo
  split
  · exact goesOn_done
  · dsimp only
    split
    · exact goesOn_stop fun _ => hplaying
    · exact goesOn_done

theorem goesOn_handle (env : Env) (p : Service) (msg : Msg) : GoesOn p msg (handle env p msg) := by
  have hplays {b : Bool} (h : ¬ (!p.playing || b) = true) : p.playing = true := by
    cases hp : p.playing with
    | true => rfl
    | false => simp [hp] at h
  cases msg with
  | cartridgeInserted | cartridgeRemoved => exact goesOn_stop (fun h => by cases h)
  | persistForShutdown => exact goesOn_done
  | trackComplete generation =>
    rw [handle]
    by_cases hlive : generation = p.activeGeneration ∧ generation ≠ p.cancelledGeneration
    · obtain ⟨rfl, hcancelled⟩ := hlive
      obtain ⟨posted, heq⟩ := StateInvariant.handleTrackComplete_live env hcancelled
      rw [heq]
      split
      · exact goesOn_done
      · refine ⟨fun _ h => (by cases h), fun index chunk heq => ?_, fun _ _ h => by cases h⟩
        cases heq
        exact .inl ⟨rfl, rfl⟩
    · rw [StateInvariant.handleTrackComplete_stale env hlive]
      exact goesOn_done
  | playIndex _ =>
    rw [handle]
    split
    · exact goesOn_done
    · exact goesOn_stop (fun h => by cases h)
  | seekAbsolute _ =>
    rw [handle]
    split
    · exact goesOn_done
    · next h => exact goesOn_seekTo (hplays h)
  | control control =>
    rw [handle]
    cases control with
    | next | previous =>
      rw [handleControl]
      split
      · exact goesOn_done
      · exact goesOn_stop (fun h => by cases h)
    | fastForward | fastBackward =>
      rw [handleControl]
      split
      · exact goesOn_done
      · next h => exact goesOn_seekTo (hplays h)
    | volumeUp | volumeDown => exact goesOn_done
    | pause =>
      rw [handleControl]
      split
      · exact goesOn_done
      · next hplaying =>
        have hplaying : p.playing = true := by simpa using hplaying
        split
        · next hpaused =>
          refine ⟨fun _ h => (by cases h), fun index chunk heq => ?_, fun _ _ h => by cases h⟩
          exact .inr ⟨hpaused, hplaying⟩
        · exact goesOn_stop fun _ => hplaying

/-- Where a handler goes on past its stop. -/
theorem afterStop_next (env : Env) (p : Service) (after : AfterStop) :
    (∀ after', (afterStop env p after).2 ≠ .stop after') ∧
      ∀ index chunk, (afterStop env p after).2 = .start index chunk →
        chunk = 0 ∨ (afterStop env p after = (p, .start index chunk) ∧ whilePlaying after = true) ∨
          after = .inserted := by
  cases after with
  | start _ =>
    refine ⟨fun _ h => (by cases h), fun index chunk heq => ?_⟩
    cases heq
    exact .inl rfl
  | seek =>
    refine ⟨fun _ h => (by cases h), fun index chunk heq => ?_⟩
    cases heq
    exact .inr (.inl ⟨rfl, rfl⟩)
  | removed | pause _ => exact ⟨fun _ h => (by cases h), fun _ _ h => by cases h⟩
  | previous =>
    rw [afterStop]
    split
    all_goals
      refine ⟨fun _ h => (by cases h), fun index chunk heq => ?_⟩
      cases heq
      exact .inl rfl
  | inserted =>
    refine ⟨fun after' heq => ?_, fun _ _ _ => .inr (.inr rfl)⟩
    rw [afterStop, afterInserted] at heq
    dsimp only at heq
    split at heq
    · cases heq
    · split at heq
      · cases heq
      · split at heq <;> cases heq

/-! ## The invariant -/

/-- The generation's session is being started, or goes on. -/
def Coming (s : State) (generation : Nat) : Prop :=
  toSend s = some generation ∨ s.decoderCmd = some generation ∨
    decoderSession s = some generation

/-- What holds by where the service task is: it passes a stop without a start
command left, takes a number without a decoder session left, and starts past
chunk 0 only within a playing track or after an insert. -/
def Stage (s : State) (l : Listen) : Prop :=
  match s.pc with
  | .stopping after | .awaitingIdle (.stop after) | .resetReader (.stop after _)
  | .resetDecoder (.stop after _) => whilePlaying after = true → s.service.playing = true
  | .stopped after =>
    s.decoderCmd = none ∧ (whilePlaying after = true → s.service.playing = true)
  | .starting _ chunk | .loading _ chunk =>
    (s.decoderCmd = none ∧ decoderSession s = none) ∧
      (chunk = 0 ∨ s.service.playing = true ∨ l.inserted = true)
  | .restoring _ _ | .restoreLoading _ _ => s.decoderCmd = none ∧ decoderSession s = none
  | _ => True

structure Inv (s : State) (l : Listen) : Prop where
  owner : ∀ generation, Coming s generation →
    generation = s.service.activeGeneration ∧ l.track generation = s.service.playlistIndex ∧
      s.service.playlistIndex < s.service.playlist.count ∧ s.service.paused = false
  once : pending s s.service.activeGeneration ≤ 1
  stage : Stage s l
  inserted : l.inserted = true → s.service.playing = false ∧ s.service.paused = false
  emitted : s.service.countablePlayEmitted = l.accepted
  events : l.events.length = if l.accepted then 1 else 0
  tracks : ∀ x ∈ l.events, ∃ index, x.2 = some index ∧ x.1.trackIndex = .ofNat index

theorem inv_init (resumeRtc : Option ResumeState) (resumeNvs : Option ResumeBlob) :
    Inv (initState resumeRtc resumeNvs) .init := by
  refine ⟨fun generation h => ?_, Nat.zero_le _, trivial, fun h => (by cases h), rfl, rfl,
    fun _ h => by cases h⟩
  rcases h with h | h | h <;> cases h

/-- What the listen depends on besides the flags. -/
def listened (p : Service) :=
  (p.activeGeneration, p.playlistIndex, p.playlist.count, p.countablePlayEmitted)

/-- A step that begins no start and no session. -/
theorem Inv.keep {l : Listen} (hs : Inv s l) (hlistened : listened t.service = listened s.service)
    (hflags : (t.service.playing = true → s.service.playing = true) ∧
      (t.service.paused = true → s.service.paused = true))
    (hcoming : ∀ generation, Coming t generation → Coming s generation)
    (hpending : ∀ generation, pending t generation ≤ pending s generation)
    (hstage : Stage t l) : Inv t l := by
  simp only [listened, Prod.mk.injEq] at hlistened
  obtain ⟨hactive, hindex, hcount, hemitted⟩ := hlistened
  have hclear (b c : Bool) (h : c = true → b = true) (hb : b = false) : c = false := by
    cases c with
    | false => rfl
    | true => exact absurd ((h rfl).symm.trans hb) (fun h => by cases h)
  refine ⟨fun g hg => ?_, ?_, hstage, fun hins => ?_, hemitted.trans hs.emitted, hs.events,
    hs.tracks⟩
  · obtain ⟨hg, htrack, hlt, hpaused⟩ := hs.owner g (hcoming g hg)
    rw [hactive, hindex, hcount]
    exact ⟨hg, htrack, hlt, hclear _ _ hflags.2 hpaused⟩
  · rw [hactive]
    exact (hpending _).trans hs.once
  · obtain ⟨hplaying, hpaused⟩ := hs.inserted hins
    exact ⟨hclear _ _ hflags.1 hplaying, hclear _ _ hflags.2 hpaused⟩

theorem coming_mono (hsend : toSend t = none ∨ toSend t = toSend s)
    (hcmd : t.decoderCmd = none ∨ t.decoderCmd = s.decoderCmd) (hdecoder : t.decoder = s.decoder)
    (generation : Nat) (h : Coming t generation) : Coming s generation := by
  rcases h with h | h | h
  · rcases hsend with hnone | hsame
    · cases hnone.symm.trans h
    · exact .inl (hsame ▸ h)
  · rcases hcmd with hnone | hsame
    · cases hnone.symm.trans h
    · exact .inr (.inl (hsame ▸ h))
  · unfold decoderSession at h
    rw [hdecoder] at h
    exact .inr (.inr h)

theorem quiet_of_not_coming (h : ∀ generation, ¬ Coming s generation) :
    s.decoderCmd = none ∧ decoderSession s = none :=
  ⟨Option.eq_none_iff_forall_ne_some.mpr fun g hg => h g (.inr (.inl hg)),
    Option.eq_none_iff_forall_ne_some.mpr fun g hg => h g (.inr (.inr hg))⟩

theorem not_coming (hsend : toSend s = none)
    (hquiet : s.decoderCmd = none ∧ decoderSession s = none) (generation : Nat) :
    ¬ Coming s generation := by
  rintro (h | h | h)
  · cases hsend.symm.trans h
  · cases hquiet.1.symm.trans h
  · cases hquiet.2.symm.trans h

/-- A completion that waits for the service task leaves nothing of its session. -/
theorem not_coming_of_complete {l : Listen} (hs : Inv s l) (hpc : s.pc = .waiting)
    (hmem : .trackComplete s.service.activeGeneration ∈ s.cmdQueue) (generation : Nat) :
    ¬ Coming s generation := by
  intro hg
  obtain ⟨rfl, -⟩ := hs.owner generation hg
  have honce := hs.once
  have hwaits := List.count_pos_iff.mpr hmem
  unfold pending at honce
  rcases hg with h | h | h
  · rw [toSend, hpc] at h
    cases h
  · rw [h, Option.toList_some, List.count_singleton_self] at honce
    omega
  · have howes : owes s.decoder = some s.service.activeGeneration := by
      unfold decoderSession at h
      cases hdecoder : s.decoder with
      | idle | finishing _ _ => simp [hdecoder] at h
      | received g | running g => simpa [hdecoder, owes] using h
    rw [howes, Option.toList_some, List.count_singleton_self] at honce
    omega

/-! ## Steps of the service task -/

theorem nextGeneration_ne (generation : Nat) : nextGeneration generation ≠ generation := by
  unfold nextGeneration
  dsimp only
  split <;> omega

/-- Only a start brings up a completion. -/
theorem pending_same (h : ServiceMove env s t)
    (hactive : t.service.activeGeneration = s.service.activeGeneration) (generation : Nat) :
    pending t generation ≤ pending s generation := by
  rcases pending_service h with ⟨-, hle⟩ | ⟨hnew, -⟩
  · exact (Nat.le_add_left _ _).trans (hle generation)
  · exact absurd (hnew.symm.trans hactive) (nextGeneration_ne _)

/-- The service task posts no countable play. -/
theorem silent_service (h : ServiceMove env s t) : newCountable s t = [] := by
  cases h with
  | handled msg rest hpc hqueue =>
    obtain ⟨_, _, _, _, _, _, _, _, posted, hsilent, heq⟩ := handled_handle env s.service msg
    refine Eq.trans (newCountable_of ?_) hsilent
    dsimp only
    rw [heq]
  | wentOn after hpc =>
    obtain ⟨_, _, _, _, _, _, _, _, _, posted, hsilent, heq⟩ :=
      concluded_afterStop env s.service after
    refine Eq.trans (newCountable_of ?_) hsilent
    dsimp only
    rw [heq]
  | begun index chunk p hpc hload =>
    obtain ⟨info, rfl⟩ := ensureTrackLoaded_touches hload
    obtain ⟨pos, heq⟩ := beginTrack_touches env index chunk { s.service with trackInfo := info }
    refine newCountable_same ?_
    dsimp only
    rw [heq]
  | restored index chunk p hpc hrestore =>
    exact newCountable_same (restorePausedTrack_touches hrestore).2.2
  | readerSent hpc =>
    obtain ⟨rtc, nvs, heq⟩ := @Service.resumeOnly_cache s.service env
    have hposted : (finishStart env s.service).posted = s.service.posted ++
        [.trackStarted
          ((s.service.cacheCurrentPlaybackStatus env).fillCurrentTrackEvent env.cartridge)] := by
      rw [finishStart, heq]
      rfl
    unfold newCountable
    dsimp only
    rw [hposted, List.drop_left]
    rfl
  | decoderReset for_ hpc => cases for_ <;> exact newCountable_same rfl
  | foundIdle | requested | waited | waitedFailed | readerReset | refused | checked | decoderFull
  | decoderSent | readerFull | restoreChecked => exact newCountable_same rfl

theorem inv_handled {l : Listen} {msg : Msg} {rest : List Msg} (hs : Inv s l)
    (hpc : s.pc = .waiting) (hqueue : s.cmdQueue = msg :: rest) :
    Inv { s with
      service := (handle env s.service msg).1
      cmdQueue := rest
      pc := Next.pc (handle env s.service msg).2 } l := by
  have hframe := frame_handle env s.service msg
  have hgoes := goesOn_handle env s.service msg
  obtain ⟨_, _, _, _, _, _, _, _, _, -, heq⟩ := handled_handle env s.service msg
  have hlistened : listened (handle env s.service msg).1 = listened s.service := by
    rw [heq]
    rfl
  refine hs.keep hlistened ⟨hframe.playing, hframe.paused⟩ ?_
    (pending_same (.handled msg rest hpc hqueue) hframe.active) ?_
  · exact coming_mono (.inl (SessionBoundary.toSend_next _)) (.inr rfl) rfl
  · cases hnext : (handle env s.service msg).2 with
    | done => trivial
    | stop after => exact hgoes.stop after hnext
    | restorePaused index chunk => exact absurd hnext (hgoes.restore index chunk)
    | start index chunk =>
      -- a start without a stop: after the completion, or when the player is paused
      have hquiet : ∀ g, ¬ Coming s g := by
        rcases hgoes.start index chunk hnext with ⟨rfl, -⟩ | ⟨hpaused, -⟩
        · exact not_coming_of_complete hs hpc (hqueue ▸ List.mem_cons_self ..)
        · exact fun g hg => by cases hpaused.symm.trans (hs.owner g hg).2.2.2
      obtain ⟨hcmd, hsession⟩ := quiet_of_not_coming hquiet
      refine ⟨⟨hcmd, hsession⟩, ?_⟩
      rcases hgoes.start index chunk hnext with ⟨-, hzero⟩ | ⟨-, hplaying⟩
      · exact .inl hzero
      · exact .inr (.inl hplaying)

theorem inv_wentOn {l : Listen} {after : AfterStop} (hs : Inv s l) (hpc : s.pc = .stopped after)
    (hsession : decoderSession s = none) :
    Inv { s with
        service := (afterStop env s.service after).1
        pc := Next.pc (afterStop env s.service after).2 }
      (if after = .inserted then { l with inserted := true } else l) := by
  have hframe := frame_afterStop env s.service after
  have hstage := hs.stage
  rw [Stage, hpc] at hstage
  obtain ⟨hcmd, hplays⟩ := hstage
  obtain ⟨hstop, hstart⟩ := afterStop_next env s.service after
  have hemitted : (afterStop env s.service after).1.countablePlayEmitted = l.accepted := by
    obtain ⟨_, _, _, _, _, _, _, _, _, _, -, heq⟩ := concluded_afterStop env s.service after
    rw [heq]
    exact hs.emitted
  have hnone (g : Nat) : ¬ Coming { s with
      service := (afterStop env s.service after).1
      pc := Next.pc (afterStop env s.service after).2 } g :=
    not_coming (@SessionBoundary.toSend_next s _ s.cmdQueue _) ⟨hcmd, hsession⟩ g
  refine ⟨fun g hg => absurd hg (hnone g), ?_, ?_, fun hins => ?_, ?_, ?_, ?_⟩
  · dsimp only
    rw [hframe.active]
    exact (pending_same (.wentOn after hpc) hframe.active _).trans hs.once
  · cases hnext : (afterStop env s.service after).2 with
    | done => trivial
    | stop after' => exact absurd hnext (hstop after')
    | restorePaused index chunk => exact ⟨hcmd, hsession⟩
    | start index chunk =>
      refine ⟨⟨hcmd, hsession⟩, ?_⟩
      rcases hstart index chunk hnext with hzero | ⟨heq, hplaying⟩ | rfl
      · exact .inl hzero
      · refine .inr (.inl ?_)
        dsimp only
        rw [heq]
        exact hplays hplaying
      · exact .inr (.inr rfl)
  · by_cases hafter : after = .inserted
    · subst hafter
      exact idle_afterInserted env s.service
    · rw [if_neg hafter] at hins
      obtain ⟨hplaying, hpaused⟩ := hs.inserted hins
      refine ⟨Bool.eq_false_iff.mpr fun hp => ?_, Bool.eq_false_iff.mpr fun hp => ?_⟩
      · cases (hframe.playing hp).symm.trans hplaying
      · rcases hframe.paused hp with hp | ⟨track, rfl⟩
        · cases hp.symm.trans hpaused
        · cases (hplays rfl).symm.trans hplaying
  · split <;> exact hemitted
  · split <;> exact hs.events
  · split <;> exact hs.tracks

theorem inv_begun {l : Listen} (hs : Inv s l) (hpc : s.pc = .loading index chunk)
    (hload : ensureTrackLoaded env index s.service = .ok p)
    (hfresh : pending s (nextGeneration s.service.activeGeneration) = 0) :
    Inv { s with service := beginTrack env index chunk p, pc := .resetReader .start }
      (l.note s (.service env)
        { s with service := beginTrack env index chunk p, pc := .resetReader .start }) := by
  have hpending := pending_service (.begun index chunk p hpc hload)
  have hlt := ensureTrackLoaded_lt hload
  have hstage := hs.stage
  rw [Stage, hpc] at hstage
  obtain ⟨hquiet, hwithin⟩ := hstage
  have hnone := not_coming (by rw [toSend, hpc]) hquiet
  obtain ⟨info, rfl⟩ := ensureTrackLoaded_touches hload
  obtain ⟨pos, heq⟩ := beginTrack_touches env index chunk { s.service with trackInfo := info }
  generalize hclamp : Service.clampChunk { s.service with trackInfo := info } chunk = c at heq
  generalize beginTrack env index chunk { s.service with trackInfo := info } = q at *
  have hzero : chunk = 0 → c = 0 := by
    rintro rfl
    rw [← hclamp]
    unfold Service.clampChunk clampChunkIndex
    split
    · rfl
    · rw [if_neg (by omega)]
  -- the flag survives exactly a start within the listen
  have hflag : q.countablePlayEmitted =
      (!(l.inserted || q.currentChunk == 0 || index != s.service.playlistIndex) && l.accepted) := by
    rw [heq]
    dsimp only
    rw [← hs.emitted]
    by_cases hindex : index = s.service.playlistIndex
    · by_cases hc : c = 0
      · simp [hc]
      · have hchunk : chunk ≠ 0 := mt hzero hc
        cases hins : l.inserted with
        | true =>
          obtain ⟨hplaying, hpaused⟩ := hs.inserted hins
          simp [hplaying, hpaused]
        | false =>
          have hplaying : s.service.playing = true := by simpa [hchunk, hins] using hwithin
          have hne : (c == 0) = false := beq_eq_false_iff_ne.mpr hc
          simp [hindex, hne, hplaying, Nat.pos_of_ne_zero hc]
    · simp [hindex]
  have hactive : q.activeGeneration = nextGeneration s.service.activeGeneration := by
    rw [heq]
  simp only [Listen.note, hpc]
  refine ⟨fun g hg => ?_, ?_, trivial, fun h => (by cases h), hflag, ?_, ?_⟩
  · rcases hg with hg | hg
    · obtain rfl : q.activeGeneration = g := Option.some.inj hg
      dsimp only
      rw [Function.update_self, heq]
      exact ⟨rfl, rfl, hlt, rfl⟩
    · exact absurd (.inr hg) (hnone g)
  · dsimp only at hpending ⊢
    rcases hpending with ⟨-, hle⟩ | ⟨-, hle⟩
    · have hle := hle (nextGeneration s.service.activeGeneration)
      rw [hactive]
      omega
    · have hle := (hle (nextGeneration s.service.activeGeneration)).2
      rw [hactive] at hle ⊢
      rw [List.count_singleton_self] at hle
      omega
  · cases hanew : l.inserted || q.currentChunk == 0 || index != s.service.playlistIndex with
    | true => rfl
    | false => exact hs.events
  · cases hanew : l.inserted || q.currentChunk == 0 || index != s.service.playlistIndex with
    | true =>
      intro _ h
      cases h
    | false => exact hs.tracks

theorem inv_restored {l : Listen} (hs : Inv s l) (hpc : s.pc = .restoreLoading index chunk)
    (hrestore : restorePausedTrack { env with idleAtStart := true } index chunk s.service =
      (.ok, p)) :
    Inv { s with service := p, pc := .resetReader .restore }
      { l with inserted := false, accepted := false, events := [] } := by
  have hstage := hs.stage
  rw [Stage, hpc] at hstage
  have hsession := session_restorePausedTrack hrestore
  simp only [session, Prod.mk.injEq] at hsession
  obtain ⟨-, -, hactive, -⟩ := hsession
  have hnone := @not_coming { s with service := p, pc := .resetReader .restore } rfl hstage
  refine ⟨fun g hg => absurd hg (hnone g), ?_, trivial, fun h => (by cases h),
    (restorePausedTrack_touches hrestore).2.1, rfl, fun _ h => by cases h⟩
  dsimp only
  rw [hactive]
  exact (pending_same (.restored index chunk p hpc hrestore) hactive _).trans hs.once

theorem inv_service {l : Listen} (hs : Inv s l) (hC : Final s (.service env))
    (h : ServiceMove env s t) : Inv t (l.note s (.service env) t) := by
  have hstage := hs.stage
  have hmove := h
  unfold Stage at hstage
  cases h with
  | handled msg rest hpc hqueue =>
    simp only [Listen.note, hpc]
    exact inv_handled hs hpc hqueue
  | wentOn after hpc =>
    simp only [Final, hpc] at hC
    have hinv := @inv_wentOn s env l after hs hpc hC
    cases after with
    | inserted =>
      simp only [Listen.note, hpc]
      exact hinv
    | start _ | previous | seek | pause _ | removed =>
      simp only [Listen.note, hpc]
      exact hinv
  | begun index chunk p hpc hload =>
    simp only [Final, hpc] at hC
    exact inv_begun hs hpc hload hC
  | restored index chunk p hpc hrestore =>
    simp only [Listen.note, hpc]
    exact inv_restored hs hpc hrestore
  | readerSent hpc =>
    simp only [Listen.note, hpc]
    have hsession := session_finishStart env s.service
    simp only [session, Prod.mk.injEq] at hsession
    obtain ⟨rtc, nvs, heq⟩ := @Service.resumeOnly_cache s.service env
    refine hs.keep ?_ ⟨fun hp => hsession.1 ▸ hp, fun hp => hsession.2.1 ▸ hp⟩
      (coming_mono (.inl rfl) (.inr rfl) rfl) (pending_same hmove hsession.2.2.1) trivial
    dsimp only
    rw [finishStart, heq]
    rfl
  | foundIdle after hpc | requested after hpc | waited after hpc =>
    simp only [hpc] at hstage
    simp only [Listen.note, hpc]
    exact hs.keep rfl ⟨id, id⟩ (coming_mono (.inl rfl) (.inr rfl) rfl) (pending_same hmove rfl)
      hstage
  | refused index chunk hpc =>
    have hnote : l.note s (.service env) s.startFailed = l := by
      rcases hpc with hpc | hpc | hpc | hpc <;> simp only [Listen.note, hpc, State.startFailed]
    rw [hnote]
    exact hs.keep rfl ⟨fun h => (by cases h), id⟩ (coming_mono (.inl rfl) (.inr rfl) rfl)
      (pending_same hmove rfl)
      trivial
  | checked index chunk hpc hchecks | restoreChecked index chunk hpc hchecks =>
    simp only [hpc] at hstage
    simp only [Listen.note, hpc]
    exact hs.keep rfl ⟨id, id⟩ (coming_mono (.inl rfl) (.inr rfl) rfl) (pending_same hmove rfl)
      hstage
  | waitedFailed hpc =>
    simp only [Listen.note, hpc]
    exact hs.keep rfl ⟨id, id⟩ (coming_mono (.inl rfl) (.inr rfl) rfl) (pending_same hmove rfl)
      trivial
  | decoderFull hpc | readerFull hpc =>
    simp only [Listen.note, hpc]
    exact hs.keep rfl ⟨fun h => (by cases h), id⟩ (coming_mono (.inl rfl) (.inr rfl) rfl)
      (pending_same hmove rfl)
      trivial
  | decoderSent hpc =>
    simp only [Listen.note, hpc]
    refine hs.keep rfl ⟨id, id⟩ (fun g hg => ?_) (pending_same hmove rfl) trivial
    rcases hg with hg | hg | hg
    · cases hg
    · exact .inl (by rw [toSend, hpc]; exact hg)
    · exact .inr (.inr hg)
  | readerReset for_ hpc =>
    simp only [hpc] at hstage
    simp only [Listen.note, hpc]
    have hsend : toSend { s with readerCmd := none, pc := .resetDecoder for_ } = toSend s := by
      unfold toSend
      rw [hpc]
      cases for_ <;> rfl
    refine hs.keep rfl ⟨id, id⟩ (coming_mono (.inr hsend) (.inr rfl) rfl) (pending_same hmove rfl) ?_
    cases for_ with
    | stop after timedOut => exact hstage
    | failedStart | start | restore => trivial
  | decoderReset for_ hpc =>
    simp only [hpc] at hstage
    have hsend : toSend ({ s with decoderCmd := none }.afterReset for_) = toSend s := by
      unfold toSend
      rw [hpc]
      cases for_ <;> rfl
    simp only [Listen.note, hpc]
    cases for_ with
    | stop after timedOut =>
      exact hs.keep rfl ⟨id, id⟩ (coming_mono (.inr hsend) (.inl rfl) rfl) (pending_same hmove rfl)
        ⟨rfl, hstage⟩
    | failedStart | start | restore =>
      exact hs.keep rfl ⟨id, id⟩ (coming_mono (.inr hsend) (.inl rfl) rfl) (pending_same hmove rfl)
        trivial

/-! ## Steps beside the service task -/

/-- A session begins beside the service task only with its command. -/
theorem decoder_beside (ha : a.byService = false) (h : step s a = some t) :
    (t.decoderCmd = s.decoderCmd ∨ t.decoderCmd = none) ∧
      ∀ generation, decoderSession t = some generation →
        decoderSession s = some generation ∨ s.decoderCmd = some generation := by
  cases a with
  | service _ | timeout => cases ha
  | post msg =>
    simp only [step] at h
    split at h
    · cases h
    · cases h
      rcases queueMsg_cases s msg with ⟨-, heq⟩ | ⟨-, heq⟩
      all_goals
        rw [heq]
        exact ⟨.inl rfl, fun _ => .inl⟩
  | setMode mode random =>
    cases h
    exact ⟨.inl rfl, fun _ => .inl⟩
  | reader l =>
    have hstep := @readerStep_session s t 0 l h
    refine ⟨.inl hstep.2.1, fun g hg => .inl ?_⟩
    unfold decoderSession at hg ⊢
    rwa [hstep.1] at hg
  | decoder l =>
    have hstep := fun g => @decoderStep_session s t g l h
    exact ⟨(hstep 0).2.2.1, fun g hg => ((hstep g).2.2.2 hg).imp_right And.right⟩

theorem coming_beside (ha : a.byService = false) (h : step s a = some t) (generation : Nat)
    (hg : Coming t generation) : Coming s generation := by
  obtain ⟨hcmd, hsession⟩ := decoder_beside ha h
  rcases hg with hg | hg | hg
  · exact .inl ((SessionBoundary.toSend_beside (beside_step ha h)).symm.trans hg)
  · rcases hcmd with hsame | hnone
    · exact .inr (.inl (hsame.symm.trans hg))
    · cases hnone.symm.trans hg
  · exact .inr ((hsession generation hg).symm)

theorem stage_beside {l : Listen} (ha : a.byService = false) (h : step s a = some t)
    (hs : Stage s l) : Stage t l := by
  have hbeside := beside_step ha h
  have hplaying : t.service.playing = s.service.playing := congrArg (·.1) hbeside.session
  obtain ⟨hcmd, hsession⟩ := decoder_beside ha h
  have hnocmd (hnone : s.decoderCmd = none) : t.decoderCmd = none := hcmd.elim (·.trans hnone) id
  have hquiet (hnone : s.decoderCmd = none ∧ decoderSession s = none) :
      t.decoderCmd = none ∧ decoderSession t = none := by
    refine ⟨hnocmd hnone.1, Option.eq_none_iff_forall_ne_some.mpr fun g hg => ?_⟩
    rcases hsession g hg with hold | hold
    · cases hnone.2.symm.trans hold
    · cases hnone.1.symm.trans hold
  unfold Stage at hs ⊢
  rw [hbeside.pc, hplaying]
  split
  · next hpc => simpa only [hpc] using hs
  · next hpc => simpa only [hpc] using hs
  · next hpc => simpa only [hpc] using hs
  · next hpc => simpa only [hpc] using hs
  · next hpc =>
    simp only [hpc] at hs
    exact ⟨hnocmd hs.1, hs.2⟩
  · next hpc =>
    simp only [hpc] at hs
    exact ⟨hquiet hs.1, hs.2⟩
  · next hpc =>
    simp only [hpc] at hs
    exact ⟨hquiet hs.1, hs.2⟩
  · next hpc =>
    simp only [hpc] at hs
    exact hquiet hs
  · next hpc =>
    simp only [hpc] at hs
    exact hquiet hs
  · trivial

/-- A step that is not a chunk leaves the listen alone. -/
theorem inv_beside {l : Listen} (hs : Inv s l) (ha : a.byService = false)
    (h : step s a = some t) (hnote : l.note s a t = l)
    (hlistened : listened t.service = listened s.service)
    (hposted : t.service.posted = s.service.posted) : Inv t (l.observe s a t) := by
  have hsession := (beside_step ha h).session
  simp only [session, Prod.mk.injEq] at hsession
  rw [observe_silent (newCountable_same hposted), hnote]
  exact hs.keep hlistened ⟨fun hp => hsession.1 ▸ hp, fun hp => hsession.2.1 ▸ hp⟩
    (coming_beside ha h) (pending_beside ha h) (stage_beside ha h hs.stage)

/-- A chunk: the flag, the record and the events go together. -/
theorem inv_decoded {l : Listen} {cart : Cartridge} {crcOk : Bool} (hs : Inv s l)
    (hC : chunk < s.service.trackInfo.lookupTableLen)
    (h : step s (.decoder (.decoded cart chunk crcOk)) = some t) :
    Inv t (l.observe s (.decoder (.decoded cart chunk crcOk)) t) := by
  have hcoming := coming_beside rfl h
  have hpending := pending_beside rfl h
  have hstage := stage_beside rfl h hs.stage
  have hsame := (beside_step rfl h).session
  simp only [session, Prod.mk.injEq] at hsame
  obtain ⟨hplaying, hpaused, hactive, -⟩ := hsame
  simp only [step, decoderStep] at h
  split at h
  · next generation hrunning =>
    cases h
    have hsession : decoderSession s = some generation := by rw [decoderSession, hrunning]
    obtain ⟨-, htrack, hlt, hgoes⟩ := hs.owner generation (.inr (.inr hsession))
    obtain ⟨hemitted, posted, hposted, hnothing, hcounts⟩ :=
      @decodeChunk_of_playing s.service chunk cart crcOk hC hgoes hlt
    have hnew : newCountable s
        { s with service := decodeChunk cart chunk crcOk s.service } =
          posted.filterMap countableOf := newCountable_of hposted
    obtain ⟨emitted, all, htouches⟩ := decodeChunk_touches cart chunk crcOk s.service
    have hplace : (decodeChunk cart chunk crcOk s.service).playlistIndex =
          s.service.playlistIndex ∧
        (decodeChunk cart chunk crcOk s.service).playlist = s.service.playlist := by
      rw [htouches]
      exact ⟨rfl, rfl⟩
    simp only [Listen.observe, Listen.note, hsession, htrack, hnew, Option.map_some]
    generalize (crcOk && decide (chunk > previousRestartSeconds) &&
      describes cart s.service.playlistIndex) = counts at hemitted hnothing hcounts ⊢
    refine ⟨fun g hg => ?_, ?_, hstage, fun hins => ?_, ?_, ?_, ?_⟩
    · obtain ⟨hg, htrack, hlt, hgoes⟩ := hs.owner g (hcoming g hg)
      dsimp only at hpaused hactive ⊢
      rw [hactive, hplace.1, hplace.2, hpaused]
      exact ⟨hg, htrack, hlt, hgoes⟩
    · rw [hactive]
      exact (hpending _).trans hs.once
    · rw [hplaying, hpaused]
      exact hs.inserted hins
    · exact hemitted.trans (by rw [hs.emitted])
    · cases hcase : s.service.countablePlayEmitted || !counts with
      | true =>
        rw [hnothing hcase]
        have hsame : (l.accepted || counts) = l.accepted := by
          rw [hs.emitted] at hcase
          revert hcase
          cases l.accepted <;> cases counts <;> decide
        rw [hsame, ← hs.events]
        simp
      | false =>
        obtain ⟨track, -, rfl⟩ := hcounts hcase
        obtain ⟨hfirst, hgood⟩ := Bool.or_eq_false_iff.mp hcase
        rw [Bool.not_eq_false'] at hgood
        rw [hs.emitted] at hfirst
        have hempty := hs.events
        rw [hfirst] at hempty
        rw [hgood, hfirst, List.length_append, hempty]
        rfl
    · intro x hx
      rcases List.mem_append.mp hx with hx | hx
      · exact hs.tracks x hx
      · cases hcase : s.service.countablePlayEmitted || !counts with
        | true =>
          rw [hnothing hcase] at hx
          cases hx
        | false =>
          obtain ⟨track, hindex, rfl⟩ := hcounts hcase
          obtain rfl := List.mem_singleton.mp hx
          exact ⟨_, rfl, hindex⟩
  · cases h

theorem inv_step {l : Listen} (hs : Inv s l) (hC : Final s a) (h : step s a = some t) :
    Inv t (l.observe s a t) := by
  cases a with
  | service env =>
    have hmove := serviceMove_of_step h
    rw [observe_silent (silent_service hmove)]
    exact inv_service hs hC hmove
  | timeout =>
    have hsame : t.service = s.service := by
      rcases timeout_cases h with ⟨_, _, rfl⟩ | ⟨_, rfl⟩ <;> rfl
    have hstage := hs.stage
    unfold Stage at hstage
    rw [observe_silent (newCountable_same (congrArg (·.posted) hsame))]
    rcases timeout_cases h with ⟨after, hpc, rfl⟩ | ⟨hpc, rfl⟩
    · simp only [hpc] at hstage
      exact hs.keep rfl ⟨id, id⟩ (coming_mono (.inl rfl) (.inr rfl) rfl)
        (fun g => SessionBoundary.pending_le rfl rfl) hstage
    · exact hs.keep rfl ⟨id, id⟩ (coming_mono (.inl rfl) (.inr rfl) rfl)
        (fun g => SessionBoundary.pending_le rfl rfl) trivial
  | post msg =>
    have hinv := inv_beside hs rfl h rfl
    simp only [step] at h
    split at h
    · cases h
    · cases h
      have hsame : (s.queueMsg msg).service = s.service := by
        rcases queueMsg_cases s msg with ⟨-, heq⟩ | ⟨-, heq⟩ <;> rw [heq]
      exact hinv (congrArg listened hsame) (congrArg (·.posted) hsame)
  | setMode mode random =>
    have hinv := inv_beside hs rfl h rfl
    cases h
    obtain ⟨playlist, pos, hcount, heq⟩ := setPlaybackMode_touches random mode s.service
    rw [heq] at hinv ⊢
    exact hinv (by simp only [listened, hcount]) rfl
  | reader l =>
    have hinv := inv_beside hs rfl h rfl
    cases l with
    | receive | clearBit | windowed _ _ _ | finish =>
      simp only [step, readerStep] at h
      split at h
      · cases h
        exact hinv rfl rfl
      · cases h
  | decoder label =>
    cases label with
    | decoded cart chunk crcOk => exact inv_decoded hs hC h
    | receive | clearBit | finish =>
      have hinv := inv_beside hs rfl h rfl
      simp only [step, decoderStep] at h
      split at h
      · cases h
        exact hinv rfl rfl
      · cases h
    | complete =>
      have hinv := inv_beside hs rfl h rfl
      simp only [step, decoderStep] at h
      split at h
      · next g endedLive _ =>
        cases h
        have hsame : ({ s with decoder := .idle }.queueMsg (.trackComplete g)).service =
            s.service := by
          rcases queueMsg_cases { s with decoder := .idle } (.trackComplete g) with
            ⟨-, heq⟩ | ⟨-, heq⟩ <;> rw [heq]
        exact hinv (congrArg listened hsame) (congrArg (·.posted) hsame)
      · cases h

/-! ## The count -/

/-- **A listen is counted once**, as long as every stop is final. In every state
of a run the listen since the last start that began one has posted at most one
countable play, and one exactly if a chunk past the threshold was accepted for a
track the cartridge describes; the event names the track of that chunk. -/
theorem listen_counted_once (resumeRtc : Option ResumeState) (resumeNvs : Option ResumeBlob)
    {as : List Action} {s : State} {l : Listen}
    (hC : Along watch (fun x a => Final x.1 a) (initState resumeRtc resumeNvs, .init) as)
    (hrun : run watch (initState resumeRtc resumeNvs, .init) as = some (s, l)) :
    l.events.length ≤ 1 ∧ (l.events ≠ [] ↔ l.accepted = true) ∧
      ∀ track index, (track, index) ∈ l.events →
        ∃ i, index = some i ∧ track.trackIndex = .ofNat i := by
  have hinv : Inv s l := by
    refine @run_invariant _ _ watch (fun x a => Final x.1 a) (fun x => Inv x.1 x.2)
      (fun x a y hx hC h => ?_) _ _ as (inv_init resumeRtc resumeNvs) hC hrun
    obtain ⟨t, ht, rfl⟩ := Option.map_eq_some_iff.mp h
    exact inv_step hx hC ht
  have hlength := hinv.events
  refine ⟨?_, ?_, fun track index hm => hinv.tracks _ hm⟩
  · rw [hlength]
    split <;> omega
  · rw [← List.length_pos_iff_ne_nil, hlength]
    cases l.accepted <;> simp

/-! ## A session that goes on past the pause -/

/-- A track of nine chunks of five bytes. -/
def longFile : List UInt8 :=
  [1] ++ leBytes 4 1 ++ leBytes 4 9 ++ (List.range 9).flatMap (fun i => leBytes 4 (5 * i)) ++
    List.replicate (512 - (headerLen + 4 * 9)) 0 ++ List.replicate 45 0

def longEnv : Env := { calmEnv with file := fun _ => longFile }

/-- A cartridge of such tracks is inserted and its first track starts; both
tasks receive their start command. -/
def longStarted : List Action :=
  .post .cartridgeInserted :: List.replicate 11 (.service longEnv) ++
    [.reader .receive, .decoder .receive]

/-- The whole track is decoded. -/
def longDecoded : List Action :=
  [.reader .clearBit, .decoder .clearBit] ++
    (List.range 9).map fun chunk => .decoder (.decoded longEnv.cartridge chunk true)

/-- The track is decoded, and its last chunk once more. -/
def longPlayed : List Action :=
  longStarted ++ longDecoded ++ [.decoder (.decoded longEnv.cartridge 8 true)]

/-- `PAUSE` before the tasks have cleared their idle bits; then the track is
decoded. -/
def longOvertaken : List Action :=
  longStarted ++ .post (.control .pause) :: List.replicate 5 (.service longEnv) ++ longDecoded

theorem listen_counted_once_played :
    ∃ s l, run watch (initState none none, .init) longPlayed = some (s, l) ∧
      l.events.length ≤ 1 ∧ l.events ≠ [] := by
  have hchecked : ((run watch (initState none none, .init) longPlayed).map fun x =>
      x.2.accepted) = some true := by
    decide +kernel
  obtain ⟨⟨s, l⟩, hrun, haccepted⟩ := Option.map_eq_some_iff.mp hchecked
  have hC : Along watch (fun x a => Final x.1 a) (initState none none, .init) longPlayed := by
    decide +kernel
  obtain ⟨hone, hiff, -⟩ := listen_counted_once none none hC hrun
  exact ⟨s, l, hrun, hone, hiff.mpr haccepted⟩

/-- **A play that is not counted**: the pause finds both idle bits set and returns
over the two sessions, the decoder accepts chunk 8, and the threshold is asked
of the paused position, which is chunk 0. -/
theorem listen_lost :
    ¬ ∀ (resumeRtc : Option ResumeState) (resumeNvs : Option ResumeBlob) (as : List Action)
      (s : State) (l : Listen),
      run watch (initState resumeRtc resumeNvs, .init) as = some (s, l) →
        l.events.length ≤ 1 ∧ (l.events ≠ [] ↔ l.accepted = true) ∧
          ∀ track index, (track, index) ∈ l.events →
            ∃ i, index = some i ∧ track.trackIndex = .ofNat i := by
  intro h
  have hchecked : ((run watch (initState none none, .init) longOvertaken).map fun x =>
      (x.2.accepted, x.2.events.length)) = some (true, 0) := by
    decide +kernel
  obtain ⟨⟨s, l⟩, hrun, hl⟩ := Option.map_eq_some_iff.mp hchecked
  obtain ⟨haccepted, hnone⟩ := Prod.mk.inj hl
  obtain ⟨-, hiff, -⟩ := h none none longOvertaken s l hrun
  exact hiff.mpr haccepted (List.length_eq_zero_iff.mp hnone)

end Jukeboy.Player.ListenCount
