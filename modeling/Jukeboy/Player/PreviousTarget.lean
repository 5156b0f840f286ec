import Jukeboy.Player.ListenCount

/-! # The track PREVIOUS goes to

The position reported is `s_resume_chunk` while paused and `s_current_chunk`
otherwise. `PREVIOUS` clears `s_paused` and stops the pipeline before it asks
how far the track has come, so it always asks `s_current_chunk`, as the stop left
it. Seeking while paused moves the reported position alone. -/
namespace Jukeboy.Player.PreviousTarget

open Jukeboy.Base.Runs Jukeboy.Formats.Jbm
open Jukeboy.Player.State Jukeboy.Player.Service
open Jukeboy.Player.ListenCount (longEnv)

variable {env : Env} {p q : Service}

/-! ## Two positions -/

/-- `s_current_chunk` once `player_service_stop_playback` has returned. -/
def stoppedChunk (env : Env) (p : Service) : Nat :=
  if env.idleAtStop then p.currentChunk else env.chunkAtStop

/-- A chunk of the loaded track past which `PREVIOUS` restarts the track. -/
def PastRestart (p : Service) (chunk : Nat) : Prop :=
  previousRestartSeconds < p.trackInfo.lookupTableLen ∧ previousRestartSeconds < p.clampChunk chunk

instance (p : Service) (chunk : Nat) : Decidable (PastRestart p chunk) :=
  inferInstanceAs (Decidable (_ ∧ _))

/-- The rule on the position `player_service_current_second` reports. -/
def ReportedPast (p : Service) : Prop :=
  previousRestartSeconds < p.trackInfo.lookupTableLen ∧ previousRestartSeconds < p.currentSecond

instance (p : Service) : Decidable (ReportedPast p) := inferInstanceAs (Decidable (_ ∧ _))

theorem shouldRestart_iff (p : Service) :
    p.shouldRestartCurrentTrack = true ↔ PastRestart p p.positionChunk := by
  unfold Service.shouldRestartCurrentTrack PastRestart
  split
  · next hshort => exact ⟨fun h => (by cases h), fun h => absurd h.1 (Nat.not_lt.mpr hshort)⟩
  · next hlong => simp [Nat.not_le.mp hlong]

theorem reportedPast_iff (p : Service) : ReportedPast p ↔ PastRestart p p.positionChunk := by
  unfold ReportedPast PastRestart
  refine and_congr_right fun hlong => ?_
  rw [Service.currentSecond, if_neg (by omega)]

/-- The stop leaves the playlist, the mode and the loaded track alone. -/
theorem stopPlayback_touches (env : Env) (p : Service) :
    ∃ cancelled requested, stopPlayback env p = { p with
      cancelledGeneration := cancelled, stopRequested := requested
      currentChunk := stoppedChunk env p } := by
  unfold stopPlayback stoppedChunk
  split
  · exact ⟨_, _, rfl⟩
  · exact ⟨_, _, rfl⟩

/-! ## The target -/

theorem runStart_start (env : Env) (p : Service) (index chunk : Nat) :
    (runStart env (p, .start index chunk)).started.map Prod.fst = some index := rfl

/-- The previous track is found from the playlist, the mode and the two places in it. -/
theorem prevIndex_congr (hplaylist : q.playlist = p.playlist)
    (hindex : q.playlistIndex = p.playlistIndex) (hmode : q.playbackMode = p.playbackMode)
    (hshuffle : q.shufflePosition = p.shufflePosition) : (prevIndex q).1 = (prevIndex p).1 := by
  unfold prevIndex
  rw [hplaylist, hindex, hmode, hshuffle]
  split
  · rfl
  · split <;> rfl

/-- **The track PREVIOUS starts**, by the chunk the stop left. -/
theorem previous_starts (env : Env) (hcount : p.playlist.count ≠ 0) :
    (turn env (.control .previous) p).started.map Prod.fst =
      some (if PastRestart p (stoppedChunk env p) then p.playlistIndex else (prevIndex p).1) := by
  obtain ⟨cancelled, requested, hstop⟩ := stopPlayback_touches env { p with paused := false }
  have hturn : turn env (.control .previous) p =
      runStart env (afterStop env (stopPlayback env { p with paused := false }) .previous) := by
    rw [turn, handle, handleControl, if_neg hcount]
    rfl
  rw [hturn, hstop, afterStop]
  split
  · next hrestart =>
    have hpast : PastRestart p (stoppedChunk env p) := (shouldRestart_iff _).mp hrestart
    rw [if_pos hpast, runStart_start]
  · next hrestart =>
    have hpast : ¬ PastRestart p (stoppedChunk env p) := fun h =>
      hrestart ((shouldRestart_iff _).mpr h)
    rw [if_neg hpast]
    exact (runStart_start ..).trans (congrArg some (prevIndex_congr rfl rfl rfl rfl))

/-! ## Steps and runs -/

/-- `PREVIOUS` restarts the current track where the position reported just before
is past the restart seconds, and otherwise goes to the previous track. -/
def PreviousAsReported (s : State) : Action → Prop
  | .message (.control .previous) env =>
    s.service.playlist.count ≠ 0 →
      (turn env (.control .previous) s.service).started.map Prod.fst =
        some (if ReportedPast s.service then s.service.playlistIndex
          else (prevIndex s.service).1)
  | _ => True

/-- **When PREVIOUS goes by the position reported**: the decoder has stopped on the
same side of the restart seconds, or the previous track is the current one. -/
def StoppedAsReported (s : State) : Action → Prop
  | .message (.control .previous) env =>
    s.service.playlist.count = 0 ∨
      (PastRestart s.service (stoppedChunk env s.service) ↔ ReportedPast s.service) ∨
        (prevIndex s.service).1 = s.service.playlistIndex
  | _ => True

theorem previous_step_iff (s : State) (a : Action) :
    PreviousAsReported s a ↔ StoppedAsReported s a := by
  unfold PreviousAsReported StoppedAsReported
  split
  · next env =>
    by_cases hcount : s.service.playlist.count = 0
    · exact ⟨fun _ => .inl hcount, fun _ h => absurd hcount h⟩
    rw [previous_starts env hcount, Option.some.injEq]
    simp only [hcount, ne_eq, not_false_eq_true, true_implies, false_or]
    by_cases hstopped : PastRestart s.service (stoppedChunk env s.service) <;>
      by_cases hreported : ReportedPast s.service
    · simp [hstopped, hreported]
    · simp [hstopped, hreported, eq_comm]
    · simp [hstopped, hreported]
    · simp [hstopped, hreported]
  · exact Iff.rfl

/-- A track that plays into an idle pipeline, or that was started or restored and
not moved since, is asked where it is reported. -/
theorem stoppedAsReported_of_unmoved {s : State} (hidle : env.idleAtStop = true)
    (hsame : s.service.paused = true → s.service.resumeChunk = s.service.currentChunk) :
    StoppedAsReported s (.message (.control .previous) env) := by
  have hchunk : stoppedChunk env s.service = s.service.positionChunk := by
    rw [stoppedChunk, if_pos hidle, Service.positionChunk]
    split
    · next hpaused => exact (hsame hpaused).symm
    · rfl
  refine .inr (.inl ?_)
  rw [hchunk]
  exact (reportedPast_iff s.service).symm

/-- **PREVIOUS uses the position the user sees** exactly in the runs in which the
decoder always stopped on its side. -/
theorem previous_as_reported (resumeRtc : Option ResumeState) (resumeNvs : Option ResumeBlob)
    (cart : Cartridge) (as : List Action) :
    Along step PreviousAsReported (initState resumeRtc resumeNvs cart) as ↔
      Along step StoppedAsReported (initState resumeRtc resumeNvs cart) as :=
  @along_congr _ _ step StoppedAsReported PreviousAsReported (fun _ => True)
    (fun _ _ _ _ _ _ => trivial) (fun s a _ => previous_step_iff s a) _ as trivial

/-! ## A seek while paused -/

/-- A track of nine seconds is paused at its start and moved to its last second. -/
def movedWhilePaused : List Action :=
  [.message .cartridgeInserted longEnv, .message (.control .pause) longEnv,
    .message (.seekAbsolute 8) longEnv]

/-- **A rewind that leaves the track**: second 8 is reported, and `PREVIOUS` goes to
the track before, as `s_current_chunk` is still 0. -/
theorem previous_not_as_reported :
    ¬ ∀ (resumeRtc : Option ResumeState) (resumeNvs : Option ResumeBlob) (cart : Cartridge)
      (as : List Action), Along step PreviousAsReported (initState resumeRtc resumeNvs cart) as := by
  intro h
  have hchecked : (run step (initState none none longEnv.cartridge) movedWhilePaused).map
      (fun s => (decide (s.service.playlist.count ≠ 0 ∧ ReportedPast s.service),
        s.service.playlistIndex,
        (turn longEnv (.control .previous) s.service).started.map Prod.fst)) =
      some (true, 0, some 2) := by
    decide +kernel
  obtain ⟨s, hrun, hs⟩ := Option.map_eq_some_iff.mp hchecked
  obtain ⟨hpast, hmore⟩ := Prod.mk.inj hs
  obtain ⟨hindex, htarget⟩ := Prod.mk.inj hmore
  obtain ⟨hcount, hpast⟩ := of_decide_eq_true hpast
  have hlast := along_iff.mp (h none none longEnv.cartridge
    (movedWhilePaused ++ [.message (.control .previous) longEnv])) movedWhilePaused _ [] s rfl hrun
  have hstart := hlast hcount
  rw [if_pos hpast, hindex, htarget] at hstart
  cases hstart

end Jukeboy.Player.PreviousTarget
