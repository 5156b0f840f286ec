import Jukeboy.Lastfm.NowPlaying

/-! # Now playing and the player

A stale update is harmless when the service task finds another track, none, or now playing
active; a pause that comes while an update for its own track is on its way is not. Under a
condition on the pauses, the finishes and the clears, now playing tracks the player. -/
namespace Jukeboy.Lastfm.NowPlaying

open Jukeboy.Base.Runs

/-! ## The updates on their way -/

/-- An update for `track` would pass its checks, if the commands were worked off while
`track` is the valid track and nothing else happens. -/
def updatesLater (track : TrackRef) : Bool → List Command → Bool
  | _, [] => false
  | active, .updateNowPlaying r :: commands =>
    (r == track && !active) || updatesLater track active commands
  | active, .clearNowPlaying r :: commands =>
    updatesLater track (if r = track then false else active) commands
  | _, .logout :: _ => false
  | active, .other :: commands => updatesLater track active commands

/-- The commands queued, and the one a due callback is about to queue for `track`. -/
def upcoming (s : State) (track : TrackRef) : List Command :=
  s.commands ++ if s.nowPlayingTimer.due then [.updateNowPlaying track] else []

theorem updatesLater_append_of {track : TrackRef} {l l' : List Command}
    (h : ∀ active, updatesLater track active l = true → updatesLater track active l' = true)
    (commands : List Command) (active : Bool)
    (hlater : updatesLater track active (commands ++ l) = true) :
    updatesLater track active (commands ++ l') = true := by
  induction commands generalizing active with
  | nil => exact h active hlater
  | cons command commands ih =>
    cases command with
    | updateNowPlaying r =>
      simp only [List.cons_append, updatesLater, Bool.or_eq_true] at hlater ⊢
      exact hlater.imp id (ih active)
    | clearNowPlaying r => exact ih _ hlater
    | logout => cases hlater
    | other => exact ih _ hlater

/-- A command that is lost takes no other along. -/
theorem updatesLater_lost {track : TrackRef} {active : Bool} {commands : List Command}
    (l : List Command) (h : updatesLater track active (commands ++ l) = false) :
    updatesLater track active commands = false := by
  rw [← Bool.not_eq_true] at h ⊢
  intro hlater
  refine h (updatesLater_append_of (l := []) ?_ commands active (by rwa [List.append_nil]))
  intro active hnil
  cases hnil

/-- A command other than an update, put in somewhere, makes no update pass. -/
theorem updatesLater_insert {track : TrackRef} {active : Bool} {commands l : List Command}
    {command : Command}
    (hcommand : ∀ active, updatesLater track active (command :: l) = true →
      updatesLater track active l = true)
    (h : updatesLater track active (commands ++ l) = false) :
    updatesLater track active (commands ++ command :: l) = false := by
  rw [← Bool.not_eq_true] at h ⊢
  intro hlater
  exact h (updatesLater_append_of hcommand commands active hlater)

/-! ## The condition -/

/-- What is asked of a step: no event stops the player between an update's checks and its
request; a pause comes when no update for its track is requested or on its way, and names
the active track, whose timer then starts; a clear finds room. -/
def Timely (s : State) : Action → Prop
  | .trackPaused event starts =>
    let track := event.getD s.track
    s.pc.isChecked = false ∧
      (s.enabled = true → (s.trackValid || event.isSome) = true →
        s.pc ≠ .requesting track ∧ updatesLater track s.active (upcoming s track) = false ∧
          (s.active = true → track = s.track ∧ starts = true))
  | .trackFinished => s.pc.isChecked = false
  | .callback .pauseClear =>
    s.lastEvent = some .paused → s.active = true →
      s.commands.length < cmdQueueLength ∨ .clearNowPlaying s.track ∈ s.commands
  | _ => True

instance decidableTimely (s : State) : ∀ a, Decidable (Timely s a)
  | .trackPaused event starts =>
    inferInstanceAs (Decidable (s.pc.isChecked = false ∧
      (s.enabled = true → (s.trackValid || event.isSome) = true →
        s.pc ≠ .requesting (event.getD s.track) ∧
          updatesLater (event.getD s.track) s.active (upcoming s (event.getD s.track)) = false ∧
          (s.active = true → event.getD s.track = s.track ∧ starts = true))))
  | .trackFinished => inferInstanceAs (Decidable (s.pc.isChecked = false))
  | .callback .pauseClear =>
    inferInstanceAs (Decidable (s.lastEvent = some .paused → s.active = true →
      s.commands.length < cmdQueueLength ∨ .clearNowPlaying s.track ∈ s.commands))
  | .callback .nowPlaying | .trackStarted .. | .setEnabled .. | .expire _ | .queueLogout
  | .queueOther | .receive .. | .request _ | .respond _ => isTrue trivial

instance decidableSentWhilePlaying (s : State) (a : Action) : Decidable (SentWhilePlaying s a) :=
  inferInstanceAs (Decidable (s.pc.isChecked ∧ a = .request true →
    ¬ (s.lastEvent = some .paused ∨ s.lastEvent = some .finished)))

/-! ## The invariant -/

structure Inv (s : State) : Prop where
  enabled : s.trackValid = true → s.enabled = true
  /-- The active track is the one of the last update. -/
  updated : s.active = true → s.trackValid = true ∧ s.lastUpdated = some s.track
  /-- While the service task is in an update, nothing is active. -/
  updating : s.pc ≠ .idle → s.active = false
  /-- The timer task runs one callback at a time. -/
  single : s.nowPlayingTimer.due = true → s.pauseClearTimer.due = false
  disarmed : s.stopped → s.nowPlayingTimer.armed = false
  unchecked : s.stopped → s.pc.isChecked = false
  finished : s.lastEvent = some .finished → s.trackValid = false
  /-- No update for the paused track is on its way. -/
  paused : s.lastEvent = some .paused → s.trackValid = true →
    s.pc ≠ .requesting s.track ∧ updatesLater s.track s.active (upcoming s s.track) = false
  /-- The active paused track will be cleared. -/
  clearing : s.lastEvent = some .paused → s.active = true →
    s.pauseClearTimer.running = true ∨ .clearNowPlaying s.track ∈ s.commands

theorem handleTrackPausedEvent_enabled {s : State} (henabled : s.enabled = true)
    (event : Option TrackRef) (starts : Bool) :
    handleTrackPausedEvent s event starts = { s with
      nowPlayingTimer := s.nowPlayingTimer.stop
      track := event.getD s.track
      trackValid := s.trackValid || event.isSome
      pauseClearTimer :=
        if s.active then s.pauseClearTimer.startOnce starts else s.pauseClearTimer } := by
  rw [handleTrackPausedEvent, if_neg (by simp [henabled])]
  cases event with
  | none => cases s.active <;> simp [adoptTrack]
  | some track => cases s.active <;> simp [adoptTrack]

/-- The queue after a command was sent to it. -/
def queued (commands : List Command) (command : Command) : List Command :=
  if commands.length < cmdQueueLength then commands ++ [command] else commands

theorem enqueueCommand_eq (s : State) (command : Command) :
    enqueueCommand s command = { s with commands := queued s.commands command } := by
  unfold enqueueCommand queued
  split
  · rfl
  · rfl

theorem mem_queued_of_mem {commands : List Command} {c : Command} (command : Command)
    (h : c ∈ commands) : c ∈ queued commands command := by
  unfold queued
  split
  · exact List.mem_append_left _ h
  · exact h

/-- A command other than an update makes no update pass, queued or lost. -/
theorem updatesLater_queued {track : TrackRef} {active : Bool} {commands l : List Command}
    {command : Command}
    (hcommand : ∀ active, updatesLater track active (command :: l) = true →
      updatesLater track active l = true)
    (h : updatesLater track active (commands ++ l) = false) :
    updatesLater track active (queued commands command ++ l) = false := by
  unfold queued
  split
  · rw [List.append_assoc]
    exact updatesLater_insert hcommand h
  · exact h

theorem inv_initial (enabled : Bool) : Inv (initial enabled) where
  enabled h := by cases h
  updated h := by cases h
  updating h := absurd rfl h
  single h := by cases h
  disarmed _ := rfl
  unchecked _ := rfl
  finished h := by cases h
  paused h := by cases h
  clearing h := by cases h

namespace Inv

variable {s : State}

/-- What the invariant is about in a state without a valid track. -/
theorem of_reset (hvalid : s.trackValid = false) (hactive : s.active = false)
    (hsingle : s.nowPlayingTimer.due = true → s.pauseClearTimer.due = false)
    (hdisarmed : s.stopped → s.nowPlayingTimer.armed = false)
    (hunchecked : s.stopped → s.pc.isChecked = false) : Inv s where
  enabled h := by rw [hvalid] at h; cases h
  updated h := by rw [hactive] at h; cases h
  updating _ := hactive
  single := hsingle
  disarmed := hdisarmed
  unchecked := hunchecked
  finished _ := hvalid
  paused _ h := by rw [hvalid] at h; cases h
  clearing _ h := by rw [hactive] at h; cases h

/-- What the invariant is about while the player plays. -/
theorem of_started (hevent : s.lastEvent = some .started)
    (henabled : s.trackValid = true → s.enabled = true)
    (hupdated : s.active = true → s.trackValid = true ∧ s.lastUpdated = some s.track)
    (hupdating : s.pc ≠ .idle → s.active = false)
    (hsingle : s.nowPlayingTimer.due = true → s.pauseClearTimer.due = false) : Inv s where
  enabled := henabled
  updated := hupdated
  updating := hupdating
  single := hsingle
  disarmed h := by simp [State.stopped, hevent] at h
  unchecked h := by simp [State.stopped, hevent] at h
  finished h := by simp [hevent] at h
  paused h := by simp [hevent] at h
  clearing h := by simp [hevent] at h

theorem trackStarted (h : Inv s) (event : Option TrackRef) (pos : UInt32) (starts : Bool) :
    Inv ((handleTrackStartedEvent s event pos starts).seen .started) := by
  unfold handleTrackStartedEvent
  split
  · exact of_started rfl (fun h => by cases h) (fun h => by cases h) (fun _ => rfl) h.single
  · next henabled =>
    cases event with
    | none =>
      exact of_started rfl (fun h => by cases h) (fun h => by cases h) (fun _ => rfl) h.single
    | some track =>
      simp only
      split
      · -- a resume: only the clear is called off
        exact of_started rfl h.enabled h.updated h.updating h.single
      · refine of_started rfl (fun _ => ?_) (fun h => by cases h) (fun _ => rfl) h.single
        change s.enabled = true
        simpa using henabled

theorem trackFinished (h : Inv s) (hC : Timely s .trackFinished) :
    Inv ((handleTrackFinishedEvent s).seen .finished) :=
  of_reset rfl rfl h.single (fun _ => rfl) (fun _ => hC)

theorem setNowPlayingEnabled (h : Inv s) (enabled stored : Bool) :
    Inv (setNowPlayingEnabled s enabled stored) := by
  unfold NowPlaying.setNowPlayingEnabled
  split
  · exact h
  · split
    · exact { h with enabled := fun _ => rfl }
    · exact of_reset rfl rfl h.single (fun _ => rfl) h.unchecked

theorem trackPaused (h : Inv s) {event : Option TrackRef} {starts : Bool}
    (hC : Timely s (.trackPaused event starts)) :
    Inv ((handleTrackPausedEvent s event starts).seen .paused) := by
  obtain ⟨hchecked, hpaused⟩ := hC
  by_cases henabled : s.enabled = true
  swap
  · rw [handleTrackPausedEvent, if_pos (by simpa using henabled)]
    exact of_reset rfl rfl h.single (fun _ => rfl) (fun _ => hchecked)
  rw [handleTrackPausedEvent_enabled henabled event starts]
  refine ⟨fun _ => henabled, ?_, h.updating, ?_, fun _ => rfl, fun _ => hchecked, ?_, ?_, ?_⟩
  · intro hactive
    obtain ⟨hvalid, hupdated⟩ := h.updated hactive
    have hknown : (s.trackValid || event.isSome) = true := by rw [hvalid]; rfl
    obtain ⟨htrack, -⟩ := (hpaused henabled hknown).2.2 hactive
    exact ⟨hknown, by rw [hupdated]; exact congrArg some htrack.symm⟩
  · intro hdue
    have hdue := h.single hdue
    change (if s.active then s.pauseClearTimer.startOnce starts else s.pauseClearTimer).due = false
    split
    · exact hdue
    · exact hdue
  · intro hevent
    cases hevent
  · intro _ hknown
    obtain ⟨hpc, hlater, -⟩ := hpaused henabled hknown
    exact ⟨hpc, hlater⟩
  · intro _ hactive
    have hactive : s.active = true := hactive
    have hknown : (s.trackValid || event.isSome) = true := by rw [(h.updated hactive).1]; rfl
    obtain ⟨-, hstarts⟩ := (hpaused henabled hknown).2.2 hactive
    left
    simp [State.seen, hactive, hstarts, Timer.startOnce, Timer.running]

theorem expire (h : Inv s) {timer : TimerId} {t : State} (ht : step s (.expire timer) = some t) :
    Inv t := by
  cases timer with
  | nowPlaying =>
    simp only [step, Option.ite_none_left_eq_some, Option.ite_none_right_eq_some,
      Option.some.injEq, Bool.not_eq_true, Bool.or_eq_false_iff] at ht
    obtain ⟨⟨hnow, hpause⟩, harmed, rfl⟩ := ht
    -- the timer of a stopped player is not armed
    have hplaying : ¬ s.stopped := by
      intro hstopped
      rw [h.disarmed hstopped] at harmed
      cases harmed
    exact { h with
      single := fun _ => hpause
      disarmed := fun hstopped => absurd hstopped hplaying
      paused := fun hevent => absurd (.inl hevent) hplaying }
  | pauseClear =>
    simp only [step, Option.ite_none_left_eq_some, Option.ite_none_right_eq_some,
      Option.some.injEq, Bool.not_eq_true, Bool.or_eq_false_iff] at ht
    obtain ⟨⟨hnow, hpause⟩, harmed, rfl⟩ := ht
    exact { h with
      single := fun hdue => by rw [hnow] at hdue; cases hdue
      clearing := fun _ _ => .inl rfl }

/-- A call queues a command that is neither an update nor a clear. -/
theorem queue (h : Inv s) {command : Command}
    (hcommand : ∀ active l, updatesLater s.track active (command :: l) = true →
      updatesLater s.track active l = true) : Inv (enqueueCommand s command) := by
  rw [enqueueCommand_eq]
  refine { h with paused := ?_, clearing := ?_ }
  · intro hevent hvalid
    obtain ⟨hpc, hlater⟩ := h.paused hevent hvalid
    exact ⟨hpc, updatesLater_queued (fun active => hcommand active _) hlater⟩
  · intro hevent hactive
    exact (h.clearing hevent hactive).imp id (mem_queued_of_mem command)

theorem nowPlayingCallback (h : Inv s) (hdue : s.nowPlayingTimer.due = true) :
    Inv (nowPlayingTimerCb
      { s with nowPlayingTimer := { s.nowPlayingTimer with due := false } }) := by
  unfold nowPlayingTimerCb
  split
  swap
  · next hvalid =>
    exact { h with
      single := fun h => by cases h
      paused := fun _ hv => absurd hv hvalid }
  rw [enqueueCommand_eq]
  refine { h with single := fun h => (by cases h), paused := ?_, clearing := ?_ }
  · intro hevent hvalid
    obtain ⟨hpc, hlater⟩ := h.paused hevent hvalid
    refine ⟨hpc, ?_⟩
    rw [upcoming, if_pos hdue] at hlater
    change updatesLater s.track s.active
      (queued s.commands (.updateNowPlaying s.track) ++ []) = false
    rw [List.append_nil, queued]
    split
    · exact hlater
    · exact updatesLater_lost _ hlater
  · intro hevent hactive
    exact (h.clearing hevent hactive).imp id (mem_queued_of_mem _)

theorem pauseClearCallback (h : Inv s) (hC : Timely s (.callback .pauseClear))
    (hdue : s.pauseClearTimer.due = true) :
    Inv (pauseClearTimerCb
      { s with pauseClearTimer := { s.pauseClearTimer with due := false } }) := by
  have hnow : s.nowPlayingTimer.due = false := by
    rw [← Bool.not_eq_true]
    intro hnow
    rw [h.single hnow] at hdue
    cases hdue
  unfold pauseClearTimerCb
  split
  swap
  · next hvalid =>
    have hactive : s.active = true → False := fun ha => hvalid (h.updated ha).1
    exact { h with
      single := fun _ => rfl
      clearing := fun _ ha => (hactive ha).elim }
  rw [enqueueCommand_eq]
  refine { h with single := fun _ => rfl, paused := ?_, clearing := ?_ }
  · intro hevent hvalid
    obtain ⟨hpc, hlater⟩ := h.paused hevent hvalid
    refine ⟨hpc, ?_⟩
    rw [upcoming, hnow] at hlater
    change updatesLater s.track s.active
      (queued s.commands (.clearNowPlaying s.track) ++
        if s.nowPlayingTimer.due then _ else _) = false
    rw [hnow]
    exact updatesLater_queued (fun active hl => by cases hl) hlater
  · intro hevent hactive
    right
    change .clearNowPlaying s.track ∈ queued s.commands (.clearNowPlaying s.track)
    obtain hroom | hmem := hC hevent hactive
    · rw [queued, if_pos hroom]
      exact List.mem_append_right _ (List.mem_singleton.mpr rfl)
    · exact mem_queued_of_mem _ hmem

theorem request (h : Inv s) {track : TrackRef} (hpc : s.pc = .checked track) (ready : Bool) :
    Inv { s with pc := if ready then .requesting track else .idle } := by
  have hactive : s.active = false := h.updating (by rw [hpc]; simp)
  have hplaying : ¬ s.stopped := by
    intro hstopped
    have := h.unchecked hstopped
    rw [hpc] at this
    cases this
  exact { h with
    updating := fun _ => hactive
    unchecked := fun hstopped => absurd hstopped hplaying
    paused := fun hevent => absurd (.inl hevent) hplaying }

theorem respond (h : Inv s) {track : TrackRef} (hpc : s.pc = .requesting track) (ok : Bool) :
    Inv (processResponse { s with pc := .idle } track ok) := by
  have hactive : s.active = false := h.updating (by rw [hpc]; simp)
  have hidle : Inv { s with pc := .idle } := { h with
    updating := fun hne => absurd rfl hne
    unchecked := fun _ => rfl
    paused := fun hevent hvalid => ⟨by simp, (h.paused hevent hvalid).2⟩ }
  unfold processResponse
  split
  · exact hidle
  · dsimp only
    split
    · next heq =>
      obtain ⟨hvalid, heq⟩ : s.trackValid = true ∧ track = s.track := by simpa using heq
      subst heq
      have hplaying : s.lastEvent ≠ some .paused := by
        intro hevent
        exact (h.paused hevent hvalid).1 hpc
      exact { hidle with
        updated := fun _ => ⟨hvalid, rfl⟩
        updating := fun hne => absurd rfl hne
        paused := fun hevent => absurd hevent hplaying
        clearing := fun hevent => absurd hevent hplaying }
    · exact { hidle with updated := fun ha => by rw [hactive] at ha; cases ha }

/-- The service task takes a command that changes nothing. -/
theorem skip (h : Inv s) {command : Command} {rest : List Command}
    (hcommands : s.commands = command :: rest)
    (hlater : s.trackValid = true → ∀ l, updatesLater s.track s.active (command :: l) = false →
      updatesLater s.track s.active l = false)
    (hclear : s.active = true → command ≠ .clearNowPlaying s.track) :
    Inv { s with commands := rest } := by
  refine { h with paused := ?_, clearing := ?_ }
  · intro hevent hvalid
    obtain ⟨hpc, hupcoming⟩ := h.paused hevent hvalid
    rw [upcoming, hcommands] at hupcoming
    exact ⟨hpc, hlater hvalid _ hupcoming⟩
  · intro hevent hactive
    refine (h.clearing hevent hactive).imp id ?_
    intro hmem
    rw [hcommands] at hmem
    obtain heq | hmem := List.mem_cons.mp hmem
    · exact absurd heq.symm (hclear hactive)
    · exact hmem

theorem processUpdate (h : Inv s) {track : TrackRef} {rest : List Command}
    (hcommands : s.commands = .updateNowPlaying track :: rest) (online resolves : Bool) :
    Inv (processNowPlayingTrack { s with commands := rest } track online resolves) := by
  have hskip : Inv { s with commands := rest } := by
    refine h.skip hcommands ?_ (fun _ => by simp)
    intro _ l hl
    exact (Bool.or_eq_false_iff.mp hl).2
  unfold processNowPlayingTrack
  split
  · exact hskip
  split
  · exact hskip
  next hcurrent =>
  split
  · exact hskip
  split
  · exact hskip
  obtain ⟨⟨hvalid, heq⟩, hactive⟩ : (s.trackValid = true ∧ track = s.track) ∧ s.active = false := by
    simpa using hcurrent
  -- it would pass its checks, so the player is not stopped
  have hplaying : ¬ s.stopped := by
    rintro (hevent | hevent)
    · have hlater := (h.paused hevent hvalid).2
      rw [upcoming, hcommands] at hlater
      simp [updatesLater, heq, hactive] at hlater
    · rw [h.finished hevent] at hvalid
      cases hvalid
  exact { hskip with
    updating := fun _ => hactive
    unchecked := fun hstopped => absurd hstopped hplaying
    paused := fun hevent => absurd (.inl hevent) hplaying }

theorem processClear (h : Inv s) {track : TrackRef} {rest : List Command}
    (hcommands : s.commands = .clearNowPlaying track :: rest) :
    Inv (processNowPlayingClear { s with commands := rest } track) := by
  unfold processNowPlayingClear
  split
  · next hother =>
    have hother : s.trackValid = true → track ≠ s.track := by
      intro hvalid
      simpa [hvalid] using hother
    refine h.skip hcommands ?_ ?_
    · intro hvalid l hl
      rwa [updatesLater, if_neg (hother hvalid)] at hl
    · intro hactive heq
      injection heq with heq
      exact hother (h.updated hactive).1 heq
  · next hcurrent =>
    have heq : track = s.track := by
      by_contra hne
      simp [hne] at hcurrent
    refine { h with
      updated := fun ha => (by cases ha)
      updating := fun _ => rfl
      paused := ?_
      clearing := fun _ ha => (by cases ha) }
    intro hevent hvalid
    obtain ⟨hpc, hlater⟩ := h.paused hevent hvalid
    refine ⟨hpc, ?_⟩
    rw [upcoming, hcommands, List.cons_append, updatesLater, if_pos heq] at hlater
    exact hlater

theorem receive (h : Inv s) {command : Command} {rest : List Command}
    (hcommands : s.commands = command :: rest) (online resolves : Bool) :
    Inv (processCommand { s with commands := rest } online resolves command) := by
  cases command with
  | updateNowPlaying track => exact h.processUpdate hcommands online resolves
  | clearNowPlaying track => exact h.processClear hcommands
  | logout => exact of_reset rfl rfl h.single (fun _ => rfl) h.unchecked
  | other => exact h.skip hcommands (fun _ _ hl => hl) (fun _ => by simp)

end Inv

theorem inv_step (s : State) (a : Action) (t : State) (h : Inv s) (hC : Timely s a)
    (ht : step s a = some t) : Inv t := by
  cases a with
  | trackStarted event pos starts =>
    cases ht
    exact h.trackStarted event pos starts
  | trackPaused event starts =>
    cases ht
    exact h.trackPaused hC
  | trackFinished =>
    cases ht
    exact h.trackFinished hC
  | setEnabled enabled stored =>
    cases ht
    exact h.setNowPlayingEnabled enabled stored
  | expire timer => exact h.expire ht
  | callback timer =>
    cases timer with
    | nowPlaying =>
      simp only [step, Option.ite_none_right_eq_some, Option.some.injEq] at ht
      obtain ⟨hdue, rfl⟩ := ht
      exact h.nowPlayingCallback hdue
    | pauseClear =>
      simp only [step, Option.ite_none_right_eq_some, Option.some.injEq] at ht
      obtain ⟨hdue, rfl⟩ := ht
      exact h.pauseClearCallback hC hdue
  | queueLogout =>
    cases ht
    exact h.queue fun active l hl => by cases hl
  | queueOther =>
    cases ht
    exact h.queue fun active l hl => hl
  | receive online resolves =>
    simp only [step] at ht
    split at ht
    · next command rest hpc hcommands =>
      cases ht
      exact h.receive hcommands online resolves
    · cases ht
  | request ready =>
    simp only [step] at ht
    split at ht
    · next track hpc =>
      cases ht
      exact h.request hpc ready
    · cases ht
  | respond ok =>
    simp only [step] at ht
    split at ht
    · next track hpc =>
      cases ht
      exact h.respond hpc ok
    · cases ht

namespace Inv

variable {s : State}

theorem sentWhilePlaying (h : Inv s) (a : Action) : SentWhilePlaying s a := by
  rintro ⟨hchecked, -⟩ hstopped
  rw [h.unchecked hstopped] at hchecked
  cases hchecked

theorem activeAsUpdated (h : Inv s) : ActiveAsUpdated s := by
  intro hactive
  obtain ⟨hvalid, hupdated⟩ := h.updated hactive
  exact ⟨hupdated, h.enabled hvalid⟩

theorem clearedAfterPause (h : Inv s) : ClearedAfterPause s := by
  intro hevent _ hclear hcommands
  rw [← Bool.not_eq_true]
  intro hactive
  obtain hrunning | hmem := h.clearing hevent hactive
  · rw [hclear] at hrunning
    cases hrunning
  · rw [hcommands] at hmem
    cases hmem

end Inv

/-- **Now playing tracks the player** in every run of timely steps: no request is sent while
the player is stopped, what is active was updated and is enabled, and a pause ends with
nothing active. -/
theorem tracks_player (enabled : Bool) (as : List Action)
    (hC : Along step Timely (initial enabled) as) : TracksPlayer enabled as := by
  refine ⟨?_, ?_⟩
  · exact along_of_invariant inv_step (fun s a h _ => h.sentWhilePlaying a)
      (inv_initial enabled) hC
  · intro t ht
    have h : Inv t := run_invariant inv_step (inv_initial enabled) hC ht
    exact ⟨h.activeAsUpdated, h.clearedAfterPause⟩

/-- A track is started and updated, paused until it is cleared, resumed and finished. -/
def playThrough : List Action :=
  [.trackStarted (some ⟨7, 1⟩) 0 true, .expire .nowPlaying, .callback .nowPlaying,
    .receive true true, .request true, .respond true, .trackPaused (some ⟨7, 1⟩) true,
    .expire .pauseClear, .callback .pauseClear, .receive true true,
    .trackStarted (some ⟨7, 1⟩) 30 true, .trackFinished]

theorem tracks_player_through :
    Along step Timely (initial true) playThrough ∧ TracksPlayer true playThrough :=
  ⟨by decide, tracks_player true playThrough (by decide)⟩

/-- The pause cancels the timer, and not the update that the timer has queued. -/
def pausedTooLate : List Action :=
  [.trackStarted (some ⟨7, 1⟩) 0 true, .expire .nowPlaying, .callback .nowPlaying,
    .trackPaused (some ⟨7, 1⟩) true, .receive true true, .request true]

/-- The response to a request comes after the pause. -/
def answeredTooLate : List Action :=
  [.trackStarted (some ⟨7, 1⟩) 0 true, .expire .nowPlaying, .callback .nowPlaying,
    .receive true true, .request true, .trackPaused (some ⟨7, 1⟩) true, .respond true]

/-- The pause names another track than the active one. -/
def pausedElsewhere : List Action :=
  [.trackStarted (some ⟨7, 1⟩) 0 true, .expire .nowPlaying, .callback .nowPlaying,
    .receive true true, .request true, .respond true, .trackPaused (some ⟨7, 2⟩) true]

theorem late_pause_not_tracked :
    ¬ Along step SentWhilePlaying (initial true) pausedTooLate ∧
      ¬ (∀ t, run step (initial true) pausedElsewhere = some t → ActiveAsUpdated t) ∧
      ¬ (∀ t, run step (initial true) answeredTooLate = some t → ClearedAfterPause t) := by
  refine ⟨by decide, ?_, ?_⟩
  · intro h
    obtain ⟨hupdated, -⟩ := h _ rfl rfl
    cases hupdated
  · intro h
    have hactive := h _ rfl rfl rfl rfl rfl
    cases hactive

end Jukeboy.Lastfm.NowPlaying
