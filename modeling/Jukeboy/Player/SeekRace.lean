import Jukeboy.Player.LookupWindow

/-! # Seeking under a running reader

The reader task and the service task share the lookup window of the loaded
track. The reader makes sure of the window and then reads its entries; the
service task invalidates the window for a seek before it asks the session to
stop. One step of the system is one of these pieces, or a step around them: the
stop request and the wait for the pipeline, the restart, pause and resume, and
the progress of the decoder. -/
namespace Jukeboy.Player.SeekRace
open Jukeboy.Base Jukeboy.Base.Runs Jukeboy.Base.LittleEndian Jukeboy.Formats.Jba
open Jukeboy.Player.Track Jukeboy.Player.LookupWindow

/-! ## The two tasks -/

/-- Where the reader task is. Its idle bit is set while it waits for a command
and until it clears the bit after it received one. -/
inductive ReaderPc where
  | idle
  | received (generation startChunk : Nat)
  | loopTop (generation chunkIndex : Nat)
  | resolving (generation chunkIndex : Nat)
  | checked (generation chunkIndex : Nat)
  | delivering (generation chunkIndex : Nat)
  | trackDone
deriving DecidableEq, Repr

/-- What the service task does after the pipeline stopped. -/
inductive AfterStop where
  | restart
  | pause
deriving DecidableEq, Repr

/-- Where the service task is: waiting for a message, about to stop playback,
waiting for the pipeline to become idle, or past `player_service_stop_playback`. -/
inductive ServicePc where
  | waiting
  | stopping (after : AfterStop)
  | waitingForIdle (after : AfterStop)
  | stopped (after : AfterStop)
deriving DecidableEq, Repr

structure State where
  info : TrackInfo
  playing : Bool
  paused : Bool
  stopRequested : Bool
  activeGeneration : Nat
  resumeChunk : Nat
  currentChunk : Nat
  /-- `s_reader_cmd_queue`: the generation and start chunk of a queued start. -/
  readerCmd : Option (Nat × Nat)
  decoderIdle : Bool
  reader : ReaderPc
  service : ServicePc
deriving DecidableEq, Repr

def ReaderPc.idleBit : ReaderPc → Bool
  | .idle => true
  | .received _ _ => true
  | _ => false

/-- The reader made sure of its window and has not read the entries yet. -/
def ReaderPc.betweenCheckAndRead : ReaderPc → Bool
  | .checked _ _ => true
  | _ => false

def State.pipelineIdle (s : State) : Bool := s.reader.idleBit && s.decoderIdle

/-- `player_service_should_stop`. -/
def State.shouldStop (s : State) (generation : Nat) : Bool :=
  if generation = 0 then false else s.stopRequested || generation != s.activeGeneration

/-- `s_active_generation++`, which skips zero. -/
def nextGeneration (generation : Nat) : Nat :=
  let next := (generation + 1) % 2 ^ 32
  if next = 0 then 1 else next

/-- The seek commands; `seconds` is the position asked for. -/
inductive Seek where
  | fastForward
  | fastBackward
  | seekAbsolute (seconds : Nat)
deriving DecidableEq, Repr

/-- The chunk `s_paused ? s_resume_chunk : s_current_chunk`. -/
def State.baseChunk (s : State) : Nat := if s.paused then s.resumeChunk else s.currentChunk

def State.seekTarget (s : State) : Seek → Nat
  | .fastForward => getSeekTarget s.info.lookupTableLen s.baseChunk true
  | .fastBackward => getSeekTarget s.info.lookupTableLen s.baseChunk false
  | .seekAbsolute seconds => clampChunkIndex s.info.lookupTableLen seconds

/-- The position a seek target is compared with. -/
def State.position (s : State) : Nat :=
  if s.paused then s.resumeChunk else clampChunkIndex s.info.lookupTableLen s.currentChunk

/-- The seek changes the position, so the handler goes on to invalidate the window. -/
def State.seekMoves (s : State) (seek : Seek) : Bool :=
  s.playing && s.info.lookupTableLen != 0 && s.seekTarget seek != s.position

/-! ## Steps -/

/-- `player_service_reset_pipeline`, as far as the reader sees it. -/
def State.resetPipeline (s : State) : State := { s with readerCmd := none }

/-- `player_service_start_track` on the loaded track. -/
def State.startTrack (s : State) : State :=
  if s.pipelineIdle then
    let generation := nextGeneration s.activeGeneration
    let startChunk := clampChunkIndex s.info.lookupTableLen s.resumeChunk
    { s with
      activeGeneration := generation
      playing := true
      paused := false
      stopRequested := false
      resumeChunk := startChunk
      currentChunk := startChunk
      readerCmd := some (generation, startChunk) }
  else
    { s with playing := false }

/-- The handler of a seek command up to the call of `player_service_stop_playback`. -/
def State.handleSeek (s : State) (seek : Seek) : State :=
  if s.seekMoves seek then
    { s with
      resumeChunk := s.seekTarget seek
      info := invalidateLookupWindow s.info
      service := if s.paused then .waiting else .stopping .restart }
  else
    s

def State.handlePause (s : State) : State :=
  if !s.playing then
    s
  else if s.paused then
    s.startTrack
  else
    { s with
      resumeChunk := clampChunkIndex s.info.lookupTableLen s.currentChunk
      service := .stopping .pause }

/-- What the service task does next: handle a command, stop playback, see the
pipeline idle or give up waiting for it, and go on after the stop. -/
inductive ServiceLabel where
  | seek (seek : Seek)
  | pauseOrResume
  | stopPlayback
  | pipelineStopped
  | stopTimedOut
  | afterStop
deriving DecidableEq, Repr

def State.serviceStep (s : State) (l : ServiceLabel) : Option State :=
  match l, s.service with
  | .seek seek, .waiting => some (s.handleSeek seek)
  | .pauseOrResume, .waiting => some s.handlePause
  | .stopPlayback, .stopping after =>
    if s.pipelineIdle then some { s.resetPipeline with service := .stopped after }
    else some { s with stopRequested := true, service := .waitingForIdle after }
  | .pipelineStopped, .waitingForIdle after =>
    if s.pipelineIdle then some { s.resetPipeline with service := .stopped after } else none
  | .stopTimedOut, .waitingForIdle after => some { s.resetPipeline with service := .stopped after }
  | .afterStop, .stopped .restart => some { s.startTrack with service := .waiting }
  | .afterStop, .stopped .pause => some { s with paused := true, service := .waiting }
  | _, _ => none

/-- What the reader task does next. A chunk is not delivered when its read
fails or the session is stopped meanwhile. -/
inductive ReaderLabel where
  | receive
  | clearBit
  | loopTop
  | check (io : WindowIo)
  | read
  | deliver (ok : Bool)
  | becomeIdle

def State.readerStep (file : List UInt8) (s : State) (l : ReaderLabel) : Option State :=
  match l, s.reader with
  | .receive, .idle =>
    s.readerCmd.map fun (generation, startChunk) =>
      { s with reader := .received generation startChunk, readerCmd := none }
  | .clearBit, .received generation startChunk =>
    if startChunk ≥ s.info.lookupTableLen then some { s with reader := .trackDone }
    else some { s with reader := .loopTop generation startChunk }
  | .loopTop, .loopTop generation i =>
    if i < s.info.lookupTableLen && !s.shouldStop generation then
      some { s with reader := .resolving generation i }
    else
      some { s with reader := .trackDone }
  | .check io, .resolving generation i =>
    let (err, info) := ensureWindow file io s.info i
    if err = .ok then some { s with info := info, reader := .checked generation i }
    else some { s with info := info, reader := .trackDone }
  | .read, .checked generation i => some { s with reader := .delivering generation i }
  | .deliver ok, .delivering generation i =>
    some { s with reader := if ok then .loopTop generation (i + 1) else .trackDone }
  | .becomeIdle, .trackDone => some { s with reader := .idle }
  | _, _ => none

inductive Label where
  | service (l : ServiceLabel)
  | reader (l : ReaderLabel)
  | decoderAt (chunkIndex : Nat)
  | decoderIdleBit (set : Bool)

/-- One step of the system. -/
def step (file : List UInt8) (s : State) : Label → Option State
  | .service l => s.serviceStep l
  | .reader l => s.readerStep file l
  | .decoderAt i => some { s with currentChunk := i }
  | .decoderIdleBit set => some { s with decoderIdle := set }

/-- A session that was just started at a chunk of a loaded track. -/
def started (track : TrackInfo) (generation startChunk : Nat) : State where
  info := track
  playing := true
  paused := false
  stopRequested := false
  activeGeneration := generation
  resumeChunk := startChunk
  currentChunk := startChunk
  readerCmd := some (generation, startChunk)
  decoderIdle := true
  reader := .idle
  service := .waiting

/-! ## What a step can do to the window -/

variable {file : List UInt8} {track : TrackInfo} {s t : State}

theorem startTrack_frame (s : State) :
    s.startTrack.info = s.info ∧ s.startTrack.reader = s.reader := by
  unfold State.startTrack
  split <;> exact ⟨rfl, rfl⟩

theorem handlePause_frame (s : State) :
    s.handlePause.info = s.info ∧ s.handlePause.reader = s.reader := by
  unfold State.handlePause
  split
  · exact ⟨rfl, rfl⟩
  · split
    · exact startTrack_frame s
    · exact ⟨rfl, rfl⟩

/-- The service task never moves the reader, and it changes the track
information only in a seek that moves the position, which empties the window. -/
theorem serviceStep_frame {l : ServiceLabel} (h : s.serviceStep l = some t) :
    t.reader = s.reader ∧
      (t.info = s.info ∨
        ∃ seek, l = .seek seek ∧ s.seekMoves seek = true ∧
          t.info = invalidateLookupWindow s.info) := by
  unfold State.serviceStep at h
  split at h
  · next seek _ =>
    cases h
    unfold State.handleSeek
    split
    · next hmoves => exact ⟨rfl, .inr ⟨seek, rfl, hmoves, rfl⟩⟩
    · exact ⟨rfl, .inl rfl⟩
  · cases h
    exact ⟨(handlePause_frame s).2, .inl (handlePause_frame s).1⟩
  · split at h <;> cases h <;> exact ⟨rfl, .inl rfl⟩
  · split at h
    · cases h
      exact ⟨rfl, .inl rfl⟩
    · cases h
  · cases h
    exact ⟨rfl, .inl rfl⟩
  · cases h
    exact ⟨(startTrack_frame s).2, .inl (startTrack_frame s).1⟩
  · cases h
    exact ⟨rfl, .inl rfl⟩
  · cases h

/-- The reader changes the track information only when it makes sure of the
window, and only that step, when it succeeds, leads between check and read. -/
theorem readerStep_cases {l : ReaderLabel} (h : s.readerStep file l = some t) :
    (∃ io generation i, l = .check io ∧ s.reader = .resolving generation i ∧
      t.info = (ensureWindow file io s.info i).2 ∧
      ((ensureWindow file io s.info i).1 = .ok ∧ t.reader = .checked generation i ∨
        t.reader = .trackDone)) ∨
    (t.info = s.info ∧ t.reader.betweenCheckAndRead = false ∧
      (s.reader.betweenCheckAndRead = true → l = .read)) := by
  unfold State.readerStep at h
  split at h
  · next hpc =>
    obtain ⟨⟨g, c⟩, -, heq⟩ := Option.map_eq_some_iff.mp h
    cases heq
    exact .inr ⟨rfl, rfl, fun hb => by rw [hpc] at hb; cases hb⟩
  · next hpc =>
    right
    split at h <;> cases h <;> exact ⟨rfl, rfl, fun hb => by rw [hpc] at hb; cases hb⟩
  · next hpc =>
    right
    split at h <;> cases h <;> exact ⟨rfl, rfl, fun hb => by rw [hpc] at hb; cases hb⟩
  · next io g i hpc =>
    left
    refine ⟨io, g, i, rfl, hpc, ?_⟩
    dsimp only at h
    split at h
    · next hok =>
      cases h
      exact ⟨rfl, .inl ⟨hok, rfl⟩⟩
    · cases h
      exact ⟨rfl, .inr rfl⟩
  · cases h
    exact .inr ⟨rfl, rfl, fun _ => rfl⟩
  · next ok g i hpc =>
    cases h
    exact .inr ⟨rfl, by cases ok <;> rfl, fun hb => by rw [hpc] at hb; cases hb⟩
  · next hpc =>
    cases h
    exact .inr ⟨rfl, rfl, fun hb => by rw [hpc] at hb; cases hb⟩
  · cases h

/-! ## Safe reads -/

/-- The read the reader is about to make, if it is about to make one: its index
lies in the window, the pair it returns is the table's, and the reader's
assertion on the chunk size holds. -/
def ReadSafe (file : List UInt8) (track : TrackInfo) (s : State) : Prop :=
  ∀ generation i, s.reader = .checked generation i →
    s.info.lookupWindowStart ≤ i ∧
      i - s.info.lookupWindowStart < s.info.lookupWindowEntryCount ∧
      ∃ chunkStart chunkEnd, readBounds s.info i = some (chunkStart, chunkEnd) ∧
        (chunkStart, chunkEnd) = tableBounds file track i ∧
        chunkStart ≤ chunkEnd ∧ chunkEnd - chunkStart ≤ chunkMaxBytes

/-- Every read is safe at the step that makes it. -/
def ReadsSafely (file : List UInt8) (track : TrackInfo) (s : State) : Label → Prop
  | .reader .read => ReadSafe file track s
  | _ => True

/-- No seek empties the window while the reader is between check and read. -/
def SeekClear (s : State) : Label → Prop
  | .service (.seek seek) => s.seekMoves seek = true → s.reader.betweenCheckAndRead = false
  | _ => True

/-- What a run of clear seeks keeps: a good window of the track, which contains
the chunk the reader checked. -/
structure RaceInv (file : List UInt8) (track : TrackInfo) (s : State) : Prop where
  window : RunInv file track s.info
  contained : ∀ generation i, s.reader = .checked generation i →
    lookupWindowContainsChunk s.info i = true

theorem raceInv_readSafe (h : RaceInv file track s) : ReadSafe file track s := by
  intro generation i hpc
  have hin := h.contained generation i hpc
  obtain ⟨hstart, -, hlt⟩ := contains_iff.mp hin
  have hread := readBounds_of_contains h.window.window hin
  obtain ⟨hle, -, -, hmax⟩ := h.window.window.valid i hin
  rw [h.window.same.tableBounds] at hread hle hmax
  exact ⟨hstart, by omega, _, _, hread, rfl, hle, hmax⟩

theorem RaceInv.of_frame (h : RaceInv file track s) (hinfo : t.info = s.info)
    (hreader : t.reader = s.reader ∨ t.reader.betweenCheckAndRead = false) :
    RaceInv file track t := by
  refine ⟨hinfo ▸ h.window, fun g i hpc => ?_⟩
  rcases hreader with hsame | hout
  · rw [hinfo]
    exact h.contained g i (hsame ▸ hpc)
  · rw [hpc] at hout
    cases hout

/-- One step keeps the invariant, when it is no seek between check and read. -/
theorem raceInv_step (l : Label) (h : RaceInv file track s) (hclear : SeekClear s l)
    (hstep : step file s l = some t) : RaceInv file track t := by
  cases l with
  | service l =>
    obtain ⟨hreader, hinfo | ⟨seek, rfl, hmoves, hinfo⟩⟩ := serviceStep_frame hstep
    · exact h.of_frame hinfo (.inl hreader)
    · have hout := hclear hmoves
      refine ⟨?_, fun g i hpc => ?_⟩
      · rw [hinfo]
        exact ⟨h.window.geometry, h.window.same.trans (.invalidate _), windowOk_invalidate file _⟩
      · rw [← hreader, hpc] at hout
        cases hout
  | reader l =>
    rcases readerStep_cases hstep with ⟨io, g, i, -, hpc, hinfo, hres⟩ | ⟨hinfo, hout, -⟩
    · have hg := h.window.same.geometry h.window.geometry
      obtain ⟨hsame, hw, hin⟩ := ensureWindow_spec io i hg h.window.window
      refine ⟨hinfo ▸ ⟨h.window.geometry, h.window.same.trans hsame, hw⟩, fun g' i' hpc' => ?_⟩
      rcases hres with ⟨hok, hreader⟩ | hreader
      · rw [hreader] at hpc'
        cases hpc'
        exact hinfo ▸ hin hok
      · rw [hreader] at hpc'
        cases hpc'
    · exact h.of_frame hinfo (.inr hout)
  | decoderAt i =>
    cases hstep
    exact h.of_frame rfl (.inl rfl)
  | decoderIdleBit set =>
    cases hstep
    exact h.of_frame rfl (.inl rfl)

theorem raceInv_started {filename : Nat} {io : LoadIo} (generation startChunk : Nat)
    (h : loadTrackInfo filename io file = .ok track) :
    RaceInv file track (started track generation startChunk) :=
  ⟨RunInv.of_load h, fun _ _ hpc => by cases hpc⟩

/-! ## A seek between check and read -/

/-- The window was emptied under the reader. -/
def Doomed (s : State) : Prop :=
  s.reader.betweenCheckAndRead = true ∧ s.info.lookupWindowEntryCount = 0

theorem doomed_not_readSafe (h : Doomed s) : ¬ ReadSafe file track s := by
  obtain ⟨hpc, hcount⟩ := h
  intro hsafe
  cases hreader : s.reader with
  | checked g i =>
    have := (hsafe g i hreader).2.1
    omega
  | _ => rw [hreader] at hpc; cases hpc

/-- Nothing but the read itself takes the reader out of it. -/
theorem doomed_step (l : Label) (h : Doomed s) (hl : l ≠ .reader .read)
    (hstep : step file s l = some t) : Doomed t := by
  obtain ⟨hpc, hcount⟩ := h
  cases l with
  | service l =>
    obtain ⟨hreader, hinfo | ⟨_, _, _, hinfo⟩⟩ := serviceStep_frame hstep
    · exact ⟨hreader ▸ hpc, hinfo ▸ hcount⟩
    · exact ⟨hreader ▸ hpc, hinfo ▸ rfl⟩
  | reader l =>
    rcases readerStep_cases hstep with ⟨_, _, _, _, hres, _⟩ | ⟨_, _, hread⟩
    · rw [hres] at hpc
      cases hpc
    · exact absurd (congrArg Label.reader (hread hpc)) hl
  | decoderAt i =>
    cases hstep
    exact ⟨hpc, hcount⟩
  | decoderIdleBit set =>
    cases hstep
    exact ⟨hpc, hcount⟩

/-- A reader whose window was emptied makes an unsafe read, whatever comes before it. -/
theorem doomed_run {as : List Label} (h : Doomed s) (hrun : run (step file) s as = some t) :
    ¬ Along (step file) (ReadsSafely file track) s (as ++ [.reader .read]) := by
  induction as generalizing s with
  | nil => exact fun hsafe => doomed_not_readSafe h hsafe.1
  | cons l as ih =>
    rintro ⟨hfirst, hrest⟩
    by_cases hl : l = .reader .read
    · subst hl
      exact doomed_not_readSafe h hfirst
    · rw [run_cons] at hrun
      obtain ⟨u, hu, hrun⟩ := Option.bind_eq_some_iff.mp hrun
      exact ih (doomed_step l h hl hu) hrun (hrest u hu)

theorem doomed_of_seek {l : Label} (h : ¬ SeekClear s l) (hstep : step file s l = some t) :
    Doomed t := by
  unfold SeekClear at h
  split at h
  · next seek =>
    rw [Classical.not_imp, Bool.not_eq_false] at h
    obtain ⟨hmoves, hpc⟩ := h
    cases hs : s.service with
    | waiting =>
      simp only [step, State.serviceStep, hs, State.handleSeek, if_pos hmoves] at hstep
      cases hstep
      exact ⟨hpc, rfl⟩
    | _ =>
      simp only [step, State.serviceStep, hs] at hstep
      cases hstep
  · exact absurd trivial h

/-- **Seeking is safe exactly when no seek falls between check and read.** In a
run of the reader, the service task and the decoder on a loaded track, every
read of the window, the next one included, is inside the window and returns the
bounds of the table, if and only if no seek that moves the position is handled
while the reader is between the check of its window and that read. -/
theorem seek_safe_iff {filename : Nat} {io : LoadIo} {generation startChunk : Nat}
    {as : List Label} (hload : loadTrackInfo filename io file = .ok track)
    (hrun : run (step file) (started track generation startChunk) as = some t) :
    Along (step file) (ReadsSafely file track) (started track generation startChunk)
        (as ++ [.reader .read]) ↔
      Along (step file) SeekClear (started track generation startChunk) as := by
  have hinit := raceInv_started generation startChunk hload
  constructor
  · intro hsafe
    rw [along_iff]
    intro pre l post u heq hpre
    subst heq
    by_contra hrace
    rw [run_append, hpre, Option.bind_some, run_cons] at hrun
    obtain ⟨v, hv, hpost⟩ := Option.bind_eq_some_iff.mp hrun
    rw [List.append_assoc] at hsafe
    have hrest := (along_append.mp hsafe).2 u hpre
    exact doomed_run (doomed_of_seek hrace hv) hpost (hrest.2 v hv)
  · intro hclear
    refine along_append.mpr ⟨?_, fun u hu => ⟨?_, fun _ _ => trivial⟩⟩
    · refine along_of_invariant (fun _ l _ hs hC => raceInv_step l hs hC) (fun s l hs _ => ?_)
        hinit hclear
      unfold ReadsSafely
      split
      · exact raceInv_readSafe hs
      · trivial
    · exact raceInv_readSafe
        (run_invariant (fun _ l _ hs hC => raceInv_step l hs hC) hinit hclear hu)

/-- A track of three chunks of five bytes. -/
def shortFile : List UInt8 :=
  [1] ++ leBytes 4 1 ++ leBytes 4 3 ++ leBytes 4 0 ++ leBytes 4 5 ++ leBytes 4 10 ++
    List.replicate (512 - (headerLen + 4 * 3)) 0 ++ List.replicate 15 0

def shortTrack : TrackInfo :=
  { TrackInfo.zero with
    filename := some 0, lookupTableLen := 3, dataOffset := 512, totalFileSize := 527 }

theorem loadTrackInfo_shortFile : loadTrackInfo 0 {} shortFile = .ok shortTrack := by
  decide +kernel

/-- The reader makes sure of the window for chunk 1. -/
def checkingRun : List Label :=
  [.reader .receive, .reader .clearBit, .reader .loopTop, .reader (.check {})]

theorem seek_safe_iff_checkingRun :
    Along (step shortFile) (ReadsSafely shortFile shortTrack) (started shortTrack 1 1)
      (checkingRun ++ [.reader .read]) := by
  obtain ⟨t, hrun⟩ := Option.isSome_iff_exists.mp
    (show (run (step shortFile) (started shortTrack 1 1) checkingRun).isSome = true by
      decide +kernel)
  refine (seek_safe_iff loadTrackInfo_shortFile hrun).mpr ?_
  exact ⟨trivial, fun _ _ => ⟨trivial, fun _ _ =>
    ⟨trivial, fun _ _ => ⟨trivial, fun _ _ => trivial⟩⟩⟩⟩

/-- What a fast forward between the check and the read leaves. -/
def racedState : State :=
  { started shortTrack 1 1 with
    resumeChunk := 2
    readerCmd := none
    reader := .checked 1 1
    service := .stopping .restart }

theorem run_racedState :
    run (step shortFile) (started shortTrack 1 1)
      (checkingRun ++ [.service (.seek .fastForward)]) = some racedState := by
  decide +kernel

/-- The read that follows lies outside the window. -/
theorem seek_unsafe :
    ¬ ∀ (file : List UInt8) (filename : Nat) (io : LoadIo) (track : TrackInfo)
      (generation startChunk : Nat) (as : List Label) (t : State),
      loadTrackInfo filename io file = .ok track →
      run (step file) (started track generation startChunk) as = some t →
      Along (step file) (ReadsSafely file track) (started track generation startChunk)
        (as ++ [.reader .read]) := by
  intro h
  have hsafe := h shortFile 0 {} shortTrack 1 1 _ racedState loadTrackInfo_shortFile run_racedState
  have hread : ReadSafe shortFile shortTrack racedState :=
    ((along_append.mp hsafe).2 racedState run_racedState).1
  exact absurd (hread 1 1 rfl).2.1 (by decide)

end Jukeboy.Player.SeekRace
