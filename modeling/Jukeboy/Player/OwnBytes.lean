import Jukeboy.Player.ReaderSteps

/-! # A session delivers its own bytes

What a session of the reader puts into the chunk queue is chunk after chunk of
its own file, as long as three things do not happen: a start that takes the
pipeline for idle although the reader has a start command, a seek that empties the
lookup window while the reader reads from it, and a mount of a card with other
contents while a track of the card before is loaded or being loaded. -/
namespace Jukeboy.Player.OwnBytes

open Jukeboy.Base Jukeboy.Base.ByteFile Jukeboy.Base.OneSlot Jukeboy.Base.Runs
open Jukeboy.Formats.Jbm (JbmTrack Metadata)
open Jukeboy.Player.Track Jukeboy.Player.LookupWindow Jukeboy.Player.State
open Jukeboy.Player.Service hiding State Action step initState
open Jukeboy.Player.CartridgeReads Jukeboy.Player.ReadSessions Jukeboy.Player.SessionInvariant
open Jukeboy.Player.ReaderSteps (inv_reader)
open Jukeboy.Player.SeekRace (nextGeneration)

variable {file : List UInt8} {info : TrackInfo} {card : Card} {s t : State} {env : Env}

/-! ## The condition -/

/-- The service task is at the checks of a start, and passes them. -/
def startPasses (s : State) : Bool :=
  match s.pc with
  | .starting st => !s.refusesStart st.index
  | _ => false

/-- The service task is about to handle a seek that empties the lookup window. -/
def seeks (s : State) : Bool :=
  match s.pc, s.cmdQueue with
  | .waiting, msg :: _ => seekMoves s.service msg
  | _, _ => false

/-- **When sessions are left alone**: a start that goes past its checks finds the
reader without a start command, no seek empties the lookup window between the
reader's check of it and the read of its entries, a card that is mounted has the
same files as the card before where a track is loaded, being loaded or still to be
read under the present mount, and no mount or unmount takes the generation of a
read that is under way. -/
def Undisturbed (s : State) : Action → Prop
  | .service _ =>
    (startPasses s = true → ReaderFree s) ∧ (seeks s = true → s.reader.pc ≠ .checked)
  | .mount card =>
    (∀ filename ∈ filesInUse s, card.find filename = s.cart.card.find filename) ∧
      ∀ req ∈ underWay s, req.generation = s.cart.mountGeneration →
        card.find req.filename = s.cart.card.find req.filename
  | .finishMount | .unmount =>
    ∀ req ∈ underWay s, req.generation ≠ nextGeneration s.cart.mountGeneration
  | _ => True

instance (s : State) : ∀ a, Decidable (Undisturbed s a)
  | .service _ => inferInstanceAs (Decidable ((startPasses s = true → ReaderFree s) ∧
      (seeks s = true → s.reader.pc ≠ .checked)))
  | .mount card => inferInstanceAs (Decidable (
      (∀ filename ∈ filesInUse s, card.find filename = s.cart.card.find filename) ∧
        ∀ req ∈ underWay s, req.generation = s.cart.mountGeneration →
          card.find req.filename = s.cart.card.find req.filename))
  | .finishMount | .unmount => inferInstanceAs (Decidable
      (∀ req ∈ underWay s, req.generation ≠ nextGeneration s.cart.mountGeneration))
  | .timeout | .post _ | .setMode _ _ | .reader _ | .decoder _ | .cart _ => isTrue trivial

/-! ## Steps of the service task -/

theorem inv_loadStep {st : Start} {filename : Nat} {at_ : LoadPc}
    (hpc : s.pc = .loading st filename at_) (h : s.loadStep env st filename at_ = some t)
    (hs : Inv s) : Inv t := by
  have hfree : ReaderFree s := hs.free (by rw [hpc]; rfl)
  have hwait : s.reader.pc ≠ .waiting := by rw [hfree.1]; intro h; cases h
  have hload := hs.load
  cases at_ with
  | asking =>
    have hread : awaitsRead s.pc = false := by rw [hpc]; rfl
    simp only [State.loadStep] at h
    split at h
    · cases h
      exact hs.startFailed hread
    · cases h
      exact hs.moveTo rfl (.inl rfl) (fun _ => hfree) trivial fun _ => hread
  | copying =>
    have hread : awaitsRead s.pc = false := by rw [hpc]; rfl
    simp only [State.loadStep] at h
    cases h
    refine hs.moveTo rfl (.inl rfl) (fun _ => hfree) (fun _ content hfind => ⟨?_, rfl⟩)
      fun _ => hread
    rw [Card.content, show s.cart.card.find (some filename) = some content from hfind]
    rfl
  | sending req =>
    have hread : awaitsRead s.pc = false := by rw [hpc]; rfl
    simp only [State.loadStep] at h
    split at h
    · cases h
      exact hs.startFailed hread
    · next cart hsend =>
      cases h
      rw [hpc] at hload
      have hexpects := expects_sendRequest (hs.quiet hwait hread) hload hsend
      have hcard : cart.card = s.cart.card := by
        obtain ⟨mail, -, rfl⟩ := Option.map_eq_some_iff.mp hsend
        rfl
      refine ⟨hcard ▸ hs.loaded, hs.own, hcard ▸ hs.queued, hcard ▸ hs.bound, ?_, fun _ => hfree,
        ⟨s.cart.asked, ?_⟩, fun _ h => by cases h⟩
      · simp only [ReaderStage, hfree.1]
      · rw [hcard]
        exact hexpects
  | waiting =>
    rw [hpc] at hload
    obtain ⟨number, hexpects⟩ := hload
    simp only [State.loadStep] at h
    split at h
    · cases h
    · next hnotified =>
      cases h
      obtain ⟨hquiet, -, hholds⟩ := expects_takeNotification hexpects hnotified
      refine ⟨hs.loaded, hs.own, hs.queued, hs.bound, ?_, fun _ => hfree, hholds, fun _ _ => hquiet⟩
      simp only [ReaderStage, hfree.1]
  | resulting =>
    have hread : awaitsRead s.pc = false := by rw [hpc]; rfl
    rw [hpc] at hload
    simp only [State.loadStep] at h
    split at h
    · cases h
      exact hs.startFailed hread
    · next info hparse =>
      cases h
      have hok : s.cart.mail.slot.status = .ok := by
        simp only [parseTrackInfo, failIf_bind_ok_iff] at hparse
        simpa using hparse.1
      obtain ⟨buf, hdata, hbytes⟩ := hload hok
      have hbuf : slice s.resultBytes 0 s.cart.mail.slot.len =
          slice (s.cart.card.content (some filename)) 0 s.cart.mail.slot.len := by
        rw [State.resultBytes, hdata]
        exact hbytes
      have hsize : ∀ n ∈ s.statOf env filename, n = (s.cart.card.content (some filename)).length := by
        unfold State.statOf
        split
        · intro n hn
          cases hn
          rfl
        · intro _ h
          cases h
      obtain ⟨hname, hinv⟩ := runInv_of_parse hparse hbuf hsize (s.cart.card.length_content_lt _)
      refine ⟨⟨fun hnone => ?_, fun _ => ?_⟩, hs.own, ?_, fun hbusy => absurd hfree.1 hbusy, ?_,
        fun _ => hfree, trivial, fun _ _ => hs.quiet hwait hread⟩
      · cases hname.symm.trans hnone
      · rw [show ({ s.service with trackInfo := info } : Service).trackInfo.filename = _ from hname]
        exact hinv
      · change ∀ session ∈ s.readerCmd, _
        rw [hfree.2]
        intro _ h
        cases h
      · simp only [ReaderStage, hfree.1]

/-- A handler up to its stop: it empties the lookup window at most, and not under the
reader's read. -/
theorem infoMove_handle (env : Env) {msg : Msg} {rest : List Msg} (hpc : s.pc = .waiting)
    (hqueue : s.cmdQueue = msg :: rest) (hC : seeks s = true → s.reader.pc ≠ .checked) :
    InfoMove s (handle env s.service msg).1.trackInfo := by
  rw [handle_trackInfo]
  split
  · next hmoves =>
    refine .inr (.inr ⟨rfl, hC ?_⟩)
    rw [seeks, hpc, hqueue]
    exact hmoves
  · exact .inl rfl

theorem infoMove_afterStop (env : Env) (after : AfterStop) :
    InfoMove s (afterStop env s.service after).1.trackInfo :=
  (afterStop_trackInfo env s.service after).imp_right .inl

theorem inv_service (hC : Undisturbed s (.service env)) (h : s.serviceStep env = some t)
    (hs : Inv s) : Inv t := by
  unfold State.serviceStep at h
  dsimp only at h
  split at h
  · next hpc =>
    have hread : awaitsRead s.pc = false := by rw [hpc]; rfl
    split at h
    · cases h
    · next msg rest hqueue =>
      cases h
      exact hs.leave rfl (infoMove_handle _ hpc hqueue hC.2) (inStart_nextPc _) hread
  · next after hpc =>
    have hread : awaitsRead s.pc = false := by rw [hpc]; rfl
    split at h
    · cases h
      exact hs.leave rfl (.inl rfl) rfl hread
    · cases h
      exact hs.leave rfl (.inl rfl) rfl hread
  · next for_ hpc =>
    have hread : awaitsRead s.pc = false := by rw [hpc]; rfl
    split at h
    · split at h
      · cases h
        exact hs.leave rfl (.inl rfl) rfl hread
      · cases h
        exact hs.leave rfl (.inl rfl) rfl hread
    · cases h
  · next for_ hpc =>
    have hread : awaitsRead s.pc = false := by rw [hpc]; rfl
    cases h
    refine ⟨hs.loaded, hs.own, fun _ h => (by cases h), hs.bound, hs.reader, fun hstart => ?_,
      trivial,
      fun hwait _ => hs.quiet hwait hread⟩
    refine ⟨(hs.free ?_).1, rfl⟩
    rw [hpc]
    cases for_ <;> first | rfl | cases hstart
  · next for_ hpc =>
    have hread : awaitsRead s.pc = false := by rw [hpc]; rfl
    cases h
    refine hs.moveTo rfl (.inl rfl) (fun hstart => hs.free ?_) trivial fun _ => hread
    rw [hpc]
    cases for_ <;> first | rfl | cases hstart
  · next for_ hpc =>
    have hread : awaitsRead s.pc = false := by rw [hpc]; rfl
    cases h
    cases for_ with
    | stop after timedOut => exact hs.leave rfl (.inl rfl) rfl hread
    | failedStart => exact hs.leave rfl (.inl rfl) rfl hread
    | restore => exact hs.leave rfl (.inl (cache_trackInfo _ _)) rfl hread
    | start =>
      exact hs.moveTo rfl (.inl rfl) (fun _ => hs.free (by rw [hpc]; rfl)) trivial fun _ => hread
  · next after hpc =>
    have hread : awaitsRead s.pc = false := by rw [hpc]; rfl
    cases h
    exact hs.leave rfl (infoMove_afterStop _ after) (inStart_nextPc _) hread
  · next st hpc =>
    have hread : awaitsRead s.pc = false := by rw [hpc]; rfl
    split at h
    · cases h
      exact hs.startFailed hread
    · next hpasses =>
      cases h
      have hfree : ReaderFree s := hC.1 (by
        simpa [startPasses, hpc] using hpasses)
      exact hs.moveTo rfl (.inl rfl) (fun _ => hfree) trivial fun _ => hread
  · next st hpc =>
    have hread : awaitsRead s.pc = false := by rw [hpc]; rfl
    have hfree : ReaderFree s := hs.free (by rw [hpc]; rfl)
    split at h
    · cases h
      exact hs.startFailed hread
    · split at h
      · cases h
        exact hs.moveTo rfl (.inl rfl) (fun _ => hfree) trivial fun _ => hread
      · cases h
        exact hs.moveTo rfl (.inl rfl) (fun _ => hfree) trivial fun _ => hread
  · next st filename at_ hpc => exact inv_loadStep hpc h hs
  · next st hpc =>
    have hread : awaitsRead s.pc = false := by rw [hpc]; rfl
    have hfree : ReaderFree s := hs.free (by rw [hpc]; rfl)
    split at h
    · cases h
      exact hs.leave rfl (.inl (beginPaused_trackInfo ..)) rfl hread
    · cases h
      exact hs.moveTo rfl (.inl (beginTrack_trackInfo ..)) (fun _ => hfree) trivial fun _ => hread
  · next hpc =>
    have hread : awaitsRead s.pc = false := by rw [hpc]; rfl
    split at h
    · cases h
      exact hs.leave rfl (.inl rfl) rfl hread
    · cases h
      exact hs.moveTo rfl (.inl rfl) (fun _ => hs.free (by rw [hpc]; rfl)) trivial fun _ => hread
  · next hpc =>
    have hread : awaitsRead s.pc = false := by rw [hpc]; rfl
    split at h
    · cases h
      exact hs.leave rfl (.inl rfl) rfl hread
    · cases h
      -- the command is for the track that is loaded now
      have hinfo : (finishStart (s.seen env) s.service).trackInfo = s.service.trackInfo :=
        cache_trackInfo (s.seen env) s.service
      refine ⟨?_, hs.own, ?_, ?_, ?_, fun h => (by cases h), trivial,
        fun hwait _ => hs.quiet hwait hread⟩
      all_goals
        dsimp only
        rw [hinfo]
      · exact hs.loaded
      · intro session hq
        cases hq
        exact fun _ => rfl
      · exact hs.bound
      · exact hs.reader

theorem inv_timeout (h : s.timeoutStep = some t) (hs : Inv s) : Inv t := by
  unfold State.timeoutStep at h
  split at h
  · next hpc =>
    cases h
    exact hs.leave rfl (.inl rfl) rfl (by rw [hpc]; rfl)
  · next hpc =>
    cases h
    exact hs.leave rfl (.inl rfl) rfl (by rw [hpc]; rfl)
  · cases h

/-! ## Steps of the other tasks -/

theorem inv_decoder {l : State.DecoderLabel} (h : s.decoderStep l = some t) (hs : Inv s) : Inv t := by
  cases l with
  | receive | clearBit | finish =>
    simp only [State.decoderStep] at h
    split at h
    · cases h
      exact hs.beside rfl rfl
    · cases h
  | take cart crcOk =>
    simp only [State.decoderStep] at h
    split at h
    · cases h
      exact hs.beside rfl rfl
    · cases h
      exact hs.beside rfl rfl
    · cases h
      exact hs.beside rfl (decodeChunk_trackInfo ..)
    · cases h
  | complete =>
    simp only [State.decoderStep] at h
    split at h
    · cases h
      have hidle : Inv { s with decoder := .idle } := hs.beside rfl rfl
      exact hidle.queueMsg _
    · cases h

/-- The cartridge reader task answers the read that is under way, the reader's or the
service task's. -/
theorem inv_cart {l : Cart.Label} {cart : Cart} (h : s.cart.step l = some cart) (hs : Inv s) :
    Inv { s with cart := cart } := by
  obtain ⟨mail, openFile, bufIndex, readBuf, hcart⟩ := step_touches h
  have hcard : cart.card = s.cart.card := by rw [hcart]
  by_cases hwait : s.reader.pc = .waiting
  · have hbusy : s.reader.pc ≠ .idle := by rw [hwait]; intro h; cases h
    have hstage := hs.reader
    simp only [ReaderStage, hwait] at hstage
    refine hs.readerTo hbusy ?_ hs.own ?_ fun hne => absurd hwait hne
    · simp only [hcard]
    · simp only [ReaderStage, hwait]
      exact ⟨hstage.1, expects_step hstage.2 h⟩
  · by_cases hread : awaitsRead s.pc = true
    · have hfree := hs.free (inStart_of_awaitsRead hread)
      have hload := hs.load
      refine ⟨hcard ▸ hs.loaded, hs.own, hcard ▸ hs.queued, hcard ▸ hs.bound, ?_, hs.free, ?_,
        fun _ hne => by cases hread.symm.trans hne⟩
      · simp only [ReaderStage, hfree.1]
      · unfold awaitsRead at hread
        split at hread
        · next hpc =>
          rw [hpc] at hload
          obtain ⟨number, hexpects⟩ := hload
          dsimp only
          rw [hpc]
          refine ⟨number, ?_⟩
          rw [hcard]
          exact expects_step hexpects h
        · cases hread
    · have hquiet := hs.quiet hwait (Bool.eq_false_iff.mpr hread)
      rw [quiet_step hquiet] at h
      cases h

theorem inv_mount (hs : Inv s) {cart : Cart} (hC : Undisturbed s (.mount card))
    (h : s.cart.mount card = some cart) : Inv { s with cart := cart } := by
  have hcart : cart = { s.cart with mounted := true, mounting := true, card := card } := by
    unfold Cart.mount at h
    split at h
    · cases h
    · cases h
      rfl
  refine hs.remount (by rw [hcart]) (by rw [hcart]) (fun filename hf => ?_)
    fun req hreq file offset hserves => serves_mount h (hC.2 req hreq) hserves
  rw [hcart, Card.content, Card.content]
  exact congrArg (·.getD []) (hC.1 filename hf)

/-- The end of a mount, or an unmount: a new generation. -/
theorem inv_renew (hs : Inv s) {cart : Cart}
    (hC : ∀ req ∈ underWay s, req.generation ≠ nextGeneration s.cart.mountGeneration)
    (hsame : (cart.mail, cart.readBuf, cart.card, cart.mountGeneration) =
      (s.cart.mail, s.cart.readBuf, s.cart.card, nextGeneration s.cart.mountGeneration)) :
    Inv { s with cart := cart } := by
  simp only [Prod.mk.injEq] at hsame
  obtain ⟨hmail, hbuf, hcard, hgeneration⟩ := hsame
  refine hs.remount hmail hbuf (fun _ _ => by rw [hcard]) fun req hreq _ _ _ => serves_of_ne ?_
  rw [hgeneration]
  exact hC req hreq

theorem inv_step {a : Action} (hs : Inv s) (hC : Undisturbed s a) (h : step s a = some t) :
    Inv t := by
  cases a with
  | service env => exact inv_service hC h hs
  | timeout => exact inv_timeout h hs
  | post msg =>
    simp only [step] at h
    split at h
    · cases h
    · cases h
      exact hs.queueMsg msg
  | setMode mode random =>
    cases h
    exact hs.beside rfl (setPlaybackMode_trackInfo ..)
  | reader io => exact inv_reader h hs
  | decoder l => exact inv_decoder h hs
  | cart l =>
    obtain ⟨cart, hcart, rfl⟩ := Option.map_eq_some_iff.mp h
    exact inv_cart hcart hs
  | mount card =>
    obtain ⟨cart, hcart, rfl⟩ := Option.map_eq_some_iff.mp h
    exact inv_mount hs hC hcart
  | finishMount =>
    obtain ⟨cart, hcart, rfl⟩ := Option.map_eq_some_iff.mp h
    unfold Cart.finishMount at hcart
    split at hcart
    · cases hcart
      exact inv_renew hs hC rfl
    · cases hcart
  | unmount =>
    obtain ⟨cart, hcart, rfl⟩ := Option.map_eq_some_iff.mp h
    unfold Cart.unmount at hcart
    split at hcart
    · cases hcart
    · cases hcart
      exact inv_renew hs hC rfl

theorem inv_init (resumeRtc : Option ResumeState) (resumeNvs : Option ResumeBlob) :
    Inv (initState resumeRtc resumeNvs) where
  loaded := .zero _
  own := by
    intro _ h
    cases h
  queued := by
    intro _ h
    cases h
  bound h := absurd rfl h
  reader := trivial
  free := by
    intro h
    cases h
  load := trivial
  quiet _ _ := ⟨rfl, rfl, fun _ => rfl⟩

/-! ## Whose bytes are delivered -/

/-- **Undisturbed sessions deliver their own bytes.** In every run whose steps leave
the sessions alone, whatever is started, sought, skipped, cancelled, mounted and
unmounted in it, every session has put the chunks of its own file into the chunk
queue, from its start chunk on, in order, without gap or repetition and with the
bytes of the file; and a reader that was notified of its read finds the answer to
that read. -/
theorem own_bytes (resumeRtc : Option ResumeState) (resumeNvs : Option ResumeBlob)
    {as : List Action} (hC : Along step Undisturbed (initState resumeRtc resumeNvs) as)
    (hrun : run step (initState resumeRtc resumeNvs) as = some s) :
    (∀ d ∈ s.deliveries, Own d) ∧
      (s.reader.pc = .resulting → s.cart.mail.slot.number = s.reader.request) := by
  have hinv : Inv s :=
    run_invariant (fun _ _ _ hs hC h => inv_step hs hC h) (inv_init resumeRtc resumeNvs) hC hrun
  refine ⟨hinv.own, fun hpc => ?_⟩
  have hstage := hinv.reader
  simp only [ReaderStage, hpc] at hstage
  exact hstage.2.1

/-! ## Runs on a cartridge of two tracks

Both are the same file of three chunks of five bytes. -/

def secondTrack : JbmTrack := ⟨List.replicate 388 0 ++ [1, 0, 0, 0], by decide +kernel⟩

def twoTracks : Metadata where
  header := ⟨[1, 0, 0, 0, 7, 0, 0, 0] ++ List.replicate 1640 0 ++ [2, 0, 0, 0], by decide +kernel⟩
  tracks := [.zero, secondTrack]
  trackCount_eq := by decide +kernel
  tracks_le := by decide

def twoTrackEnv : Env := { StateInvariant.calmEnv with cartridge := ⟨true, some twoTracks⟩ }

def shortCard : Card := ⟨fun _ => some SeekRace.shortFile, fun _ _ h => by cases h; decide +kernel⟩

def serviceTurns (n : Nat) : List Action := List.replicate n (.service twoTrackEnv)

def readerTurns (n : Nat) : List Action := List.replicate n (.reader {})

/-- The cartridge reader task takes a request and answers it. -/
def answering : List Action := [.cart .receive, .cart (.serve {})]

/-- The cartridge is mounted and inserted, the first track loaded and started. -/
def started : List Action :=
  [.mount shortCard, .finishMount, .post .cartridgeInserted] ++ serviceTurns 11 ++ answering ++
    serviceTurns 8

/-- The reader reads and queues the first chunk. -/
def firstChunk : List Action := started ++ readerTurns 10 ++ answering ++ readerTurns 3

theorem own_bytes_firstChunk :
    ∃ s, run step (initState none none) firstChunk = some s ∧
      s.deliveries.map (·.messages) = [[(0, [0, 0, 0, 0, 0])]] ∧ ∀ d ∈ s.deliveries, Own d := by
  have hchecked : ((run step (initState none none) firstChunk).map fun s =>
      s.deliveries.map (·.messages)) = some [[(0, [0, 0, 0, 0, 0])]] := by
    decide +kernel
  obtain ⟨s, hrun, hs⟩ := Option.map_eq_some_iff.mp hchecked
  have hC : Along step Undisturbed (initState none none) firstChunk := by decide +kernel
  exact ⟨s, hrun, hs, (own_bytes none none hC hrun).1⟩

/-- Some chunk was queued with other bytes than its own. -/
def misdelivers (s : State) : Bool :=
  s.deliveries.any fun d => d.messages.any fun m => m.2 != ownBytes d.session.file m.1

theorem not_own_of_misdelivers (h : misdelivers s = true) : ¬ ∀ d ∈ s.deliveries, Own d := by
  intro hown
  obtain ⟨d, hd, hany⟩ := List.any_eq_true.mp h
  obtain ⟨m, hm, hne⟩ := List.any_eq_true.mp hany
  exact absurd ((hown d hd).bytes hm) (bne_iff_ne.mp hne)

/-- The reader takes its start command; before it clears its idle bit, the second
track is asked for, whose start finds the pipeline idle and reads its header. The
reader's own read is answered first, the header's second, and then the reader looks
at the result. -/
def crossedReads : List Action :=
  started ++ readerTurns 1 ++ [.post (.playIndex 1)] ++ serviceTurns 10 ++ readerTurns 9 ++
    [.cart .receive] ++ serviceTurns 1 ++ [.cart (.serve {})] ++ answering ++ readerTurns 3

/-- **The header of the next track is delivered as a chunk of the one before**: its
read is taken for the answer to the reader's. -/
theorem header_delivered_as_chunk :
    ¬ ∀ (resumeRtc : Option ResumeState) (resumeNvs : Option ResumeBlob) (as : List Action)
      (s : State), run step (initState resumeRtc resumeNvs) as = some s →
      (∀ d ∈ s.deliveries, Own d) ∧
        (s.reader.pc = .resulting → s.cart.mail.slot.number = s.reader.request) := by
  intro h
  have hchecked : (run step (initState none none) crossedReads).map misdelivers = some true := by
    decide +kernel
  obtain ⟨s, hrun, hs⟩ := Option.map_eq_some_iff.mp hchecked
  exact not_own_of_misdelivers hs (h none none crossedReads s hrun).1

/-- A fast forward empties the window between the check and the read of the first
chunk's entries: the chunk is delivered with the bytes of all three. -/
example : (run step (initState none none) (started ++ readerTurns 5 ++
    [.post (.control .fastForward)] ++ serviceTurns 1 ++ readerTurns 5 ++ answering ++
    readerTurns 3)).map misdelivers = some true := by
  decide +kernel

/-- A card with the same tables and other data. -/
def otherCard : Card :=
  ⟨fun _ => some (SeekRace.shortFile.take 512 ++ List.replicate 15 7),
    fun _ _ h => by cases h; decide +kernel⟩

/-- The card is changed before the reader asks for its read. -/
example : (run step (initState none none) (started ++ readerTurns 5 ++
    [.unmount, .mount otherCard, .finishMount] ++ readerTurns 5 ++ answering ++
    readerTurns 3)).map misdelivers = some true := by
  decide +kernel

end Jukeboy.Player.OwnBytes
