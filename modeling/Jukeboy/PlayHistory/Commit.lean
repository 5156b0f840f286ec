import Jukeboy.PlayHistory.Coalescing
import Jukeboy.PlayHistory.FileRoundTrip

/-! # Commits

Any task may ask for a commit. On the process task it flushes at once; any other
task leaves a request, which the process task serves before it takes another
event, and polls two flags and a result that all callers share. -/
namespace Jukeboy.PlayHistory.Commit

open Jukeboy.Base Jukeboy.Base.ByteFile Jukeboy.Base.Runs Jukeboy.Base.SlotTable
  Jukeboy.Formats.Jbm Jukeboy.PlayHistory.Cache Jukeboy.PlayHistory.Effects
  Jukeboy.PlayHistory.Operations Jukeboy.PlayHistory.Invariant Jukeboy.PlayHistory.Persistence
  Jukeboy.PlayHistory.Flush Jukeboy.PlayHistory.FileRoundTrip Jukeboy.PlayHistory.Coalescing

/-! ## The dirty flag -/

@[simp] theorem nextSequence_dirty (s : Store) : (nextSequence s).2.dirty = s.dirty := by
  unfold nextSequence
  dsimp only
  split <;> split <;> rfl

@[simp] theorem removeAlbum_dirty (s : Store) (i : Fin maxAlbums) :
    (removeAlbum s i).dirty = s.dirty := by
  unfold removeAlbum
  split <;> rfl

@[simp] theorem ensureCapacityLoop_dirty (keep : UInt32) (preserve : Bool) (da dt turns : Nat)
    (s : Store) : (ensureCapacityLoop keep preserve da dt turns s).1.dirty = s.dirty := by
  induction turns generalizing s with
  | zero => rfl
  | succ turns ih =>
    rw [ensureCapacityLoop]
    split
    · dsimp only
      split
      · rfl
      · rw [ih, removeAlbum_dirty]
    · rfl

theorem openAlbum_dirty {s t : Store} {checksum : UInt32} {found : Option (Fin maxAlbums)}
    {i : Fin maxAlbums} (h : openAlbum checksum found s = some (i, t)) : t.dirty = s.dirty := by
  unfold openAlbum at h
  split at h
  · cases h
    rfl
  · split at h
    · cases h
    · cases h
      exact nextSequence_dirty s

@[simp] theorem updateAlbum_dirty (i : Fin maxAlbums) (metadata : JbmHeader) (sequence : UInt32)
    (s : Store) : (updateAlbum i metadata sequence s).dirty = s.dirty := by
  unfold updateAlbum
  split <;> rfl

theorem openTrack_dirty {s t : Store} {checksum index : UInt32} {i : Fin maxTracks}
    (h : openTrack checksum index s = some (i, t)) : t.dirty = s.dirty := by
  unfold openTrack at h
  split at h
  · cases h
    rfl
  · split at h
    · cases h
    · cases h
      exact nextSequence_dirty s

@[simp] theorem updateTrack_dirty (i : Fin maxTracks) (metadata : JbmTrack) (sequence : UInt32)
    (s : Store) : (updateTrack i metadata sequence s).dirty = s.dirty := by
  unfold updateTrack
  split <;> rfl

@[simp] theorem syncTracks_dirty (cart : Cartridge) (checksum sequence : UInt32)
    (indices : List Nat) (s : Store) :
    (syncTracks cart checksum sequence indices s).1.dirty = s.dirty := by
  induction indices generalizing s with
  | nil => rfl
  | cons index rest ih =>
    rw [syncTracks]
    split
    · exact ih s
    · split
      · rfl
      · next hopen => rw [ih, updateTrack_dirty, openTrack_dirty hopen]

/-- A sync that succeeds leaves the cache dirty; another leaves the flag alone. -/
theorem syncCurrentCartridge_dirty {cart : Cartridge} {s t : Store} {err : EspErr}
    (h : syncCurrentCartridge cart s = (t, err)) :
    t.dirty = if err = .ok then true else s.dirty := by
  unfold syncCurrentCartridge at h
  split at h
  · cases h
    rfl
  · split at h
    · cases h
      rfl
    · next metadata hmeta =>
      dsimp only at h
      generalize hcap : ensureCapacity _ _ _ _ s = r at h
      have hroom : r.1.dirty = s.dirty := hcap ▸ ensureCapacityLoop_dirty ..
      split at h
      · next u =>
        split at h
        · cases h
          exact hroom
        · next slot v hopen =>
          generalize hsync : syncTracks _ _ _ _ _ = q at h
          have hloop : q.1.dirty = s.dirty := by
            rw [← hsync, syncTracks_dirty, updateAlbum_dirty, nextSequence_dirty,
              openAlbum_dirty hopen]
            exact hroom
          split at h
          · cases h
            rfl
          · next hne =>
            cases h
            rw [if_neg]
            · exact hloop
            · rintro rfl
              exact hne rfl
      · next hne =>
        cases h
        rw [if_neg]
        · exact hroom
        · rintro rfl
          exact hne rfl

theorem slotForPlay_dirty {cart : Cartridge} {event : TrackEvent} {s t : Store}
    {found : Except EspErr (Option (Fin maxTracks))} (h : slotForPlay cart event s = (t, found)) :
    (s.dirty = true → t.dirty = true) ∧ found ≠ .error .ok := by
  unfold slotForPlay at h
  split at h
  · cases h
    exact ⟨id, fun h => by cases h⟩
  · split at h
    · cases h
      exact ⟨id, fun h => by cases h⟩
    · split at h
      · split at h
        · next heq =>
          cases h
          exact ⟨fun _ => syncCurrentCartridge_dirty heq, fun h => by cases h⟩
        · next err hne heq =>
          cases h
          refine ⟨fun hd => ?_, fun hok => ?_⟩
          · rw [syncCurrentCartridge_dirty heq, hd, ite_self]
          · exact hne (Except.error.inj hok)
      · cases h
        exact ⟨id, fun h => by cases h⟩

/-- The slot a play is counted in is in use. -/
theorem slotForPlay_some {cart : Cartridge} {event : TrackEvent} {s t : Store}
    {slot : Fin maxTracks} (h : slotForPlay cart event s = (t, .ok (some slot))) :
    ∃ track, t.tracks slot = some track := by
  unfold slotForPlay at h
  split at h
  · next hfind =>
    cases h
    obtain ⟨track, hslot, -⟩ := findTrackSlot_some hfind
    exact ⟨track, hslot⟩
  · split at h
    · cases h
    · split at h
      · split at h
        · next u heq =>
          obtain ⟨rfl, hfind⟩ := Prod.mk.inj h
          obtain ⟨track, hslot, -⟩ := findTrackSlot_some (Except.ok.inj hfind)
          exact ⟨track, hslot⟩
        · cases h
      · cases h

theorem countPlay_dirty {s : Store} {slot : Fin maxTracks} {track : Track}
    (hslot : s.tracks slot = some track) (event : TrackEvent) :
    (countPlay slot event s).1.dirty = true := by
  simp only [countPlay, nextSequence_tracks, hslot]

/-- **An event that succeeds leaves the cache dirty**, and no event makes a dirty
cache clean. -/
theorem processEvent_dirty (cart : Cartridge) (event : Event) (s : Store)
    (h : s.dirty = true ∨ (processEvent cart event s).2.1 = .ok) :
    (processEvent cart event s).1.dirty = true := by
  cases event with
  | syncCurrentCartridge =>
    have hsync := syncCurrentCartridge_dirty (Prod.mk.eta (p := syncCurrentCartridge cart s)).symm
    simp only [processEvent] at h ⊢
    rw [hsync]
    rcases h with hd | hok
    · rw [hd, ite_self]
    · rw [if_pos hok]
  | countablePlay track =>
    simp only [processEvent, applyCountablePlay] at h ⊢
    generalize hslot : slotForPlay cart track s = r at h ⊢
    obtain ⟨t, found⟩ := r
    obtain ⟨hsticky, hne⟩ := slotForPlay_dirty hslot
    cases found with
    | error err =>
      rcases h with hd | rfl
      · exact hsticky hd
      · exact absurd rfl hne
    | ok found =>
      cases found with
      | none =>
        rcases h with hd | hok
        · exact hsticky hd
        · cases hok
      | some slot =>
        obtain ⟨u, hu⟩ := slotForPlay_some hslot
        exact countPlay_dirty hu track
  | clear => rfl
  | rebuild =>
    have hsync := syncCurrentCartridge_dirty
      (Prod.mk.eta (p := syncCurrentCartridge cart { resetCache s with dirty := true })).symm
    rw [ite_self] at hsync
    exact hsync

/-! ## The tasks -/

abbrev eventsPerPass : Nat := 8

/-- Where a task stands. -/
inductive Pc where
  /-- In none of the functions below, with what its last call of a commit returned. -/
  | outside (returned : Option EspErr)
  /-- In the loop of `play_history_service_commit` that waits for the process task. -/
  | waiting
  /-- In the loop of `play_history_service_process_once`, with so many turns left. -/
  | passing (left : Nat)
  | processing (left : Nat) (event : Event)
  /-- In `play_history_run_commit_now`, `called` from a commit of the task itself. -/
  | flushing (called : Bool)
  | flushed (called : Bool) (err : EspErr)
deriving DecidableEq, Repr

/-- An event that was accepted, and the number of the inbox entry that stands
for it: its own, or the equal one that waited already. -/
structure Receipt where
  event : Event
  number : Nat
deriving DecidableEq, Repr

variable {ι : Type} [DecidableEq ι]

/-- The service. The last five fields are kept for the statements, nothing reads
them: the receipts, how many inbox entries were taken and how many processed, the
cache the file was last written from since the service started, and the events
processed with success since then. -/
structure State (ι : Type) where
  initialised : Bool
  handleKnown : Bool
  inbox : Inbox
  store : Store
  disk : Disk
  commitRequested : Bool
  commitInProgress : Bool
  commitResult : EspErr
  pcs : ι → Pc
  receipts : List Receipt
  taken : Nat
  processed : Nat
  image : Option Store
  unsaved : List Event

inductive Action (ι : Type) where
  | init (f : Faults)
  | queueEvent (event : Event)
  | commit (i : ι)
  | poll (i : ι)
  | processOnce
  | dequeueEvent
  | processEvent (cart : Cartridge)
  | flush (i : ι) (f : Faults) (info : Option (UInt32 × UInt32))
  | finishCommit (i : ι)

def State.goTo (s : State ι) (i : ι) (pc : Pc) : State ι :=
  { s with pcs := Function.update s.pcs i pc }

theorem State.goTo_self (s : State ι) (i : ι) (pc : Pc) : (s.goTo i pc).pcs i = pc :=
  Function.update_self ..

theorem State.goTo_of_ne {s : State ι} {i j : ι} (h : j ≠ i) (pc : Pc) :
    (s.goTo i pc).pcs j = s.pcs j := by
  simp only [State.goTo, Function.update_of_ne h]

/-- Before `play_history_service_init`, with any file on the disk. -/
def boot (disk : Disk) : State ι where
  initialised := false
  handleKnown := false
  inbox := ⟨[], false⟩
  store := resetCache emptyStore
  disk
  commitRequested := false
  commitInProgress := false
  commitResult := EspErr.ok
  pcs := fun _ => .outside none
  receipts := []
  taken := 0
  processed := 0
  image := none
  unsaved := []

/-- `play_history_service_init`; a later call changes nothing. -/
def init (f : Faults) (s : State ι) : State ι :=
  if s.initialised then s else
  let (store, disk, _) := loadLocked f s.store s.disk
  { s with initialised := true, store, disk, image := none, unsaved := [] }

/-- The number of the entry that stands for an event accepted now. -/
def entryNumber (event : Event) (s : State ι) : Nat :=
  s.taken + if coalesces event s.inbox then s.inbox.pending.idxOf event
    else s.inbox.pending.length

def queueEvent (event : Event) (s : State ι) : State ι :=
  let (accepted, inbox) := Coalescing.queueEvent event s.inbox
  { s with
    inbox
    receipts := if accepted then s.receipts ++ [⟨event, entryNumber event s⟩] else s.receipts }

/-- A call of `play_history_service_commit`, up to the flush or to the loop. -/
def commit (process i : ι) (s : State ι) : State ι :=
  if !s.initialised then s.goTo i (.outside (some .ok)) else
  if s.handleKnown && i == process then
    if s.commitInProgress then s.goTo i (.outside (some .invalidState)) else
    { s with commitInProgress := true }.goTo i (.flushing true)
  else if s.commitRequested || s.commitInProgress then
    s.goTo i (.outside (some .invalidState))
  else { s with commitRequested := true, commitResult := .invalidState }.goTo i .waiting

/-- One turn of the loop that waits. -/
def poll (i : ι) (s : State ι) : State ι :=
  if !s.commitRequested && !s.commitInProgress then
    s.goTo i (.outside (some s.commitResult))
  else s

/-- `play_history_service_process_once`, up to the flush or to the loop. -/
def processOnce (process : ι) (s : State ι) : State ι :=
  let s := { s with handleKnown := true }
  if !s.initialised then s.goTo process (.outside none) else
  if s.commitRequested && !s.commitInProgress then
    { s with commitRequested := false, commitInProgress := true }.goTo process (.flushing false)
  else if s.commitInProgress then s.goTo process (.outside none)
  else s.goTo process (.passing eventsPerPass)

/-- One step; a function that a task is not at has no step. -/
def step (process : ι) (s : State ι) : Action ι → Option (State ι)
  | .init f => some (init f s)
  | .queueEvent event => if s.initialised then some (queueEvent event s) else none
  | .commit i => match s.pcs i with
    | .outside _ => some (commit process i s)
    | _ => none
  | .poll i => match s.pcs i with
    | .waiting => some (poll i s)
    | _ => none
  | .processOnce => match s.pcs process with
    | .outside _ => some (processOnce process s)
    | _ => none
  | .dequeueEvent => match s.pcs process with
    | .passing 0 => some (s.goTo process (.outside none))
    | .passing (left + 1) => match Coalescing.dequeueEvent s.inbox with
      | none => some (s.goTo process (.outside none))
      | some (event, inbox) =>
        some ({ s with inbox, taken := s.taken + 1 }.goTo process (.processing left event))
    | _ => none
  | .processEvent cart => match s.pcs process with
    | .processing left event =>
      let (store, err, _) := Cache.processEvent cart event s.store
      some ({ s with
        store
        processed := s.processed + 1
        unsaved := if err = EspErr.ok then event :: s.unsaved else s.unsaved }.goTo process
          (.passing left))
    | _ => none
  | .flush i f info => match s.pcs i with
    | .flushing called =>
      let (store, disk, err) := flushLocked f info s.store s.disk
      let written := err == EspErr.ok && s.store.dirty
      some ({ s with
        store, disk
        image := if written then some s.store else s.image
        unsaved := if written then [] else s.unsaved }.goTo i (.flushed called err))
    | _ => none
  | .finishCommit i => match s.pcs i with
    | .flushed called err =>
      some ({ s with commitResult := err, commitInProgress := false }.goTo i
        (.outside (if called then some err else none)))
    | _ => none

/-- What a step comes to: the branches of the functions, each with what it found. -/
inductive Fired (process : ι) (s : State ι) : Action ι → State ι → Prop where
  | initAgain {f : Faults} : Fired process s (.init f) s
  | init {f : Faults} :
      Fired process s (.init f)
        { s with
          initialised := true
          store := (loadLocked f s.store s.disk).1
          disk := (loadLocked f s.store s.disk).2.1
          image := none
          unsaved := [] }
  | queueEvent {event : Event} : Fired process s (.queueEvent event) (queueEvent event s)
  | turnAway {i : ι} {err : EspErr} {r : Option EspErr} (hi : s.pcs i = .outside r)
      (herr : err = .ok → s.initialised = false) :
      Fired process s (.commit i) (s.goTo i (.outside (some err)))
  | ask {i : ι} {r : Option EspErr} (hi : s.pcs i = .outside r)
      (hidle : s.commitInProgress = false) :
      Fired process s (.commit i)
        ({ s with commitRequested := true, commitResult := .invalidState }.goTo i .waiting)
  | flushNow {r : Option EspErr} (hi : s.pcs process = .outside r) :
      Fired process s (.commit process)
        ({ s with commitInProgress := true }.goTo process (.flushing true))
  | pollAgain {i : ι} : Fired process s (.poll i) s
  | answer {i : ι} (hi : s.pcs i = .waiting) :
      Fired process s (.poll i) (s.goTo i (.outside (some s.commitResult)))
  | serve {r : Option EspErr} (hi : s.pcs process = .outside r) :
      Fired process s .processOnce
        ({ s with
          handleKnown := true
          commitRequested := false
          commitInProgress := true }.goTo process (.flushing false))
  | noPass {r : Option EspErr} (hi : s.pcs process = .outside r) :
      Fired process s .processOnce ({ s with handleKnown := true }.goTo process (.outside none))
  | pass {r : Option EspErr} (hi : s.pcs process = .outside r) :
      Fired process s .processOnce
        ({ s with handleKnown := true }.goTo process (.passing eventsPerPass))
  | passDone {left : Nat} (hi : s.pcs process = .passing left) :
      Fired process s .dequeueEvent (s.goTo process (.outside none))
  | take {left : Nat} {event : Event} {inbox : Inbox} (hi : s.pcs process = .passing (left + 1))
      (hpending : s.inbox.pending = event :: inbox.pending) :
      Fired process s .dequeueEvent
        ({ s with inbox, taken := s.taken + 1 }.goTo process (.processing left event))
  | process {left : Nat} {event : Event} {cart : Cartridge}
      (hi : s.pcs process = .processing left event) :
      Fired process s (.processEvent cart)
        ({ s with
          store := (Cache.processEvent cart event s.store).1
          processed := s.processed + 1
          unsaved := if (Cache.processEvent cart event s.store).2.1 = EspErr.ok
            then event :: s.unsaved else s.unsaved }.goTo process (.passing left))
  | flush {i : ι} {f : Faults} {info : Option (UInt32 × UInt32)} {called : Bool} {store : Store}
      {disk : Disk} {err : EspErr} (hi : s.pcs i = .flushing called)
      (hflush : flushLocked f info s.store s.disk = (store, disk, err)) :
      Fired process s (.flush i f info)
        ({ s with
          store, disk
          image := if err == EspErr.ok && s.store.dirty then some s.store else s.image
          unsaved := if err == EspErr.ok && s.store.dirty then [] else s.unsaved }.goTo i
            (.flushed called err))
  | finish {i : ι} {called : Bool} {err : EspErr} (hi : s.pcs i = .flushed called err) :
      Fired process s (.finishCommit i)
        ({ s with commitResult := err, commitInProgress := false }.goTo i
          (.outside (if called then some err else none)))

theorem fired_commit {process i : ι} {s : State ι} {r : Option EspErr}
    (hi : s.pcs i = .outside r) : Fired process s (.commit i) (commit process i s) := by
  unfold commit
  split
  · next hinit => exact .turnAway hi fun _ => (Bool.not_eq_true' _).mp hinit
  · split
    · next hproc =>
      obtain ⟨-, hproc⟩ := Bool.and_eq_true_iff.mp hproc
      obtain rfl := eq_of_beq hproc
      split
      · exact .turnAway hi (fun h => by cases h)
      · exact .flushNow hi
    · split
      · exact .turnAway hi (fun h => by cases h)
      · next hbusy =>
        exact .ask hi (Bool.or_eq_false_iff.mp (Bool.eq_false_iff.mpr hbusy)).2

theorem fired_of_step {process : ι} {s t : State ι} {a : Action ι}
    (hstep : step process s a = some t) : Fired process s a t := by
  cases a with
  | init f =>
    obtain rfl := Option.some.inj hstep
    unfold init
    split
    · exact .initAgain
    · exact .init
  | queueEvent event =>
    simp only [step] at hstep
    split at hstep
    · obtain rfl := Option.some.inj hstep
      exact .queueEvent
    · cases hstep
  | commit i =>
    simp only [step] at hstep
    split at hstep
    · next hi =>
      obtain rfl := Option.some.inj hstep
      exact fired_commit hi
    · cases hstep
  | poll i =>
    simp only [step] at hstep
    split at hstep
    · next hi =>
      obtain rfl := Option.some.inj hstep
      unfold poll
      split
      · exact .answer hi
      · exact .pollAgain
    · cases hstep
  | processOnce =>
    simp only [step] at hstep
    split at hstep
    · next hi =>
      obtain rfl := Option.some.inj hstep
      unfold processOnce
      dsimp only
      split
      · exact .noPass hi
      · split
        · exact .serve hi
        · split
          · exact .noPass hi
          · exact .pass hi
    · cases hstep
  | dequeueEvent =>
    simp only [step] at hstep
    split at hstep
    · next hi =>
      obtain rfl := Option.some.inj hstep
      exact .passDone hi
    · next left hi =>
      split at hstep
      · obtain rfl := Option.some.inj hstep
        exact .passDone hi
      · next event inbox hdeq =>
        obtain rfl := Option.some.inj hstep
        refine .take hi ?_
        unfold Coalescing.dequeueEvent at hdeq
        split at hdeq
        · cases hdeq
        · next hpending =>
          cases hdeq
          exact hpending
    · cases hstep
  | processEvent cart =>
    simp only [step] at hstep
    split at hstep
    · next hi =>
      obtain rfl := Option.some.inj hstep
      exact .process hi
    · cases hstep
  | flush i f info =>
    simp only [step] at hstep
    split at hstep
    · next hi =>
      obtain rfl := Option.some.inj hstep
      exact .flush hi rfl
    · cases hstep
  | finishCommit i =>
    simp only [step] at hstep
    split at hstep
    · next hi =>
      obtain rfl := Option.some.inj hstep
      exact .finish hi
    · cases hstep

/-! ## What every run keeps -/

/-- The task is in a commit that flushes. -/
def Pc.InFlush : Pc → Prop
  | .flushing _ => True
  | .flushed _ _ => True
  | _ => False

/-- Only the process task flushes, and the flag is up while it does. -/
def Flagged (process : ι) (pcs : ι → Pc) (inProgress : Bool) : Prop :=
  ∀ i, (pcs i).InFlush → i = process ∧ inProgress = true

theorem Flagged.stay {process : ι} {pcs : ι → Pc} {b : Bool} (h : Flagged process pcs b) (i : ι)
    {pc : Pc} (hpc : ¬ pc.InFlush) : Flagged process (Function.update pcs i pc) b := by
  intro j hj
  by_cases hij : j = i
  · subst hij
    rw [Function.update_self] at hj
    exact absurd hj hpc
  · rw [Function.update_of_ne hij] at hj
    exact h j hj

theorem Flagged.enter {process : ι} {pcs : ι → Pc} {b : Bool} (h : Flagged process pcs b)
    (pc : Pc) : Flagged process (Function.update pcs process pc) true := by
  intro j hj
  by_cases hij : j = process
  · exact ⟨hij, rfl⟩
  · rw [Function.update_of_ne hij] at hj
    exact ⟨(h j hj).1, rfl⟩

theorem Flagged.leave {process : ι} {pcs : ι → Pc} {b : Bool} (h : Flagged process pcs b) {i : ι}
    (hi : (pcs i).InFlush) {pc : Pc} (hpc : ¬ pc.InFlush) :
    Flagged process (Function.update pcs i pc) false := by
  intro j hj
  by_cases hij : j = i
  · subst hij
    rw [Function.update_self] at hj
    exact absurd hj hpc
  · rw [Function.update_of_ne hij] at hj
    exact absurd ((h j hj).1.trans (h i hi).1.symm) hij

theorem flagged_step {process : ι} {s t : State ι} {a : Action ι}
    (h : Flagged process s.pcs s.commitInProgress) (hstep : step process s a = some t) :
    Flagged process t.pcs t.commitInProgress := by
  cases fired_of_step hstep with
  | initAgain | pollAgain | init | queueEvent => exact h
  | flushNow | serve => exact h.enter _
  | flush hi =>
    obtain ⟨rfl, hflag⟩ := h _ (by rw [hi]; trivial)
    exact hflag ▸ h.enter _
  | finish hi => exact h.leave (by rw [hi]; trivial) id
  | turnAway | ask | answer | noPass | pass | passDone | take | process => exact h.stay _ id

/-- The entries the task has taken and not processed. -/
def Pc.inHand : Pc → Nat
  | .processing _ _ => 1
  | _ => 0

/-- An accepted event is processed or in hand, or its entry waits in its place. -/
def Placed (r : Receipt) (taken : Nat) (pending : List Event) : Prop :=
  r.number < taken ∨ pending[r.number - taken]? = some r.event

theorem Placed.append {r : Receipt} {taken : Nat} {pending : List Event}
    (h : Placed r taken pending) (more : List Event) : Placed r taken (pending ++ more) := by
  refine h.imp_right fun hget => ?_
  obtain ⟨hlt, -⟩ := List.getElem?_eq_some_iff.mp hget
  rw [List.getElem?_append_left hlt, hget]

theorem Placed.take {r : Receipt} {taken : Nat} {event : Event} {rest : List Event}
    (h : Placed r taken (event :: rest)) : Placed r (taken + 1) rest := by
  rcases h with hlt | hget
  · exact .inl (Nat.lt_succ_of_lt hlt)
  · by_cases hle : r.number ≤ taken
    · exact .inl (Nat.lt_succ_of_le hle)
    · refine .inr ?_
      have hsucc : r.number - taken = r.number - (taken + 1) + 1 := by omega
      rwa [hsucc, List.getElem?_cons_succ] at hget

omit [DecidableEq ι] in
/-- The entry that stands for an event accepted now holds that event. -/
theorem placed_entryNumber {s : State ι} {event : Event} {inbox : Inbox}
    (h : Coalescing.queueEvent event s.inbox = (true, inbox)) :
    (∃ more, inbox.pending = s.inbox.pending ++ more) ∧
      Placed ⟨event, entryNumber event s⟩ s.taken inbox.pending := by
  unfold Coalescing.queueEvent at h
  split at h
  · split at h
    · next hcoal =>
      cases h
      refine ⟨⟨[], (List.append_nil _).symm⟩, .inr ?_⟩
      obtain ⟨-, hany⟩ := Bool.and_eq_true_iff.mp hcoal
      obtain ⟨waiting, hmem, heq⟩ := List.any_eq_true.mp hany
      obtain rfl : waiting = event := eq_of_beq heq
      have hlt := List.idxOf_lt_length_of_mem hmem
      rw [entryNumber, if_pos hcoal, Nat.add_sub_cancel_left, List.getElem?_eq_getElem hlt,
        List.getElem_idxOf]
    · next hcoal =>
      cases h
      refine ⟨⟨_, rfl⟩, .inr ?_⟩
      rw [entryNumber, if_neg hcoal, Nat.add_sub_cancel_left, List.getElem?_concat_length]
  · cases h

structure Ordered (process : ι) (s : State ι) : Prop where
  taken : s.taken = s.processed + (s.pcs process).inHand
  placed : ∀ r ∈ s.receipts, Placed r s.taken s.inbox.pending

/-- A step that moves a task and leaves the inbox alone. -/
theorem Ordered.move {process : ι} {s t : State ι} (h : Ordered process s) {i : ι} {pc : Pc}
    (hi : (s.pcs i).inHand = 0) (hpcs : t.pcs = Function.update s.pcs i pc) (hpc : pc.inHand = 0)
    (hrest : (t.receipts, t.inbox, t.taken, t.processed) =
      (s.receipts, s.inbox, s.taken, s.processed)) : Ordered process t := by
  simp only [Prod.mk.injEq] at hrest
  obtain ⟨hreceipts, hinbox, htaken, hprocessed⟩ := hrest
  constructor
  · rw [htaken, hprocessed, h.taken, hpcs]
    by_cases hip : process = i
    · subst hip
      rw [Function.update_self, hi, hpc]
    · rw [Function.update_of_ne hip]
  · rw [hreceipts, htaken, hinbox]
    exact h.placed

omit [DecidableEq ι] in
theorem ordered_queueEvent {process : ι} {s : State ι} (h : Ordered process s) (event : Event) :
    Ordered process (queueEvent event s) := by
  refine ⟨h.taken, ?_⟩
  unfold queueEvent
  generalize hq : Coalescing.queueEvent event s.inbox = q
  obtain ⟨accepted, inbox⟩ := q
  cases accepted with
  | true =>
    obtain ⟨⟨more, hmore⟩, hnew⟩ := placed_entryNumber hq
    intro r hr
    rcases List.mem_append.mp hr with hr | hr
    · exact hmore ▸ (h.placed r hr).append more
    · rw [List.mem_singleton.mp hr]
      exact hnew
  | false =>
    unfold Coalescing.queueEvent at hq
    split at hq
    · split at hq
      · cases hq
      · cases hq
    · cases hq
      exact h.placed

theorem ordered_step {process : ι} {s t : State ι} {a : Action ι} (h : Ordered process s)
    (hstep : step process s a = some t) : Ordered process t := by
  cases fired_of_step hstep with
  | initAgain | pollAgain => exact h
  | init => exact ⟨h.taken, h.placed⟩
  | queueEvent => exact ordered_queueEvent h _
  | @take left event inbox hi hpending =>
    have htaken := h.taken
    rw [hi] at htaken
    refine ⟨?_, fun r hr => (hpending ▸ h.placed r hr).take⟩
    change s.taken + 1 = s.processed + (Function.update s.pcs process _ process).inHand
    rw [Function.update_self, htaken]
    rfl
  | @process left event cart hi =>
    have htaken := h.taken
    rw [hi] at htaken
    refine ⟨?_, h.placed⟩
    change s.taken = s.processed + 1 + (Function.update s.pcs process _ process).inHand
    rw [Function.update_self, htaken]
    rfl
  | turnAway hi | ask hi | flushNow hi | answer hi | serve hi | noPass hi | pass hi | passDone hi
  | flush hi | finish hi => exact h.move (congrArg Pc.inHand hi) rfl rfl rfl

/-! ## What is in the file -/

/-- The file holds the cache it was written from last. -/
def Written (s : State ι) : Prop :=
  ∀ cache, s.image = some cache →
    ∃ blob, buildSerializedBlob cache = .ok blob ∧ s.disk.file = some blob

/-- A clean cache has nothing to write: no event succeeded since the file was written. -/
def Saved (s : State ι) : Prop := s.store.dirty = false → s.unsaved = [] ∧ Written s

omit [DecidableEq ι] in
theorem Saved.congr {s t : State ι} (h : Saved s)
    (heq : (t.store, t.disk, t.image, t.unsaved) = (s.store, s.disk, s.image, s.unsaved)) :
    Saved t := by
  simp only [Prod.mk.injEq] at heq
  obtain ⟨hstore, hdisk, himage, hunsaved⟩ := heq
  rw [Saved, hstore, hunsaved, Written, himage, hdisk]
  exact h

/-- What a flush does to the file. -/
theorem flushLocked_written {f : Faults} {info : Option (UInt32 × UInt32)} {s t : Store}
    {d d' : Disk} (h : flushLocked f info s d = (t, d', .ok)) :
    if s.dirty then ∃ blob, buildSerializedBlob s = .ok blob ∧ d'.file = some blob
    else t = s ∧ d' = d := by
  cases hd : s.dirty with
  | true =>
    obtain ⟨blob, hbuild, hfile, -⟩ := flushLocked_ok hd h
    exact ⟨blob, hbuild, hfile⟩
  | false =>
    rw [flushLocked, if_pos hd] at h
    cases h
    exact ⟨rfl, rfl⟩

/-- What a step of a flush leaves. -/
theorem saved_flush {process i : ι} {f : Faults} {info : Option (UInt32 × UInt32)}
    {s t : State ι} (h : Saved s) (hstep : step process s (.flush i f info) = some t) :
    Saved t ∧ ((flushLocked f info s.store s.disk).2.2 = .ok →
      t.unsaved = [] ∧ Written t ∧ (s.store.dirty = true → t.image = some s.store)) := by
  cases fired_of_step hstep with
  | @flush _ _ _ called store disk err hi hflush =>
    rw [hflush]
    by_cases herr : err = .ok
    · subst herr
      have hwritten := flushLocked_written hflush
      cases hd : s.store.dirty with
      | true =>
        rw [hd, if_pos rfl] at hwritten
        refine ⟨fun _ => ⟨rfl, ?_⟩, fun _ => ⟨rfl, ?_, fun _ => rfl⟩⟩
        · rintro cache hcache
          exact Option.some.inj hcache ▸ hwritten
        · rintro cache hcache
          exact Option.some.inj hcache ▸ hwritten
      | false =>
        rw [hd, if_neg Bool.false_ne_true] at hwritten
        obtain ⟨rfl, rfl⟩ := hwritten
        exact ⟨fun _ => h hd, fun _ => ⟨(h hd).1, (h hd).2, fun h => by cases h⟩⟩
    · obtain ⟨rfl, hd⟩ := flushLocked_error hflush herr
      refine ⟨fun hclean => ?_, fun hok => absurd hok herr⟩
      cases hd.symm.trans hclean

theorem saved_step {process : ι} {s t : State ι} {a : Action ι} (h : Saved s)
    (hstep : step process s a = some t) : Saved t := by
  cases fired_of_step hstep with
  | initAgain | pollAgain => exact h
  | init => exact fun _ => ⟨rfl, fun _ h => by cases h⟩
  | @process left event cart hi =>
    intro hclean
    have hdirty := mt (processEvent_dirty cart event s.store) (Bool.eq_false_iff.mp hclean)
    obtain ⟨hd, herr⟩ := not_or.mp hdirty
    obtain ⟨hunsaved, hwritten⟩ := h (Bool.eq_false_iff.mpr hd)
    refine ⟨?_, hwritten⟩
    change (if _ then _ else _) = _
    rw [if_neg herr, hunsaved]
  | flush => exact (saved_flush h hstep).1
  | queueEvent | turnAway | ask | flushNow | answer | serve | noPass | pass | passDone | take
  | finish => exact h.congr rfl

/-! ## A call of a commit -/

/-- A step that is no new call of the task and no flush that succeeds. -/
def Quiet (i : ι) (s : State ι) : Action ι → Prop
  | .commit j => j ≠ i
  | .flush _ f info => (flushLocked f info s.store s.disk).2.2 ≠ .ok
  | _ => True

/-- The call has not succeeded, nor is it about to. -/
structure Unanswered (i : ι) (s : State ι) : Prop where
  outside : s.pcs i ≠ .outside (some .ok)
  flushed : ∀ called, s.pcs i ≠ .flushed called .ok
  waiting : s.pcs i = .waiting → s.commitResult ≠ .ok ∧ ∀ j called, s.pcs j ≠ .flushed called .ok

/-- A step that moves a task and keeps the result from becoming a success. -/
theorem Unanswered.move {i : ι} {s t : State ι} (h : Unanswered i s) {j : ι} {pc : Pc}
    (hpcs : t.pcs = Function.update s.pcs j pc)
    (hself : j = i → pc ≠ .outside (some .ok) ∧ pc ≠ .waiting)
    (hflushed : ∀ called, pc ≠ .flushed called .ok)
    (hresult : s.pcs i = .waiting → s.commitResult ≠ .ok → t.commitResult ≠ .ok) :
    Unanswered i t := by
  have hnone : (∀ k called, s.pcs k ≠ .flushed called .ok) →
      ∀ k called, t.pcs k ≠ .flushed called .ok := by
    intro hall k called
    rw [hpcs]
    by_cases hkj : k = j
    · subst hkj
      rw [Function.update_self]
      exact hflushed called
    · rw [Function.update_of_ne hkj]
      exact hall k called
  by_cases hij : i = j
  · subst hij
    obtain ⟨houtside, hwaiting⟩ := hself rfl
    have hi : t.pcs i = pc := by rw [hpcs, Function.update_self]
    exact ⟨hi ▸ houtside, hi ▸ hflushed, fun hw => absurd (hi.symm.trans hw) hwaiting⟩
  · have hi : t.pcs i = s.pcs i := by rw [hpcs, Function.update_of_ne hij]
    refine ⟨hi ▸ h.outside, hi ▸ h.flushed, fun hw => ?_⟩
    rw [hi] at hw
    obtain ⟨hres, hall⟩ := h.waiting hw
    exact ⟨hresult hw hres, hnone hall⟩

theorem unanswered_step {process i : ι} {s t : State ι} {a : Action ι} (h : Unanswered i s)
    (hquiet : Quiet i s a) (hstep : step process s a = some t) : Unanswered i t := by
  cases fired_of_step hstep with
  | initAgain | pollAgain => exact h
  | init | queueEvent => exact ⟨h.outside, h.flushed, h.waiting⟩
  | turnAway | flushNow =>
    exact h.move rfl (fun heq => absurd heq hquiet) (fun _ h => by cases h) fun _ => id
  | ask =>
    exact h.move rfl (fun heq => absurd heq hquiet) (fun _ h => by cases h) fun _ _ h => by cases h
  | answer hj =>
    refine h.move rfl ?_ (fun _ h => by cases h) fun _ => id
    rintro rfl
    refine ⟨fun heq => ?_, fun h => by cases h⟩
    exact (h.waiting hj).1 (Option.some.inj (Pc.outside.inj heq))
  | flush hj hflush =>
    refine h.move rfl (fun _ => ⟨fun h => (by cases h), fun h => by cases h⟩) (fun c heq => ?_)
      fun _ => id
    exact hquiet (hflush ▸ (Pc.flushed.inj heq).2)
  | @finish j called err hj =>
    refine h.move rfl ?_ (fun _ h => by cases h) fun hw _ heq => ?_
    · rintro rfl
      refine ⟨fun heq => ?_, fun h => by cases h⟩
      cases called with
      | true => exact h.flushed true (hj.trans (by rw [Option.some.inj (Pc.outside.inj heq)]))
      | false => cases heq
    · exact (h.waiting hw).2 j called (hj.trans (by rw [show err = .ok from heq]))
  | serve | noPass | pass | passDone | take | process =>
    exact h.move rfl (fun _ => ⟨fun h => (by cases h), fun h => by cases h⟩) (fun _ h => by cases h)
      fun _ => id

/-- A call that does not return at once with a success has none yet. -/
theorem unanswered_call {process i : ι} {s t : State ι}
    (hflag : Flagged process s.pcs s.commitInProgress) (hinit : s.initialised = true)
    (hstep : step process s (.commit i) = some t) : Unanswered i t := by
  have hself : ∀ (u : State ι) pc, pc ≠ .waiting → pc ≠ .outside (some .ok) →
      (∀ called, pc ≠ .flushed called .ok) → Unanswered i (u.goTo i pc) := by
    intro u pc hwaiting houtside hflushed
    have hi := u.goTo_self i pc
    exact ⟨fun heq => houtside (hi.symm.trans heq), fun c heq => hflushed c (hi.symm.trans heq),
      fun hw => absurd (hi.symm.trans hw) hwaiting⟩
  cases fired_of_step hstep with
  | turnAway _ herr =>
    refine hself _ _ (fun h => by cases h) (fun heq => ?_) (fun _ h => by cases h)
    cases hinit.symm.trans (herr (Option.some.inj (Pc.outside.inj heq)))
  | flushNow => exact hself _ _ (fun h => by cases h) (fun h => by cases h) (fun _ h => by cases h)
  | ask _ hidle =>
    have hi : ∀ u : State ι, (u.goTo i .waiting).pcs i = .waiting :=
      fun u => u.goTo_self i .waiting
    refine ⟨fun heq => (by cases (hi _).symm.trans heq),
      fun _ heq => (by cases (hi _).symm.trans heq),
      fun _ => ⟨fun h => (by cases h), fun j called hj => ?_⟩⟩
    by_cases hji : j = i
    · subst hji
      cases (hi _).symm.trans hj
    · rw [State.goTo_of_ne hji] at hj
      obtain ⟨-, hup⟩ := hflag j (by rw [hj]; trivial)
      cases hidle.symm.trans hup

/-- What every state of a run has. -/
structure Sound (process : ι) (s : State ι) : Prop where
  flagged : Flagged process s.pcs s.commitInProgress
  ordered : Ordered process s
  saved : Saved s

omit [DecidableEq ι] in
theorem sound_boot (process : ι) (disk : Disk) : Sound process (boot disk) where
  flagged := by
    intro _ h
    cases h
  ordered := ⟨rfl, fun _ h => by cases h⟩
  saved := fun _ => ⟨rfl, fun _ h => by cases h⟩

theorem sound_run {process : ι} {s t : State ι} {as : List (Action ι)} (h : Sound process s)
    (hrun : run (step process) s as = some t) : Sound process t := by
  refine run_invariant (C := fun _ _ => True) (fun s a t hs _ hstep => ?_) h (along_true as) hrun
  exact ⟨flagged_step hs.flagged hstep, ordered_step hs.ordered hstep, saved_step hs.saved hstep⟩

/-- Between a call of a commit and its return of `ESP_OK` a flush succeeds. -/
theorem exists_flush {process i : ι} {t u : State ι} {mid : List (Action ι)}
    (ht : Unanswered i t) (hrun : run (step process) t mid = some u) (honce : .commit i ∉ mid)
    (hok : u.pcs i = .outside (some .ok)) :
    ∃ before j f info after v w, mid = before ++ .flush j f info :: after ∧
      run (step process) t before = some v ∧ step process v (.flush j f info) = some w ∧
      (flushLocked f info v.store v.disk).2.2 = .ok := by
  by_contra hnone
  refine (run_invariant (fun s a t => unanswered_step) ht (along_iff.mpr ?_) hrun).outside hok
  intro before a after v heq hv
  subst heq
  obtain ⟨w, hw⟩ : ∃ w, step process v a = some w := by
    rw [run_append, hv, Option.bind_some, run_cons] at hrun
    obtain ⟨w, hw, -⟩ := Option.bind_eq_some_iff.mp hrun
    exact ⟨w, hw⟩
  cases a with
  | commit j =>
    rintro rfl
    exact honce (List.mem_append_right _ (List.mem_cons_self ..))
  | flush j f info => exact fun hflush => hnone ⟨_, _, _, _, _, v, w, rfl, hv, hw, hflush⟩
  | _ => trivial

/-- A receipt whose entry is not taken yet waits; one that is taken is processed
when nothing is in hand. -/
theorem placed_at_flush {process j : ι} {v w : State ι} {f : Faults}
    {info : Option (UInt32 × UInt32)} (hv : Sound process v)
    (hstep : step process v (.flush j f info) = some w) {r : Receipt} (hr : r ∈ v.receipts) :
    Placed r v.processed v.inbox.pending := by
  cases fired_of_step hstep with
  | flush hj =>
    obtain ⟨rfl, -⟩ := hv.flagged j (by rw [hj]; trivial)
    have htaken := hv.ordered.taken
    rw [hj] at htaken
    rw [← show v.taken = v.processed from htaken]
    exact hv.ordered.placed r hr

/-- No step takes a receipt back. -/
theorem receipts_step {process : ι} {s t : State ι} {a : Action ι}
    (hstep : step process s a = some t) {r : Receipt} (hr : r ∈ s.receipts) : r ∈ t.receipts := by
  cases fired_of_step hstep with
  | queueEvent =>
    unfold queueEvent
    dsimp only
    split
    · exact List.mem_append_left _ hr
    · exact hr
  | _ => exact hr

theorem receipts_run {process : ι} {t v : State ι} {as : List (Action ι)}
    (hrun : run (step process) t as = some v) : ∀ r ∈ t.receipts, r ∈ v.receipts :=
  @run_invariant _ _ (step process) (fun _ _ => True) (fun s => ∀ r ∈ t.receipts, r ∈ s.receipts)
    (fun _ _ _ h _ hstep r hr => receipts_step hstep (h r hr)) t v as (fun _ => id)
    (along_true as) hrun

/-- **A commit covers what was processed before it.** At most one task flushes at
a time. When a commit called after the start returns `ESP_OK`, a flush that began
after the call has succeeded; after it no processed event is left to write, the
file holds the cache it was last written from, which is the cache of that flush
if that was dirty, and every event accepted before the call was processed by then
or waits in its place in the inbox. -/
theorem commit_covers_processed (process : ι) (disk : Disk) :
    (∀ as s, run (step process) (boot disk) as = some s →
      ∀ i j, (s.pcs i).InFlush → (s.pcs j).InFlush → i = j) ∧
    ∀ as s i t mid u, run (step process) (boot disk) as = some s → s.initialised = true →
      step process s (.commit i) = some t → run (step process) t mid = some u →
      .commit i ∉ mid → u.pcs i = .outside (some .ok) →
      ∃ before j f info after v w, mid = before ++ .flush j f info :: after ∧
        run (step process) t before = some v ∧ step process v (.flush j f info) = some w ∧
        (flushLocked f info v.store v.disk).2.2 = .ok ∧
        w.unsaved = [] ∧ Written w ∧ (v.store.dirty = true → w.image = some v.store) ∧
        ∀ r ∈ s.receipts, Placed r v.processed v.inbox.pending := by
  refine ⟨fun as s hrun i j hi hj => ?_, fun as s i t mid u hs hinit hcall hmid honce hok => ?_⟩
  · have hsound := sound_run (sound_boot process disk) hrun
    exact (hsound.flagged i hi).1.trans (hsound.flagged j hj).1.symm
  · have hsound := sound_run (sound_boot process disk) hs
    obtain ⟨before, j, f, info, after, v, w, heq, hv, hw, hflush⟩ :=
      exists_flush (unanswered_call hsound.flagged hinit hcall) hmid honce hok
    have hreach : run (step process) s (.commit i :: before) = some v := by
      rw [run_cons_some before hcall, hv]
    have hvsound := sound_run hsound hreach
    obtain ⟨-, hwritten⟩ := saved_flush hvsound.saved hw
    obtain ⟨hunsaved, hfile, himage⟩ := hwritten hflush
    exact ⟨before, j, f, info, after, v, w, heq, hv, hw, hflush, hunsaved, hfile, himage,
      fun r hr => placed_at_flush hvsound hw (receipts_run hreach r hr)⟩

/-- A play is counted. -/
def countedPlay : List (Action (Fin 2)) :=
  [.init calm, .queueEvent (.countablePlay oneTrackPlay), .processOnce, .dequeueEvent,
    .processEvent oneTrackCartridge, .dequeueEvent]

/-- The process task (0) serves a commit that another task waits for. -/
def servedCommit : List (Action (Fin 2)) :=
  [.processOnce, .flush 0 calm none, .finishCommit 0, .poll 1]

/-- What the file lacks before the commit is in it afterwards. -/
theorem commit_covers_processed_countedPlay :
    ∃ s t u, run (step 0) (boot noFile) countedPlay = some s ∧
      s.unsaved = [.countablePlay oneTrackPlay] ∧ step 0 s (.commit 1) = some t ∧
      run (step 0) t servedCommit = some u ∧ ∃ before j f info after v w,
        servedCommit = before ++ .flush j f info :: after ∧ run (step 0) t before = some v ∧
        step 0 v (.flush j f info) = some w ∧ w.unsaved = [] ∧ Written w := by
  have hcounted : (run (step 0) (boot noFile) countedPlay).map
      (fun s => (s.initialised, s.unsaved)) = some (true, [.countablePlay oneTrackPlay]) := by
    decide +kernel
  obtain ⟨s, hs, hparts⟩ := Option.map_eq_some_iff.mp hcounted
  obtain ⟨hinit, hunsaved⟩ := Prod.mk.inj hparts
  have hserved : ((run (step 0) (boot noFile) countedPlay).bind fun s =>
      (run (step 0) s (.commit 1 :: servedCommit)).map fun u => u.pcs 1) =
        some (.outside (some .ok)) := by
    decide +kernel
  rw [hs, Option.bind_some] at hserved
  obtain ⟨u, hu, hok⟩ := Option.map_eq_some_iff.mp hserved
  rw [run_cons] at hu
  obtain ⟨t, ht, hu⟩ := Option.bind_eq_some_iff.mp hu
  have honce : .commit 1 ∉ servedCommit := by simp [servedCommit]
  obtain ⟨before, j, f, info, after, v, w, heq, hv, hw, -, hempty, hwritten, -⟩ :=
    (commit_covers_processed 0 noFile).2 countedPlay s 1 t servedCommit u hs hinit ht hu honce hok
  exact ⟨s, t, u, hs, hunsaved, ht, hu, before, j, f, info, after, v, w, heq, hv, hw, hempty,
    hwritten⟩

/-! ## A play a commit leaves behind -/

/-- A play is accepted, a task other than the process task (0) commits, and its call returns. -/
def lastPlay : List (Action (Fin 2)) :=
  [.init calm, .queueEvent (.countablePlay oneTrackPlay), .commit 1, .processOnce,
    .flush 0 calm none, .finishCommit 0, .poll 1]

/-- **A commit does not cover what waits in the inbox**: the play was accepted
before the call, which returned `ESP_OK`, but there is no file at all, although
processing the play would have counted it. -/
theorem commit_misses_inbox :
    ∃ s u, run (step 0) (boot noFile) (lastPlay.take 2) = some s ∧
      s.receipts.map Receipt.event = [.countablePlay oneTrackPlay] ∧
      run (step 0) s (lastPlay.drop 2) = some u ∧ u.pcs 1 = .outside (some .ok) ∧
      u.disk.file = none ∧ u.inbox.pending = [.countablePlay oneTrackPlay] ∧
      (Cache.processEvent oneTrackCartridge (.countablePlay oneTrackPlay) u.store).2.1 = .ok :=
  ⟨_, _, rfl, rfl, rfl, rfl, rfl, rfl, by decide +kernel⟩

end Jukeboy.PlayHistory.Commit
