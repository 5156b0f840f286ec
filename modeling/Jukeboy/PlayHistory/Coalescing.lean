import Jukeboy.Base.Runs
import Jukeboy.PlayHistory.Refinement

/-! # The event inbox

Events wait in an inbox of 64 entries; an event equal to one that waits already
is taken as accepted and left out. Beside the service runs a reference that
processes every accepted event in order, the ones left out too. -/
namespace Jukeboy.PlayHistory.Coalescing

open Jukeboy.Base Jukeboy.Base.Runs Jukeboy.Base.SlotTable Jukeboy.Formats.Jbm
  Jukeboy.PlayHistory.Cache Jukeboy.PlayHistory.Effects Jukeboy.PlayHistory.Operations
  Jukeboy.PlayHistory.Invariant Jukeboy.PlayHistory.Refinement

abbrev eventQueueDepth : Nat := 64

/-- The events waiting, the head of the ring buffer first, and the flag that
keeps the overflow warning from repeating. -/
structure Inbox where
  pending : List Event
  overflowLogged : Bool

def isCompactableEvent : Event → Bool
  | .syncCurrentCartridge => true
  | .countablePlay _ => false
  | .clear => true
  | .rebuild => true

def eventsEqual (lhs rhs : Event) : Bool := lhs == rhs

/-- The event waits already. -/
def coalesces (event : Event) (inbox : Inbox) : Bool :=
  isCompactableEvent event && inbox.pending.any fun waiting => eventsEqual waiting event

/-- `play_history_queue_event`: whether the event was accepted, and the inbox after it. -/
def queueEvent (event : Event) (inbox : Inbox) : Bool × Inbox :=
  if inbox.pending.length < eventQueueDepth then
    if coalesces event inbox then (true, { inbox with overflowLogged := false })
    else (true, { pending := inbox.pending ++ [event], overflowLogged := false })
  else (false, { inbox with overflowLogged := true })

/-- `play_history_dequeue_event`. -/
def dequeueEvent (inbox : Inbox) : Option (Event × Inbox) :=
  match inbox.pending with
  | [] => none
  | event :: rest => some (event, { inbox with pending := rest })

/-! ## The service and its reference -/

/-- An accepted event the reference has not processed yet, and whether the inbox
left it out. -/
structure Accepted where
  event : Event
  leftOut : Bool
deriving DecidableEq, Repr

structure State where
  inbox : Inbox
  store : Store
  accepted : List Accepted
  reference : Store

inductive Action where
  | queue (event : Event)
  /-- The service takes the next event, with this cartridge in the slot; so does
  the reference. -/
  | dequeue (cart : Cartridge)
  /-- The reference processes an event the inbox left out. -/
  | catchUp (cart : Cartridge)

/-- A service with nothing to do; the reference starts with the same store. -/
def start (s : Store) : State := ⟨⟨[], false⟩, s, [], s⟩

def step (s : State) : Action → Option State
  | .queue event =>
    let (queued, inbox) := queueEvent event s.inbox
    some { s with
      inbox
      accepted := if queued then s.accepted ++ [⟨event, coalesces event s.inbox⟩]
        else s.accepted }
  | .dequeue cart =>
    match dequeueEvent s.inbox, s.accepted with
    | none, _ => some s
    | some (event, inbox), ⟨accepted, false⟩ :: rest =>
      some ⟨inbox, (processEvent cart event s.store).1, rest,
        (processEvent cart accepted s.reference).1⟩
    | some _, _ => none
  | .catchUp cart =>
    match s.accepted with
    | ⟨accepted, true⟩ :: rest =>
      some { s with accepted := rest, reference := (processEvent cart accepted s.reference).1 }
    | _ => none

/-! ## What the cache holds -/

/-- The albums and tracks in use and the play counts. -/
structure Contents where
  albums : Finset UInt32
  tracks : Finset TrackKey
  playCount : TrackKey → Option UInt32

def contents (s : Store) : Contents :=
  ⟨keys Album.checksum s.albums, trackKeys s, fun k => (trackAt s k).map Track.playCount⟩

/-- Stores that represent one shelf hold the same. -/
theorem contents_eq_of_represents {s t : Store} {shelf : Shelf} (hs : Represents s shelf)
    (ht : Represents t shelf) : contents s = contents t := by
  have halbums : keys Album.checksum s.albums = keys Album.checksum t.albums := by
    ext c
    rw [mem_keys, mem_keys, ← Option.ne_none_iff_isSome, ← Option.ne_none_iff_isSome]
    exact hs.mem_albums.symm.trans ht.mem_albums
  have htracks : trackKeys s = trackKeys t := hs.tracks_eq.symm.trans ht.tracks_eq
  have hplays : ∀ k, playsAt s k = playsAt t k := by
    intro k
    have hsk := hs.plays k
    have htk := ht.plays k
    have hiff := (hs.tracks k).symm.trans (ht.tracks k)
    cases hps : playsAt s k with
    | none =>
      cases hpt : playsAt t k with
      | none => rfl
      | some n => simp [hps, hpt] at hiff
    | some m =>
      cases hpt : playsAt t k with
      | none => simp [hps, hpt] at hiff
      | some n =>
        rw [hps] at hsk
        rw [hpt] at htk
        exact congrArg some (hsk.symm.trans htk)
  have hcount : (fun k => (trackAt s k).map Track.playCount) =
      fun k => (trackAt t k).map Track.playCount := by
    funext k
    have hinj : Function.Injective (Option.map UInt32.toNat) :=
      Option.map_injective fun a b hab => UInt32.toNat_inj.mp hab
    refine hinj ?_
    rw [Option.map_map, Option.map_map]
    exact hplays k
  rw [contents, contents, halbums, htracks, hcount]

/-! ## Events that are left out without harm -/

/-- An event that an equal one waits for already. -/
def Repeats (inbox : Inbox) : Event → Prop
  | .countablePlay _ => False
  | event => event ∈ inbox.pending

instance (inbox : Inbox) : ∀ event, Decidable (Repeats inbox event)
  | .countablePlay _ => .isFalse id
  | .syncCurrentCartridge | .clear | .rebuild => inferInstanceAs (Decidable (_ ∈ _))

theorem coalesces_iff {event : Event} {inbox : Inbox} :
    coalesces event inbox = true ↔ Repeats inbox event := by
  cases event <;> simp [coalesces, isCompactableEvent, eventsEqual, Repeats]

/-- What the run says beside its states: of each accepted event that is not processed yet,
oldest first, whether it was queued while an equal one waited, and what the events
processed so far, with the cartridges inserted then, say of the cache. -/
structure Record where
  repeats : List Bool
  known : Shelf.Known UInt32 UInt32

/-- What an action adds to the record. -/
def note (s : State) (a : Action) (r : Record) : Record :=
  match a with
  | .queue event =>
    if s.inbox.pending.length < eventQueueDepth then
      { r with repeats := r.repeats ++ [decide (Repeats s.inbox event)] }
    else r
  | .dequeue cart =>
    match s.inbox.pending with
    | [] => r
    | event :: _ => ⟨r.repeats.tail, r.known.after (inserted cart) (shelfEvent event)⟩
  | .catchUp _ => { r with repeats := r.repeats.tail }

/-! ## Runs -/

/-- An event that was queued while an equal one waited is, in its turn, one for which the
events accepted before it leave nothing to do. -/
def Harmless (s : State × Record) : Action → Prop
  | .queue _ => True
  | .dequeue _ => True
  | .catchUp cart => match s.1.accepted, s.2.repeats with
    | ⟨event, _⟩ :: _, true :: _ => s.2.known.Settles (inserted cart) (shelfEvent event)
    | _, _ => True

/-- The step does not wrap a sequence counter. -/
def NoWrap (s : State) (a : Action) : Prop :=
  match step s a with
  | none => True
  | some t => t.store.wrapped = false ∧ t.reference.wrapped = false

def Transparent (s : State × Record) (a : Action) : Prop := Harmless s a ∧ NoWrap s.1 a

/-- The accepted events that were not left out are those in the inbox. -/
def Waiting (s : State) : Prop :=
  (s.accepted.filter fun a => !a.leftOut).map Accepted.event = s.inbox.pending

/-- The store and the reference are sound and hold one shelf, which is as the record
says; and the events left out are those that repeat one that waited. -/
structure Agree (s : State) (r : Record) : Prop where
  store : Shape s.store ∧ Timed s.store
  reference : Shape s.reference ∧ Timed s.reference
  shelf : ∃ shelf, Represents s.store shelf ∧ Represents s.reference shelf ∧ r.known.Holds shelf
  waiting : Waiting s
  repeats : r.repeats = s.accepted.map Accepted.leftOut

theorem processEvent_sound {cart : Cartridge} {event : Event} {s : Store}
    (hs : Shape s ∧ Timed s) (hw : (processEvent cart event s).1.wrapped = false) :
    Shape (processEvent cart event s).1 ∧ Timed (processEvent cart event s).1 := by
  obtain ⟨es, hpath⟩ := processEvent_path cart event hs.1 hs.2
  exact ⟨hpath.shape hs.1, hpath.timed hs.1 hs.2 hw⟩

/-- What a call of `play_history_queue_event` does. -/
theorem step_queue {s t : State} {event : Event} (hstep : step s (.queue event) = some t) :
    t.store = s.store ∧ t.reference = s.reference ∧
      (t.accepted = s.accepted ∧ t.inbox.pending = s.inbox.pending ∨
        t.accepted = s.accepted ++ [⟨event, true⟩] ∧ t.inbox.pending = s.inbox.pending ∨
        t.accepted = s.accepted ++ [⟨event, false⟩] ∧
          t.inbox.pending = s.inbox.pending ++ [event]) := by
  simp only [step, queueEvent] at hstep
  split at hstep
  · cases hc : coalesces event s.inbox <;> rw [hc] at hstep <;>
      obtain rfl := Option.some.inj hstep
    · exact ⟨rfl, rfl, .inr (.inr ⟨rfl, rfl⟩)⟩
    · exact ⟨rfl, rfl, .inr (.inl ⟨rfl, rfl⟩)⟩
  · obtain rfl := Option.some.inj hstep
    exact ⟨rfl, rfl, .inl ⟨rfl, rfl⟩⟩

/-- What taking an event does. -/
theorem step_dequeue {s t : State} {cart : Cartridge} (hstep : step s (.dequeue cart) = some t) :
    s.inbox.pending = [] ∧ t = s ∨
      ∃ event waiting accepted rest, s.inbox.pending = event :: waiting ∧
        s.accepted = ⟨accepted, false⟩ :: rest ∧
        t = ⟨{ s.inbox with pending := waiting }, (processEvent cart event s.store).1, rest,
          (processEvent cart accepted s.reference).1⟩ := by
  cases hp : s.inbox.pending with
  | nil =>
    simp only [step, dequeueEvent, hp, Option.some.injEq] at hstep
    exact .inl ⟨rfl, hstep.symm⟩
  | cons event waiting =>
    cases hacc : s.accepted with
    | nil => simp [step, dequeueEvent, hp, hacc] at hstep
    | cons head rest =>
      obtain ⟨accepted, leftOut⟩ := head
      cases leftOut with
      | true => simp [step, dequeueEvent, hp, hacc] at hstep
      | false =>
        simp only [step, dequeueEvent, hp, hacc, Option.some.injEq] at hstep
        exact .inr ⟨event, waiting, accepted, rest, rfl, rfl, hstep.symm⟩

/-- What the reference does with an event left out. -/
theorem step_catchUp {s t : State} {cart : Cartridge} (hstep : step s (.catchUp cart) = some t) :
    ∃ event rest, s.accepted = ⟨event, true⟩ :: rest ∧
      t = { s with accepted := rest, reference := (processEvent cart event s.reference).1 } := by
  simp only [step] at hstep
  split at hstep
  · next event rest hacc => exact ⟨event, rest, hacc, (Option.some.inj hstep).symm⟩
  · cases hstep

theorem NoWrap.of_step {s t : State} {a : Action} (h : NoWrap s a) (hstep : step s a = some t) :
    t.store.wrapped = false ∧ t.reference.wrapped = false := by
  rwa [NoWrap, hstep] at h

theorem waiting_step {s t : State} {a : Action} (h : Waiting s) (hstep : step s a = some t) :
    Waiting t := by
  unfold Waiting at h ⊢
  cases a with
  | queue event =>
    obtain ⟨-, -, ⟨hacc, hp⟩ | ⟨hacc, hp⟩ | ⟨hacc, hp⟩⟩ := step_queue hstep
    · rw [hacc, hp, h]
    · rw [hacc, hp, List.filter_append, List.map_append, h]
      simp
    · rw [hacc, hp, List.filter_append, List.map_append, h]
      simp
  | dequeue cart =>
    rcases step_dequeue hstep with ⟨-, rfl⟩ | ⟨event, waiting, accepted, rest, hp, hacc, rfl⟩
    · exact h
    · rw [hp, hacc, List.filter_cons_of_pos (by rfl), List.map_cons] at h
      exact (List.cons.inj h).2
  | catchUp cart =>
    obtain ⟨event, rest, hacc, rfl⟩ := step_catchUp hstep
    rwa [hacc, List.filter_cons_of_neg (by simp)] at h

theorem agree_queue {s t : State} {r : Record} {event : Event} (h : Agree s r)
    (hstep : step s (.queue event) = some t) : Agree t (note s (.queue event) r) := by
  have hwaiting := waiting_step h.waiting hstep
  have hflag : coalesces event s.inbox = decide (Repeats s.inbox event) := by
    rw [Bool.eq_iff_iff, decide_eq_true_iff, coalesces_iff]
  simp only [step, queueEvent] at hstep
  unfold note
  split at hstep
  · next hroom =>
    have ht : t.store = s.store ∧ t.reference = s.reference ∧
        t.accepted = s.accepted ++ [⟨event, coalesces event s.inbox⟩] := by
      cases hc : coalesces event s.inbox <;> rw [hc] at hstep <;>
        obtain rfl := Option.some.inj hstep <;> exact ⟨rfl, rfl, rfl⟩
    obtain ⟨hstore, href, haccepted⟩ := ht
    simp only [if_pos hroom]
    refine ⟨hstore ▸ h.store, href ▸ h.reference, hstore ▸ href ▸ h.shelf, hwaiting, ?_⟩
    rw [haccepted, List.map_append, h.repeats, hflag]
    rfl
  · next hfull =>
    simp only [if_neg hfull]
    obtain rfl := Option.some.inj hstep
    exact ⟨h.store, h.reference, h.shelf, hwaiting, h.repeats⟩

theorem agree_dequeue {s t : State} {r : Record} {cart : Cartridge} (h : Agree s r)
    (hw : NoWrap s (.dequeue cart)) (hstep : step s (.dequeue cart) = some t) :
    Agree t (note s (.dequeue cart) r) := by
  have hw' := hw.of_step hstep
  have hwaiting := waiting_step h.waiting hstep
  rcases step_dequeue hstep with ⟨hp, rfl⟩ | ⟨event, waiting, accepted, rest, hp, hacc, rfl⟩
  · simp only [note, hp]
    exact h
  · have hhead := h.waiting
    rw [Waiting, hp, hacc, List.filter_cons_of_pos (by rfl), List.map_cons] at hhead
    obtain ⟨rfl, -⟩ := List.cons.inj hhead
    obtain ⟨shelf, hrs, hrr, hknown⟩ := h.shelf
    simp only [note, hp]
    refine ⟨processEvent_sound h.store hw'.1, processEvent_sound h.reference hw'.2,
      ⟨_, processEvent_represents h.store.1 h.store.2 hw'.1 hrs,
        processEvent_represents h.reference.1 h.reference.2 hw'.2 hrr,
        Shelf.Known.holds_handle (hrs.room h.store.1) hknown _ _⟩, hwaiting, ?_⟩
    rw [h.repeats, hacc]
    rfl

theorem agree_catchUp {s t : State} {r : Record} {cart : Cartridge} (h : Agree s r)
    (hharm : Harmless (s, r) (.catchUp cart)) (hw : NoWrap s (.catchUp cart))
    (hstep : step s (.catchUp cart) = some t) : Agree t (note s (.catchUp cart) r) := by
  have hw' := hw.of_step hstep
  have hwaiting := waiting_step h.waiting hstep
  obtain ⟨event, rest, hacc, rfl⟩ := step_catchUp hstep
  have hrepeats : r.repeats = true :: rest.map Accepted.leftOut := by
    rw [h.repeats, hacc]
    rfl
  simp only [Harmless, hacc, hrepeats] at hharm
  obtain ⟨shelf, hrs, hrr, hknown⟩ := h.shelf
  -- the reference finds nothing to do, and the service does not process the event
  have hset := hharm.settled hknown
  have hkept := processEvent_represents h.reference.1 h.reference.2 hw'.2 hrr
  rw [Shelf.handle_of_settled (hrs.room h.store.1) hset] at hkept
  refine ⟨h.store, processEvent_sound h.reference hw'.2, ⟨shelf, hrs, hkept, hknown⟩, hwaiting, ?_⟩
  simp only [note, hrepeats, List.tail_cons]

theorem agree_step (s : State × Record) (a : Action) (t : State × Record) (h : Agree s.1 s.2)
    (hc : Transparent s a) (hstep : recorded step note s a = some t) : Agree t.1 t.2 := by
  obtain ⟨hstep, hrecord⟩ := recorded_some hstep
  rw [hrecord]
  cases a with
  | queue event => exact agree_queue h hstep
  | dequeue cart => exact agree_dequeue h hc.2 hstep
  | catchUp cart => exact agree_catchUp h hc.1 hc.2 hstep

/-- Nothing has happened. -/
def startRecord (s : Store) : State × Record := (start s, ⟨[], .nothing⟩)

/-- **Coalescing is transparent** in every run in which an event that was queued while an
equal one waited is settled, in its turn, by the events accepted before it: the cache holds
what processing every accepted event gives. -/
theorem coalescing_transparent {s : Store} (hs : Reachable s) {as : List Action} {t : State}
    (hc : Along (recorded step note) Transparent (startRecord s) as)
    (hrun : run step (start s) as = some t) : contents t.store = contents t.reference := by
  obtain ⟨hshape, htimed, -⟩ := hs.sound
  obtain ⟨shelf, hrep⟩ := exists_represents hs
  have h0 : Agree (start s) ⟨[], .nothing⟩ :=
    ⟨⟨hshape, htimed⟩, ⟨hshape, htimed⟩, ⟨shelf, hrep, hrep, trivial⟩, rfl, rfl⟩
  obtain ⟨record, hrecord⟩ := run_recorded note hrun ⟨[], .nothing⟩
  have hend : Agree t record := run_invariant (I := fun s => Agree s.1 s.2) agree_step h0 hc hrecord
  obtain ⟨shelf, hrs, hrr, -⟩ := hend.shelf
  exact contents_eq_of_represents hrs hrr

/-! ## Every interleaving is such a run -/

/-- The call of the service behind an action; the reference's own steps are none. -/
def Action.call : Action → Option Action
  | .queue event => some (.queue event)
  | .dequeue cart => some (.dequeue cart)
  | .catchUp _ => none

/-- The reference can catch up with the events left out that come next. -/
theorem exists_catchUp (cart : Cartridge) (s : State) (h : Waiting s) :
    ∃ as t, run step s as = some t ∧ as.filterMap Action.call = [] ∧ Waiting t ∧
      ∀ a rest, t.accepted = a :: rest → a.leftOut = false := by
  obtain ⟨inbox, store, accepted, reference⟩ := s
  induction accepted generalizing reference with
  | nil => exact ⟨[], _, rfl, rfl, h, fun _ _ h => by cases h⟩
  | cons a rest ih =>
    obtain ⟨event, leftOut⟩ := a
    cases leftOut with
    | false =>
      refine ⟨[], _, rfl, rfl, h, fun a rest heq => ?_⟩
      obtain ⟨rfl, -⟩ := List.cons.inj heq
      rfl
    | true =>
      obtain ⟨as, t, hrun, hcalls, hrest⟩ := ih (processEvent cart event reference).1
        (waiting_step (a := .catchUp cart) h rfl)
      exact ⟨.catchUp cart :: as, t, hrun, hcalls, hrest⟩

/-- Once the reference has caught up, every call is enabled. -/
theorem step_call_isSome {s : State} (h : Waiting s)
    (hhead : ∀ a rest, s.accepted = a :: rest → a.leftOut = false) {a : Action}
    (ha : a.call = some a) : ∃ t, step s a = some t := by
  cases a with
  | queue event => exact ⟨_, rfl⟩
  | dequeue cart =>
    unfold Waiting at h
    cases hacc : s.accepted with
    | nil =>
      rw [hacc, List.filter_nil, List.map_nil] at h
      exact ⟨s, by simp only [step, dequeueEvent, ← h]⟩
    | cons first rest =>
      obtain ⟨event, leftOut⟩ := first
      obtain rfl : leftOut = false := hhead _ _ hacc
      rw [hacc, List.filter_cons_of_pos (by rfl), List.map_cons] at h
      exact ⟨_, by simp only [step, dequeueEvent, ← h, hacc]; rfl⟩
  | catchUp cart => cases ha

/-- **Every interleaving** of calls is the calls of a run: the reference can
always process the events left out in their turn. -/
theorem exists_run_of_calls (cart : Cartridge) {calls : List Action}
    (hcalls : ∀ a ∈ calls, a.call = some a) {s : State} (h : Waiting s) :
    ∃ as t, run step s as = some t ∧ as.filterMap Action.call = calls := by
  induction calls generalizing s with
  | nil => exact ⟨[], s, rfl, rfl⟩
  | cons a rest ih =>
    have ha := hcalls a (List.mem_cons_self ..)
    obtain ⟨pre, u, hpre, hnone, hwait, hhead⟩ := exists_catchUp cart s h
    obtain ⟨v, hstep⟩ := step_call_isSome hwait hhead ha
    obtain ⟨post, t, hpost, hrest⟩ := ih (fun b hb => hcalls b (List.mem_cons_of_mem _ hb))
      (waiting_step hwait hstep)
    refine ⟨pre ++ a :: post, t, ?_, ?_⟩
    · rw [run_append, hpre, Option.bind_some, run_cons_some post hstep, hpost]
    · rw [List.filterMap_append, hnone, List.nil_append, List.filterMap_cons_some ha, hrest]

/-! ## A run that meets the condition and one that does not -/

instance (s : State × Record) : ∀ a, Decidable (Harmless s a)
  | .queue _ => .isTrue trivial
  | .dequeue _ => .isTrue trivial
  | .catchUp cart =>
    match h : s.1.accepted, h' : s.2.repeats with
    | [], _ => .isTrue (by simp only [Harmless, h])
    | _ :: _, [] => .isTrue (by simp only [Harmless, h, h'])
    | _ :: _, false :: _ => .isTrue (by simp only [Harmless, h, h'])
    | ⟨event, _⟩ :: _, true :: _ =>
      decidable_of_iff (s.2.known.Settles (inserted cart) (shelfEvent event))
        (by simp only [Harmless, h, h'])

instance (s : State) (a : Action) : Decidable (NoWrap s a) :=
  match h : step s a with
  | none => .isTrue (by simp only [NoWrap, h])
  | some t =>
    decidable_of_iff (t.store.wrapped = false ∧ t.reference.wrapped = false)
      (by simp only [NoWrap, h])

instance (s : State × Record) (a : Action) : Decidable (Transparent s a) :=
  inferInstanceAs (Decidable (_ ∧ _))

def emptied : Store := resetCache emptyStore

/-- Two SYNC events in a row: the second is left out. -/
def doubleSync : List Action :=
  [.queue .syncCurrentCartridge, .queue .syncCurrentCartridge, .dequeue oneTrackCartridge,
    .catchUp oneTrackCartridge]

theorem coalescing_transparent_doubleSync :
    ∃ t, run step (start emptied) doubleSync = some t ∧ contents t.store = contents t.reference :=
  ⟨_, rfl, @coalescing_transparent emptied (.reset emptyStore) doubleSync _ (by decide +kernel) rfl⟩

/-- A CLEAR is left out because one waits before the play it should clear. -/
def lostClear : List Action :=
  [.queue .clear, .queue (.countablePlay oneTrackPlay), .queue .clear,
    .dequeue oneTrackCartridge, .dequeue oneTrackCartridge, .catchUp oneTrackCartridge]

/-- **Coalescing loses a CLEAR**: the inbox never overflows and every accepted
event is processed, but the album the CLEAR should have removed is there. -/
theorem coalescing_not_transparent :
    ∃ t, run step (start emptied) lostClear = some t ∧
      Along step (fun s _ => s.inbox.pending.length < eventQueueDepth) (start emptied) lostClear ∧
      t.inbox.pending = [] ∧ t.accepted = [] ∧ contents t.store ≠ contents t.reference := by
  refine ⟨_, rfl, by decide +kernel, rfl, rfl, fun heq => ?_⟩
  have hcleared := congrArg (fun held => decide (7 ∈ held.albums)) heq
  revert hcleared
  decide +kernel

end Jukeboy.PlayHistory.Coalescing
